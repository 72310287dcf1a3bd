import AsciiMath.Symbol.Table

/-!
# Rows of entries

The entries of a symbol table can be kept in a row, beside a list of the places where the keywords
stand in it. A keyword with more than one entry has the place of the last of them. An extra keyword
that has a place gets its TeX there, and any other one goes to the end of the row.
-/

namespace AsciiMath

structure EntryRow where
  entries : List (String × Symbol)
  /-- The latest place of a keyword comes first. -/
  places : List (String × Nat)
deriving DecidableEq, Repr

namespace EntryRow

def empty : EntryRow := ⟨[], []⟩

def push (row : EntryRow) (entry : String × Symbol) : EntryRow :=
  ⟨row.entries ++ [entry], (entry.1, row.entries.length) :: row.places⟩

def ofEntries (entries : List (String × Symbol)) : EntryRow := entries.foldl push empty

/-- The row with other TeX for the entry at a place; none past the end. -/
def restyle? (row : EntryRow) (place : Nat) (template : String) : Option EntryRow :=
  row.entries[place]?.map fun (keyword, known) =>
    { row with entries := row.entries.set place (keyword, { known with template }) }

def add? (row : EntryRow) (extra : String × String) : Option EntryRow :=
  match row.places.lookup extra.1 with
  | some place => row.restyle? place extra.2
  | none => some (row.push (extra.1, Symbol.ofTemplate extra.2))

def withExtras? (entries : List (String × Symbol)) (extras : List (String × String)) :
    Option EntryRow :=
  extras.foldlM add? (ofEntries entries)

end EntryRow

end AsciiMath
