import AsciiMath.Keyword.Trie
import AsciiMath.Symbol.Standard

/-!
# Symbol tables

A table finds the symbol of a keyword, and the longest keyword at the start of a text. Extra
keywords are added to a table one after the other. An extra keyword that is already known keeps its
category and flag and gets new TeX, and any other one is known by its TeX alone.
-/

namespace AsciiMath

structure SymbolTable where
  trie : Trie Symbol
deriving DecidableEq, Repr

namespace SymbolTable

/-- Of two entries with one keyword, the later one counts. -/
def ofEntries (entries : List (String × Symbol)) : Except AlphabetError SymbolTable :=
  mk <$> Trie.ofEntries entries

/-- The entry that an extra keyword adds after the given ones. -/
def extraEntry (entries : List (String × Symbol)) (extra : String × String) : String × Symbol :=
  match entries.reverse.lookup extra.1 with
  | some known => (extra.1, { known with template := extra.2 })
  | none => (extra.1, Symbol.ofTemplate extra.2)

def withExtras (entries : List (String × Symbol)) (extras : List (String × String)) :
    Except AlphabetError SymbolTable :=
  ofEntries (extras.foldl (fun known extra => known ++ [extraEntry known extra]) entries)

def standard : Except AlphabetError SymbolTable := ofEntries Standard.symbols

def get? (table : SymbolTable) (keyword : String) : Option Symbol :=
  table.trie.get? keyword.toList

instance : KeywordMap SymbolTable Symbol := ⟨fun table text => table.trie.longest? text⟩

end SymbolTable

end AsciiMath
