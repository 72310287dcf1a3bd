/-!
# Matrices

A matrix has rows of any lengths and is as wide as its widest row. Vertical rules run along the
boundaries of its columns, where zero is the boundary before the first column. The column
specification has one letter for each column and one bar for each rule.
-/

namespace AsciiMath

inductive Alignment where
  | left
  | center
deriving DecidableEq, Repr

def Alignment.letter : Alignment → Char
  | .left => 'l'
  | .center => 'c'

structure Matrix (α : Type) where
  left : String
  rows : List (List α)
  right : String
  alignment : Alignment
  /-- The boundaries with a rule, in ascending order. -/
  dividers : List Nat
deriving DecidableEq, Repr

namespace Matrix

variable {α : Type}

def widest (rows : List (List α)) : Nat := (rows.map List.length).foldr max 0

/-- A matrix from its rows, if every rule runs along one of its boundaries. -/
def ofRows? (left : String) (rows : List (List α)) (right : String) (alignment : Alignment)
    (dividers : List Nat) : Option (Matrix α) :=
  if dividers.all (· ≤ widest rows) then
    some ⟨left, rows, right, alignment, (List.range (widest rows + 1)).filter (· ∈ dividers)⟩
  else
    none

def columnCount (matrix : Matrix α) : Nat := widest matrix.rows

def rowCount (matrix : Matrix α) : Nat := matrix.rows.length

/-- What the column specification has at a boundary, and then for the column behind it. -/
def specAt (matrix : Matrix α) (boundary : Nat) : List Char :=
  (if boundary ∈ matrix.dividers then ['|'] else []) ++
    if boundary < matrix.columnCount then [matrix.alignment.letter] else []

def columnSpec (matrix : Matrix α) : String :=
  String.ofList ((List.range (matrix.columnCount + 1)).flatMap matrix.specAt)

end Matrix

end AsciiMath
