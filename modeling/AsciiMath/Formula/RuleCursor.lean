import AsciiMath.Formula.Matrix

/-!
# A cursor in the rules

The boundaries of rules can be sorted, with repeated ones dropped. The column specification is then
written in one pass over the boundaries, with a cursor in the rules. The cursor moves on only at the
boundary of the rule where it stands, so a rule that is passed over would hold back all rules behind
it.
-/

namespace AsciiMath.Matrix

variable {α : Type}

/-- Of equal neighbours the last one is kept. -/
def dropRepeats : List Nat → List Nat
  | [] => []
  | rule :: rules =>
    if rules.head? = some rule then dropRepeats rules else rule :: dropRepeats rules

def sortRules (rules : List Nat) : List Nat := dropRepeats rules.mergeSort

/-- The matrix with sorted rules, if its last boundary is not exceeded by any of them. -/
def ofSorted? (left : String) (rows : List (List α)) (right : String) (alignment : Alignment)
    (rules : List Nat) : Option (Matrix α) :=
  let matrix : Matrix α := ⟨left, rows, right, alignment, sortRules rules⟩
  if matrix.dividers.all (· ≤ matrix.columnCount) then some matrix else none

/-- The bar at a boundary, if the next rule runs there, and the rules that are still to come. -/
def takeRule (boundary : Nat) : List Nat → List Char × List Nat
  | [] => ([], [])
  | rule :: rules => if rule = boundary then (['|'], rules) else ([], rule :: rules)

/-- What is written from a boundary on, with the given number of columns behind it. -/
def specFrom (letter : Char) : Nat → Nat → List Nat → List Char
  | 0, boundary, rules => (takeRule boundary rules).1
  | columns + 1, boundary, rules =>
    let (bar, rest) := takeRule boundary rules
    bar ++ letter :: specFrom letter columns (boundary + 1) rest

def writtenSpec (matrix : Matrix α) : String :=
  String.ofList (specFrom matrix.alignment.letter matrix.columnCount 0 matrix.dividers)

end AsciiMath.Matrix
