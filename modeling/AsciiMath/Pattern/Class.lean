import AsciiMath.Pattern.Escape

/-!
# Bracketed sets in patterns

A bracket holds characters, ranges, escapes, named sets and further brackets, all of which are
united. Two of the signs for intersection, difference and symmetric difference combine what stands
on either side of them, from left to right. A closing bracket that comes first stands for itself,
and so do hyphens at the start and one that cannot make a range.
-/

namespace AsciiMath.Pattern

def readClassAtom (modes : Modes) : List Char → Option (Atom × List Char)
  | [] => none
  | '\\' :: cs => readEscape modes cs
  | c :: cs => some (.literal c, cs)

/-- Outside Unicode, the characters of a set are those of ASCII. -/
def literal? (modes : Modes) : Atom → Option Char
  | .literal c => if modes.unicode || c.toNat < 0x80 then some c else none
  | _ => none

/-- A character, a range or an escape inside brackets. -/
def readClassItem (modes : Modes) (pattern : List Char) : Option (CharSet × List Char) := do
  let (atom, after) ← readClassAtom modes pattern
  let single : Option CharSet :=
    match atom with
    | .set set => some set
    | .look _ => none
    | .literal _ => CharSet.single <$> literal? modes atom
  match modes.skip after with
  | [] => none
  | '-' :: cs =>
    match modes.skip cs with
    | [] => none
    | ']' :: _ | '-' :: _ => return (← single, '-' :: cs)
    | cs => do
      let (last, after) ← readClassAtom modes cs
      let low ← literal? modes atom
      let high ← literal? modes last
      if high < low then none
      return (.ranges [(low, high)], after)
  | after => return (← single, after)

/-- A named set, if the text behind a bracket spells one. -/
def readNamed? (modes : Modes) (pattern : List Char) : Option (CharSet × List Char) :=
  match pattern with
  | ':' :: cs =>
    let (negated, cs) := match cs with
      | '^' :: cs => (true, cs)
      | cs => (false, cs)
    match cs.dropWhile (· != ':') with
    | ':' :: ']' :: after => do
      let named ← CharSet.asciiNamed.lookup (String.ofList (cs.takeWhile (· != ':')))
      let closed := modes.closeCase named
      return (if negated then .complement closed else closed, after)
    | _ => none
  | _ => none

inductive SetOperator where
  | intersection
  | difference
  | symmetricDifference

def SetOperator.apply : SetOperator → CharSet → CharSet → CharSet
  | .intersection => .intersection
  | .difference => .difference
  | .symmetricDifference => .symmetricDifference

/-- What a bracket holds so far: the operation that waits for its second side, and the union under
way. -/
structure OpenClass where
  waiting : Option (SetOperator × CharSet)
  union : CharSet

namespace OpenClass

def start : OpenClass := ⟨none, .none⟩

def add (opened : OpenClass) (set : CharSet) : OpenClass :=
  { opened with union := .union opened.union set }

def value (opened : OpenClass) (modes : Modes) : CharSet :=
  match opened.waiting with
  | none => opened.union
  | some (operator, first) => operator.apply (modes.closeCase first) (modes.closeCase opened.union)

def operate (opened : OpenClass) (modes : Modes) (operator : SetOperator) : OpenClass :=
  ⟨some (operator, opened.value modes), .none⟩

end OpenClass

/-- The hyphens that a bracket begins with, or the closing bracket that it begins with. -/
def readClassStart (modes : Modes) : Nat → Bool → List Char → OpenClass × List Char
  | 0, _, pattern => (.start, pattern)
  | fuel + 1, first, pattern =>
    match modes.skip pattern with
    | '-' :: cs =>
      let (opened, after) := readClassStart modes fuel false cs
      (opened.add (.single '-'), after)
    | ']' :: cs => if first then (OpenClass.start.add (.single ']'), cs) else (.start, ']' :: cs)
    | cs => (.start, cs)

mutual

/-- The set in brackets, from behind the opening one. -/
def readClass (modes : Modes) : Nat → List Char → Option (CharSet × List Char)
  | 0, _ => none
  | fuel + 1, pattern => do
    let (negated, pattern) := match modes.skip pattern with
      | '^' :: cs => (true, modes.skip cs)
      | cs => (false, cs)
    let (opened, pattern) := readClassStart modes fuel true pattern
    let (set, after) ← readClassRest modes fuel opened pattern
    let closed := modes.closeCase set
    return (if negated then .complement closed else closed, after)

def readClassRest (modes : Modes) :
    Nat → OpenClass → List Char → Option (CharSet × List Char)
  | 0, _, _ => none
  | fuel + 1, opened, pattern =>
    match modes.skip pattern with
    | [] => none
    | '[' :: cs =>
      match readNamed? modes cs with
      | some (named, after) => readClassRest modes fuel (opened.add named) after
      | none => do
        let (nested, after) ← readClass modes fuel cs
        readClassRest modes fuel (opened.add nested) after
    | ']' :: cs => some (opened.value modes, cs)
    | '&' :: '&' :: cs => readClassRest modes fuel (opened.operate modes .intersection) cs
    | '-' :: '-' :: cs => readClassRest modes fuel (opened.operate modes .difference) cs
    | '~' :: '~' :: cs => readClassRest modes fuel (opened.operate modes .symmetricDifference) cs
    | cs => do
      let (set, after) ← readClassItem modes cs
      readClassRest modes fuel (opened.add set) after

end

end AsciiMath.Pattern
