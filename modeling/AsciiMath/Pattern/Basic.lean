import AsciiMath.Pattern.Program
import AsciiMath.Pattern.Reader
import AsciiMath.Pattern.Replacement

/-!
# Patterns

A pattern finds its matches from left to right, each behind the one before it. An empty match is
passed over where the last match ended. All matches in a text are replaced together.
-/

namespace AsciiMath

structure Pattern where
  program : Pattern.Program
  first : Nat
  groups : Nat
  names : List (String × Nat)

namespace Pattern

/-- How much room a set takes in a program, in bytes: a set of one range of ASCII is the least. -/
def setWeight : CharSet → Nat
  | .ranges [(low, high)] => if low = high then 32 * low.utf8Size else 32 * high.utf8Size
  | .ranges bounds => 32 + 8 * bounds.length
  | .blank => 600
  | .digit => 3500
  | .word => 46000
  | .complement set => 400 + setWeight set
  | .union first second | .intersection first second | .difference first second
  | .symmetricDifference first second => setWeight first + setWeight second
  | .anyCase set | .asciiAnyCase set => 2 * setWeight set

/-- How much room an expression takes in a program, in bytes. -/
def weight : Expr → Nat
  | .empty => 32
  | .one set => setWeight set
  | .look _ => 32
  | .sequence first second => weight first + weight second
  | .choice first second => weight first + weight second + 40
  | .group number body => weight body + if number.isSome then 64 else 0
  | .repeated body least most _ =>
    let copies := if body.isBlankOnly then 1 else max 1 (most.getD least)
    copies * weight body + (copies - least) * 40 + 72

/-- A pattern may not take more than ten megabytes. -/
def maxWeight : Nat := 0xa00000

def ofString? (pattern : String) : Option Pattern := do
  let (expr, groups, names) ← readPattern pattern.toList
  if maxWeight < weight expr then none
  let (accept, program) := Program.add #[] .accept
  let (first, program) := expr.compile accept program
  return { program, first, groups, names }

/-- A match with the place where it begins, the one where it ends, and its groups. -/
structure Found where
  start : Nat
  stop : Nat
  notes : Notes

namespace Found

def ofNotes? (notes : Notes) : Option Found := do
  return ⟨← notes.lookup 0, ← notes.lookup 1, notes⟩

/-- The text of a group, empty if the group took no part. -/
def group (found : Found) (text : Array Char) (number : Nat) : List Char :=
  match found.notes.lookup (2 * number), found.notes.lookup (2 * number + 1) with
  | some start, some stop => (text.extract start stop).toList
  | _, _ => []

end Found

variable (pattern : Pattern)

def findFrom? (text : Array Char) (place : Nat) : Option Found :=
  if place ≤ text.size then
    Program.search? pattern.program pattern.first text (text.size - place) place >>= Found.ofNotes?
  else
    none

/-- The next match, where an empty one at the end of the last does not count. -/
def next? (text : Array Char) (last : Option Nat) (place : Nat) : Option Found :=
  match pattern.findFrom? text place with
  | none => none
  | some found =>
    if found.start = found.stop ∧ last = some found.stop then pattern.findFrom? text (place + 1)
    else some found

def matchesFrom (text : Array Char) : Nat → Option Nat → Nat → List Found
  | 0, _, _ => []
  | fuel + 1, last, place =>
    match pattern.next? text last place with
    | none => []
    | some found => found :: matchesFrom text fuel (some found.stop) found.stop

def allMatches (text : Array Char) : List Found :=
  pattern.matchesFrom text (2 * text.size + 2) none 0

def expand (text : Array Char) (found : Found) : ReplacementPart → List Char
  | .text c => [c]
  | .numbered number => found.group text number
  | .named name =>
    match pattern.names.lookup name with
    | some number => found.group text number
    | none => []

def replaceFrom (text : Array Char) (parts : List ReplacementPart) :
    Nat → List Found → List Char
  | place, [] => (text.extract place text.size).toList
  | place, found :: more =>
    (text.extract place found.start).toList ++ parts.flatMap (pattern.expand text found) ++
      replaceFrom text parts found.stop more

/-- The text with all matches replaced, if there are any. -/
def replaceAll? (replacement text : String) : Option String :=
  let characters := text.toList.toArray
  match pattern.allMatches characters with
  | [] => none
  | found =>
    some (String.ofList
      (pattern.replaceFrom characters (replacementParts replacement) 0 found))

end Pattern

end AsciiMath
