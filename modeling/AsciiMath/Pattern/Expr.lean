import AsciiMath.Pattern.CharSet

/-!
# Pattern expressions

A pattern is built from sets of one character and conditions on a place by sequence, choice,
repetition and groups. Of the ways to match, a choice prefers its first side, and a repetition goes
on as long as it can, or stops as soon as it can if it is lazy.
-/

namespace AsciiMath.Pattern

/-- A condition on the characters before and behind a place. -/
inductive Look where
  | textStart
  | textEnd
  | lineStart
  | lineEnd
  /-- Lines end at a return, a line feed, or both together. -/
  | anyLineStart
  | anyLineEnd
  | wordEdge (letters : CharSet)
  | notWordEdge (letters : CharSet)
  | wordStart (letters : CharSet)
  | wordEnd (letters : CharSet)
  | wordStartHalf (letters : CharSet)
  | wordEndHalf (letters : CharSet)
deriving Repr

/-- Whether the condition holds between two characters, one of which is missing at either end. -/
def Look.holds (before behind : Option Char) : Look → Bool
  | .textStart => before.isNone
  | .textEnd => behind.isNone
  | .lineStart => before.all (· == '\n')
  | .lineEnd => behind.all (· == '\n')
  | .anyLineStart => before.all (· == '\n') || (before == some '\r' && behind != some '\n')
  | .anyLineEnd => behind.all (· == '\r') || (behind == some '\n' && before != some '\r')
  | .wordEdge letters => before.any letters.contains != behind.any letters.contains
  | .notWordEdge letters => before.any letters.contains == behind.any letters.contains
  | .wordStart letters => !before.any letters.contains && behind.any letters.contains
  | .wordEnd letters => before.any letters.contains && !behind.any letters.contains
  | .wordStartHalf letters => !before.any letters.contains
  | .wordEndHalf letters => !behind.any letters.contains

inductive Expr where
  | empty
  | one (set : CharSet)
  | look (look : Look)
  | sequence (first second : Expr)
  | choice (first second : Expr)
  /-- A group with a number is kept track of. -/
  | group (number : Option Nat) (body : Expr)
  | repeated (body : Expr) (least : Nat) (most : Option Nat) (lazy : Bool)
deriving Repr

namespace Expr

/-- The least number of characters that match. -/
def leastLength : Expr → Nat
  | .empty => 0
  | .one _ => 1
  | .look _ => 0
  | .sequence first second => first.leastLength + second.leastLength
  | .choice first second => min first.leastLength second.leastLength
  | .group _ body => body.leastLength
  | .repeated body least _ _ => least * body.leastLength

/-- Nothing but an empty text matches. -/
def isBlankOnly : Expr → Bool
  | .empty => true
  | .one _ => false
  | .look _ => true
  | .sequence first second => first.isBlankOnly && second.isBlankOnly
  | .choice first second => first.isBlankOnly && second.isBlankOnly
  | .group _ body => body.isBlankOnly
  | .repeated body _ most _ => most == some 0 || body.isBlankOnly

def isSequence : Expr → Bool
  | .sequence _ _ => true
  | _ => false

def isChoice : Expr → Bool
  | .choice _ _ => true
  | _ => false

/-- How deep groups, repetitions, choices and sequences are nested; a chain counts once. -/
def depth : Expr → Nat
  | .empty | .one _ | .look _ => 0
  | .sequence first second =>
    max (first.depth + 1) (if second.isSequence then second.depth else second.depth + 1)
  | .choice first second =>
    max (first.depth + 1) (if second.isChoice then second.depth else second.depth + 1)
  | .group _ body => body.depth + 1
  | .repeated body _ _ _ => body.depth + 1

def ofList : List Expr → Expr
  | [] => .empty
  | [expr] => expr
  | expr :: exprs => .sequence expr (ofList exprs)

def ofChoices : List Expr → Expr
  | [] => .empty
  | [expr] => expr
  | expr :: exprs => .choice expr (ofChoices exprs)

end Expr

end AsciiMath.Pattern
