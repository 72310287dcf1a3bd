/-!
# Replacements

A replacement is text that may name groups of the match. A dollar sign is followed by a run of
letters, digits and low lines or by a name in braces, and two of them stand for one. A name that is
a number is the group of that number. A dollar sign before anything else stands for itself.
-/

namespace AsciiMath.Pattern

inductive ReplacementPart where
  | text (c : Char)
  | numbered (group : Nat)
  | named (name : String)
deriving DecidableEq, Repr

namespace ReplacementPart

/-- Digits, which a plus sign may precede, are a number. -/
def ofName (name : List Char) : ReplacementPart :=
  let digits := match name with
    | '+' :: digits => digits
    | digits => digits
  if !digits.isEmpty && digits.all Char.isDigit then
    .numbered (digits.foldl (fun value c => 10 * value + (c.toNat - '0'.toNat)) 0)
  else
    .named (String.ofList name)

def isNameChar (c : Char) : Bool := c.isAlphanum || c == '_'

/-- The name behind a dollar sign, and the text behind the name. -/
def name? : List Char → Option (List Char × List Char)
  | [] => none
  | c :: cs =>
    if c = '\x7b' then
      match cs.dropWhile (· != '\x7d') with
      | [] => none
      | _ :: after => some (cs.takeWhile (· != '\x7d'), after)
    else if isNameChar c then
      some ((c :: cs).takeWhile isNameChar, (c :: cs).dropWhile isNameChar)
    else
      none

def ofChars : Nat → List Char → List ReplacementPart
  | _, [] => []
  | 0, _ :: _ => []
  | fuel + 1, c :: cs =>
    if c = '$' then
      match cs with
      | '$' :: after => .text '$' :: ofChars fuel after
      | _ =>
        match name? cs with
        | some (name, after) => ofName name :: ofChars fuel after
        | none => .text '$' :: ofChars fuel cs
    else
      .text c :: ofChars fuel cs

end ReplacementPart

def replacementParts (replacement : String) : List ReplacementPart :=
  ReplacementPart.ofChars replacement.length replacement.toList

end AsciiMath.Pattern
