import AsciiMath.Text.Bytes

/-!
# Cutting a text by byte counts

A byte count may stand anywhere in a text, but the text can be cut only where a character ends. That
is told by the byte behind the cut, which must not be one that continues a character.
-/

namespace AsciiMath.Text

def isContinuation (byte : UInt8) : Bool := 0x80 ≤ byte && byte < 0xc0

/-- The text may be cut at the byte count. -/
def isBoundary (count : Nat) (text : List Char) : Bool :=
  count == 0 || match (text.flatMap String.utf8EncodeChar)[count]? with
    | some byte => !isContinuation byte
    | none => count == byteLength text

/-- The text between two byte counts. -/
def slice? (start stop : Nat) (text : List Char) : Option (List Char) := do
  let (front, _) ← splitBytes? stop text
  let (_, inside) ← splitBytes? start front
  return inside

/-- The bytes before the first character of a kind. -/
def bytesBefore? (p : Char → Bool) : List Char → Option Nat
  | [] => none
  | c :: cs => if p c then some 0 else (bytesBefore? p cs).map (c.utf8Size + ·)

/-- All bytes are counted if there is no such character. -/
def bytesUpTo (p : Char → Bool) (text : List Char) : Nat :=
  (bytesBefore? p text).getD (byteLength text)

end AsciiMath.Text
