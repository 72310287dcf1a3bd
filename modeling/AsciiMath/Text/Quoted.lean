import AsciiMath.Text.Graphic

/-!
# Quoted text

Text from the input is put in quotes when a message names it. The quote in use and the backslash are
escaped, common controls have an escape of one letter, and other characters that would not show by
themselves are given by their code point in hexadecimal.
-/

namespace AsciiMath.Text

def codePointEscape (c : Char) : List Char :=
  ['\\', 'u', '\x7b'] ++ Nat.toDigits 16 c.toNat ++ ['\x7d']

/-- The quote that is not in use stands for itself. -/
def quotedChar (quote c : Char) : List Char :=
  match c with
  | '\x00' => ['\\', '0']
  | '\t' => ['\\', 't']
  | '\r' => ['\\', 'r']
  | '\n' => ['\\', 'n']
  | '\\' => ['\\', '\\']
  | c =>
    if c = quote then ['\\', c]
    else if isJoining c || isShapeless c then codePointEscape c
    else [c]

def quoteWith (quote : Char) (text : List Char) : String :=
  String.ofList (quote :: text.flatMap (quotedChar quote) ++ [quote])

def quoteString (text : String) : String := quoteWith '\x22' text.toList

def quoteChar (c : Char) : String := quoteWith '\x27' [c]

end AsciiMath.Text
