import AsciiMath.Text.Quoted
import AsciiMath.Token.Basic

/-!
# What stops a conversion

The causes for which an input has no TeX, each with the place in the input and with its message.
-/

namespace AsciiMath

/-- Brackets, operators and chained scripts may be nested this deep. -/
def maxLevels : Nat := 64

inductive ConversionError where
  /-- A symbol table offers a keyword that does not end where a character ends. -/
  | stalled (position : Position) (budget : Nat)
  | unusedKeyword (value : String) (position : Position)
  | nestingTooDeep (position : Position)
  | ruleBeyondRow
deriving DecidableEq, Repr

def ConversionError.message : ConversionError → String
  | .stalled position budget =>
    "tokenizer made no progress at " ++ position.toText ++ " within " ++ budget.repr ++ " attempts"
  | .unusedKeyword value position =>
    "no parse rule for token " ++ Text.quoteString value ++ " at " ++ position.toText
  | .nestingTooDeep position =>
    "input nests deeper than " ++ maxLevels.repr ++ " levels at " ++ position.toText
  | .ruleBeyondRow => "divider beyond the widest row"

end AsciiMath
