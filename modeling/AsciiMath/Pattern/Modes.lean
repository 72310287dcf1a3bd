import AsciiMath.Pattern.Expr

/-!
# Modes of a pattern

Letters in a group's head turn modes on and off: whether case counts, whether lines have ends of
their own, what a dot takes, whether blanks and comments are skipped. A mode holds to the end of the
group it is set in.
-/

namespace AsciiMath.Pattern

structure Modes where
  ignoreCase : Bool
  multiLine : Bool
  dotTakesAll : Bool
  swapLazy : Bool
  unicode : Bool
  anyLineEnd : Bool
  /-- Blanks in the pattern are skipped, and so is the rest of a line from a number sign on. -/
  spaced : Bool
deriving DecidableEq, Repr

namespace Modes

def start : Modes := ⟨false, false, false, false, true, false, false⟩

def set? (modes : Modes) (letter : Char) (on : Bool) : Option Modes :=
  match letter with
  | 'i' => some { modes with ignoreCase := on }
  | 'm' => some { modes with multiLine := on }
  | 's' => some { modes with dotTakesAll := on }
  | 'U' => some { modes with swapLazy := on }
  | 'u' => some { modes with unicode := on }
  | 'R' => some { modes with anyLineEnd := on }
  | 'x' => some { modes with spaced := on }
  | _ => none

def skipSpaced : Bool → List Char → List Char
  | _, [] => []
  | true, c :: cs => skipSpaced (c != '\n') cs
  | false, c :: cs =>
    if Text.isBlank c then skipSpaced false cs
    else if c = '#' then skipSpaced true cs
    else c :: cs

/-- The pattern from its next character that counts. -/
def skip (modes : Modes) (pattern : List Char) : List Char :=
  if modes.spaced then skipSpaced false pattern else pattern

def closeCase (modes : Modes) (set : CharSet) : CharSet :=
  if !modes.ignoreCase then set
  else if modes.unicode then .anyCase set
  else .asciiAnyCase set

/-- Outside Unicode, a set may have characters of ASCII only. -/
def admit? (modes : Modes) (set : CharSet) : Option CharSet :=
  if modes.unicode || !set.contains '\x80' then some set else none

def word (modes : Modes) : CharSet := if modes.unicode then .word else .asciiWord

def blank (modes : Modes) : CharSet := if modes.unicode then .blank else .asciiBlank

def digit (modes : Modes) : CharSet := if modes.unicode then .digit else .asciiDigit

def dot? (modes : Modes) : Option CharSet :=
  modes.admit? <|
    if modes.dotTakesAll then .all
    else if modes.anyLineEnd then .complement (.ofChars ['\n', '\r'])
    else .complement (.single '\n')

def startLook (modes : Modes) : Look :=
  if !modes.multiLine then .textStart
  else if modes.anyLineEnd then .anyLineStart
  else .lineStart

def endLook (modes : Modes) : Look :=
  if !modes.multiLine then .textEnd
  else if modes.anyLineEnd then .anyLineEnd
  else .lineEnd

end Modes

end AsciiMath.Pattern
