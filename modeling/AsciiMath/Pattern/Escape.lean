import AsciiMath.Pattern.Modes

/-!
# Escapes in patterns

A backslash takes away the meaning of a character, or gives one to a letter: a control, a code point
in hexadecimal, a set of characters, a condition on the place. An escape that means nothing is an
error.
-/

namespace AsciiMath.Pattern

inductive Atom where
  | literal (c : Char)
  | set (set : CharSet)
  | look (look : Look)
deriving Repr

def hexValue? (c : Char) : Option Nat :=
  if c.isDigit then some (c.toNat - '0'.toNat)
  else if 'a' ≤ c ∧ c ≤ 'f' then some (c.toNat - 'a'.toNat + 10)
  else if 'A' ≤ c ∧ c ≤ 'F' then some (c.toNat - 'A'.toNat + 10)
  else none

def charOfCode? (code : Nat) : Option Char :=
  if h : code.isValidChar then some (Char.ofNatAux code h) else none

/-- A number of the given count of hexadecimal digits, and the pattern behind it. -/
def readHexDigits (modes : Modes) : Nat → Nat → List Char → Option (Nat × List Char)
  | 0, code, pattern => some (code, pattern)
  | count + 1, code, pattern =>
    match modes.skip pattern with
    | [] => none
    | c :: cs => do readHexDigits modes count (16 * code + (← hexValue? c)) cs

/-- The digits up to a closing brace. -/
def readHexBraced (modes : Modes) : Nat → Option Nat → List Char → Option (Nat × List Char)
  | 0, _, _ => none
  | fuel + 1, code?, pattern =>
    match modes.skip pattern with
    | [] => none
    | '\x7d' :: cs => code?.map (·, cs)
    | c :: cs => do readHexBraced modes fuel (some (16 * code?.getD 0 + (← hexValue? c))) cs

/-- In Unicode every code point is a character; outside it two digits stand for a byte of ASCII. -/
def readHex (modes : Modes) (count : Nat) (pattern : List Char) : Option (Atom × List Char) := do
  let (code, after) ← match modes.skip pattern with
    | '\x7b' :: pattern => readHexBraced modes (pattern.length + 1) none pattern
    | pattern => do
      let (code, after) ← readHexDigits modes count 0 pattern
      if count = 2 && !modes.unicode && 0x80 ≤ code then none
      some (code, after)
  return (.literal (← charOfCode? code), modes.skip after)

def isMeta (c : Char) : Bool :=
  c ∈ ['\\', '.', '+', '*', '?', '(', ')', '|', '[', ']', '\x7b', '\x7d', '^', '$', '#', '&', '-',
    '~']

/-- A character of ASCII other than letters, digits and angles may be escaped without need. -/
def isEscapable (c : Char) : Bool :=
  isMeta c || (c.toNat < 0x80 && !c.isAlphanum && c != '<' && c != '>')

def edges (letters : CharSet) : List (String × Look) :=
  [("start", .wordStart letters), ("end", .wordEnd letters), ("start-half", .wordStartHalf letters),
    ("end-half", .wordEndHalf letters)]

/-- The letters of a name in braces, with the pattern behind the closing one. -/
def readEdgeName (modes : Modes) : Nat → List Char → Option (List Char × List Char)
  | 0, _ => none
  | fuel + 1, pattern =>
    match modes.skip pattern with
    | [] => none
    | '\x7d' :: cs => some ([], cs)
    | c :: cs =>
      if c.isAlpha || c == '-' then
        (readEdgeName modes fuel cs).map fun (name, after) => (c :: name, after)
      else
        none

/-- An edge of a word. A brace that is not followed by a letter begins a count. -/
def readEdge (modes : Modes) (pattern : List Char) : Option (Atom × List Char) :=
  match pattern with
  | '\x7b' :: cs =>
    match modes.skip cs with
    | [] => none
    | c :: _ =>
      if c.isAlpha || c == '-' then do
        let (name, after) ← readEdgeName modes (cs.length + 1) cs
        return (.look (← (edges modes.word).lookup (String.ofList name)), after)
      else
        some (.look (.wordEdge modes.word), pattern)
  | _ => some (.look (.wordEdge modes.word), pattern)

/-- The escape behind a backslash. -/
def readEscape (modes : Modes) : List Char → Option (Atom × List Char)
  | [] => none
  | c :: cs =>
    let set (set : CharSet) : Option (Atom × List Char) := do
      return (.set (← modes.admit? set), cs)
    match c with
    | 'x' => readHex modes 2 cs
    | 'u' => readHex modes 4 cs
    | 'U' => readHex modes 8 cs
    | 'd' => set modes.digit
    | 's' => set modes.blank
    | 'w' => set modes.word
    | 'D' => set (.complement modes.digit)
    | 'S' => set (.complement modes.blank)
    | 'W' => set (.complement modes.word)
    | 'a' => some (.literal '\x07', cs)
    | 'f' => some (.literal '\x0c', cs)
    | 't' => some (.literal '\t', cs)
    | 'n' => some (.literal '\n', cs)
    | 'r' => some (.literal '\r', cs)
    | 'v' => some (.literal '\x0b', cs)
    | 'A' => some (.look .textStart, cs)
    | 'z' => some (.look .textEnd, cs)
    | 'b' => readEdge modes cs
    | 'B' => some (.look (.notWordEdge modes.word), cs)
    | '<' => some (.look (.wordStart modes.word), cs)
    | '>' => some (.look (.wordEnd modes.word), cs)
    | c => if isEscapable c then some (.literal c, cs) else none

end AsciiMath.Pattern
