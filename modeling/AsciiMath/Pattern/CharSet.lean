import AsciiMath.Text.Blank
import AsciiMath.Text.CaseClass
import AsciiMath.Text.Word

/-!
# Character sets

The sets of characters that a pattern can ask for. A set closed under case has a character as soon
as it has one that differs in case only.
-/

namespace AsciiMath

inductive CharSet where
  | ranges (bounds : List (Char × Char))
  | blank
  | digit
  | word
  | complement (set : CharSet)
  | union (first second : CharSet)
  | intersection (first second : CharSet)
  | difference (first second : CharSet)
  | symmetricDifference (first second : CharSet)
  | anyCase (set : CharSet)
  /-- Closed under case among the letters of ASCII only. -/
  | asciiAnyCase (set : CharSet)
deriving Repr

namespace CharSet

def single (c : Char) : CharSet := .ranges [(c, c)]

def none : CharSet := .ranges []

def all : CharSet := .complement none

def ofChars (characters : List Char) : CharSet := .ranges (characters.map fun c => (c, c))

def contains : CharSet → Char → Bool
  | .ranges bounds, c => bounds.any fun (low, high) => low ≤ c && c ≤ high
  | .blank, c => Text.isBlank c
  | .digit, c => Text.isDigit c
  | .word, c => Text.isWordChar c
  | .complement set, c => !set.contains c
  | .union first second, c => first.contains c || second.contains c
  | .intersection first second, c => first.contains c && second.contains c
  | .difference first second, c => first.contains c && !second.contains c
  | .symmetricDifference first second, c => first.contains c != second.contains c
  | .anyCase set, c => (Text.caseClass c).any fun d => set.contains d
  | .asciiAnyCase set, c => set.contains c || set.contains c.toLower || set.contains c.toUpper

def asciiDigit : CharSet := .ranges [('0', '9')]

def asciiBlank : CharSet := ofChars [' ', '\t', '\n', '\x0b', '\x0c', '\r']

def asciiWord : CharSet := .ranges [('0', '9'), ('A', 'Z'), ('_', '_'), ('a', 'z')]

/-- The sets of ASCII characters that have a name in brackets and colons. -/
def asciiNamed : List (String × CharSet) :=
  [("alnum", .ranges [('0', '9'), ('A', 'Z'), ('a', 'z')]),
    ("alpha", .ranges [('A', 'Z'), ('a', 'z')]),
    ("ascii", .ranges [('\x00', '\x7f')]),
    ("blank", ofChars ['\t', ' ']),
    ("cntrl", .ranges [('\x00', '\x1f'), ('\x7f', '\x7f')]),
    ("digit", asciiDigit),
    ("graph", .ranges [('!', '~')]),
    ("lower", .ranges [('a', 'z')]),
    ("print", .ranges [(' ', '~')]),
    ("punct", .ranges [('!', '/'), (':', '@'), ('[', '\x60'), ('\x7b', '~')]),
    ("space", asciiBlank),
    ("upper", .ranges [('A', 'Z')]),
    ("word", asciiWord),
    ("xdigit", .ranges [('0', '9'), ('A', 'F'), ('a', 'f')])]

end CharSet

end AsciiMath
