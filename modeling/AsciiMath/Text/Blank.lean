import AsciiMath.Text.CharRange

/-!
# Blank characters

The characters with the property `White_Space`: the controls from tab to carriage return, the
space, and the spaces and separators beyond ASCII.
-/

namespace AsciiMath.Text

def blankRanges : List (Nat × Nat) :=
  [(0x9, 0xd), (0x20, 0x20), (0x85, 0x85), (0xa0, 0xa0), (0x1680, 0x1680), (0x2000, 0x200a),
    (0x2028, 0x2029), (0x202f, 0x202f), (0x205f, 0x205f), (0x3000, 0x3000)]

def isBlank (c : Char) : Bool := inRanges blankRanges c.toNat

/-- Blank, but not the end of a line. -/
def isInlineBlank (c : Char) : Bool := isBlank c && c != '\n'

end AsciiMath.Text
