/-!
# Text inside TeX

Characters with a meaning in TeX are escaped where a text is set as text.
-/

namespace AsciiMath.Text

def texChar : Char → String
  | '\\' => "\\textbackslash\x7b\x7d"
  | '~' => "\\textasciitilde\x7b\x7d"
  | '^' => "\\textasciicircum\x7b\x7d"
  | c => if c ∈ ['\x7b', '\x7d', '$', '&', '#', '%', '_'] then "\\" ++ c.toString else c.toString

def texEscaped (text : String) : String := String.join (text.toList.map texChar)

/-- TeX that sets a text, whatever its characters. -/
def texText (text : String) : String := "\\text\x7b" ++ texEscaped text ++ "\x7d"

end AsciiMath.Text
