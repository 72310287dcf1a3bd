/-!
# Templates

A template has places for arguments, written as a dollar sign and the argument's number. All places
are filled at once: what an argument brings in is not looked at again. A dollar sign that marks no
place, or the place of an argument that is not given, stands for itself.
-/

namespace AsciiMath.Template

/-- The argument whose place the character after a dollar sign names. -/
def argument? {α : Type} (arguments : List α) (digit : Char) : Option α :=
  if digit = '1' then arguments[0]?
  else if digit = '2' then arguments[1]?
  else none

def fill (arguments : List (List Char)) : List Char → List Char
  | [] => []
  | [c] => [c]
  | c :: d :: template =>
    if c = '$' then
      match argument? arguments d with
      | some argument => argument ++ fill arguments template
      | none => c :: fill arguments (d :: template)
    else
      c :: fill arguments (d :: template)

/-- The template with its places filled. -/
def apply (template : String) (arguments : List String) : String :=
  String.ofList (fill (arguments.map String.toList) template.toList)

end AsciiMath.Template
