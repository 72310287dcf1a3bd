import AsciiMath.Formula.Basic
import AsciiMath.Formula.Template
import AsciiMath.Token.Basic

/-!
# The TeX of a formula

Neighbours are written with one space between them, and those that write nothing leave no space.
A formula with an alignment point or a row break among its own children is set in an aligned
environment.
-/

namespace AsciiMath.Formula

def joinShown (parts : List String) : String := " ".intercalate (parts.filter (· != ""))

def isAlignPoint : Formula → Bool
  | .leaf template _ => template == "&" || template == rowBreak
  | _ => false

def aligned (body : String) : String :=
  "\\begin\x7baligned\x7d " ++ body ++ " \\end\x7baligned\x7d"

def arrayOf (left spec : String) (rows : List (List String)) (right : String) : String :=
  left ++ " \\begin\x7barray\x7d\x7b" ++ spec ++ "\x7d " ++
    (" " ++ rowBreak ++ " ").intercalate (rows.map (" & ".intercalate ·)) ++
    " \\end\x7barray\x7d " ++ right

mutual

def tex : Formula → String
  | .leaf template _ => template
  | .flat children => joinShown (texOfList children)
  | .unary template argument => Template.apply template [tex argument]
  | .binary template first second => Template.apply template [tex first, tex second]
  | .matrix grid => arrayOf grid.left grid.columnSpec (texOfRows grid.rows) grid.right
  | .root children =>
    let body := joinShown (texOfList children)
    if children.any isAlignPoint then aligned body else body
termination_by structural formula => formula

def texOfList : List Formula → List String
  | [] => []
  | child :: children => tex child :: texOfList children
termination_by structural children => children

def texOfRows : List (List Formula) → List (List String)
  | [] => []
  | row :: rows => texOfList row :: texOfRows rows
termination_by structural rows => rows

end

@[simp] theorem texOfList_eq_map (children : List Formula) :
    texOfList children = children.map tex := by
  induction children with
  | nil => rfl
  | cons child children ih => simp [texOfList, ih]

@[simp] theorem texOfRows_eq_map (rows : List (List Formula)) :
    texOfRows rows = rows.map (·.map tex) := by
  induction rows with
  | nil => rfl
  | cons row rows ih => simp [texOfRows, ih]

end AsciiMath.Formula
