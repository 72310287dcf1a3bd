import AsciiMath.Formula.Tex
import AsciiMath.Formula.Grid

/-!
# The outline of a formula

What is left of a formula without its TeX: its shape, the sources of its leaves, and the columns and
rules of its matrices. Brackets are stripped by the outline alone, and so are the cells of a grid
put together.
-/

namespace AsciiMath.Formula

mutual

/-- The formula without its templates and without the markup around its matrices. -/
def outline : Formula → Formula
  | .leaf _ source => .leaf "" source
  | .flat children => .flat (outlineOfList children)
  | .unary _ argument => .unary "" (outline argument)
  | .binary _ first second => .binary "" (outline first) (outline second)
  | .matrix grid => .matrix { grid with left := "", rows := outlineOfRows grid.rows, right := "" }
  | .root children => .root (outlineOfList children)
termination_by structural formula => formula

def outlineOfList : List Formula → List Formula
  | [] => []
  | child :: children => outline child :: outlineOfList children
termination_by structural children => children

def outlineOfRows : List (List Formula) → List (List Formula)
  | [] => []
  | row :: rows => outlineOfList row :: outlineOfRows rows
termination_by structural rows => rows

end

theorem outlineOfList_eq_map (children : List Formula) :
    outlineOfList children = children.map outline := by
  induction children with
  | nil => rfl
  | cons child children ih => rw [outlineOfList, ih, List.map_cons]

theorem outlineOfRows_eq_map (rows : List (List Formula)) :
    outlineOfRows rows = rows.map (·.map outline) := by
  induction rows with
  | nil => rfl
  | cons row rows ih => rw [outlineOfRows, ih, outlineOfList_eq_map, List.map_cons]

@[simp] theorem outline_leaf (template source : String) :
    outline (.leaf template source) = .leaf "" source := rfl

@[simp] theorem outline_flat (children : List Formula) :
    outline (.flat children) = .flat (children.map outline) := by
  rw [outline, outlineOfList_eq_map]

@[simp] theorem outline_unary (template : String) (argument : Formula) :
    outline (.unary template argument) = .unary "" argument.outline := rfl

@[simp] theorem outline_binary (template : String) (first second : Formula) :
    outline (.binary template first second) = .binary "" first.outline second.outline := rfl

@[simp] theorem outline_root (children : List Formula) :
    outline (.root children) = .root (children.map outline) := by
  rw [outline, outlineOfList_eq_map]

/-- The columns and rules of a matrix, with the outlines of its cells. -/
def outlineOfMatrix (grid : Matrix Formula) : Matrix Formula :=
  { grid with left := "", rows := grid.rows.map (·.map outline), right := "" }

@[simp] theorem outline_matrix (grid : Matrix Formula) :
    outline (.matrix grid) = .matrix (outlineOfMatrix grid) := by
  rw [outline, outlineOfRows_eq_map, outlineOfMatrix]

@[simp] theorem isLeafFrom_outline (sources : List String) (formula : Formula) :
    formula.outline.isLeafFrom sources = formula.isLeafFrom sources := by
  cases formula <;> rfl

theorem groupBody?_outline (formula : Formula) :
    formula.outline.groupBody? = formula.groupBody?.map (List.map outline) := by
  cases formula with
  | flat children =>
    cases children with
    | nil => rfl
    | cons first rest =>
      have last : (rest.map outline).getLast?.any (isLeafFrom groupClosers) =
          rest.getLast?.any (isLeafFrom groupClosers) := by
        rw [List.getLast?_map, Option.any_map]
        exact congrArg (rest.getLast?.any ·) (funext (isLeafFrom_outline groupClosers))
      rw [outline_flat, List.map_cons, groupBody?, groupBody?, isLeafFrom_outline, last]
      split
      · rw [← List.map_dropLast, Option.map_some]
      · rfl
  | _ => rfl

theorem outline_ofList (children : List Formula) :
    outline (ofList children) = ofList (children.map outline) := by
  match children with
  | [] => rfl
  | [_] => rfl
  | first :: second :: more => exact outline_flat (first :: second :: more)

theorem outline_stripBrackets (formula : Formula) :
    outline formula.stripBrackets = formula.outline.stripBrackets := by
  rw [stripBrackets, stripBrackets, groupBody?_outline]
  cases formula.groupBody? with
  | none => rfl
  | some body => exact outline_ofList body

end AsciiMath.Formula

namespace AsciiMath

def GridPiece.outline : GridPiece → GridPiece
  | .formula found => .formula found.outline
  | piece => piece

namespace Grid

/-- The rules of a grid, with the outlines of its cells. -/
def outline (grid : Grid) : Grid := ⟨grid.rows.map (·.map Formula.outline), grid.rules⟩

theorem endRow_outline (row cell : List Formula) :
    (endRow row cell).map Formula.outline =
      endRow (row.map Formula.outline) (cell.map Formula.outline) := by
  rw [endRow, endRow, List.isEmpty_map]
  split
  · rfl
  · rw [List.map_append, List.map_singleton, Formula.outline_ofList]

theorem ofPieces_outline (row cell : List Formula) (pieces : List GridPiece) :
    (ofPieces row cell pieces).outline =
      ofPieces (row.map Formula.outline) (cell.map Formula.outline)
        (pieces.map GridPiece.outline) := by
  induction pieces generalizing row cell with
  | nil =>
    simp only [ofPieces, List.map_nil, ← endRow_outline, List.isEmpty_map, outline]
    split <;> rfl
  | cons piece pieces ih =>
    rw [List.map_cons]
    cases piece with
    | formula formula =>
      simp only [GridPiece.outline, ofPieces, ih, List.map_append, List.map_singleton]
    | cellEnd =>
      simp only [GridPiece.outline, ofPieces, ih, List.map_append, List.map_singleton,
        Formula.outline_ofList, List.map_nil]
    | rule =>
      have rest := ih (row ++ [.ofList cell]) []
      simp only [List.map_append, List.map_singleton, Formula.outline_ofList, List.map_nil] at rest
      simp only [GridPiece.outline, ofPieces, ← rest, outline]
      simp
    | rowEnd =>
      have rest := ih [] []
      simp only [List.map_nil] at rest
      simp only [GridPiece.outline, ofPieces, ← rest, ← endRow_outline, outline, List.map_cons]

theorem widest_outline (rows : List (List Formula)) :
    Matrix.widest (rows.map (·.map Formula.outline)) = Matrix.widest rows := by
  simp [Matrix.widest, Function.comp_def]

/-- Whether a grid is a matrix and which one depends on its outline, but for the markup. -/
theorem toMatrix_outline (grid : Grid) (left right : String) (alignment : Alignment) :
    (grid.toMatrix left right alignment).map Formula.outlineOfMatrix =
      grid.outline.toMatrix "" "" alignment := by
  rw [toMatrix, toMatrix, Matrix.ofRows?, Matrix.ofRows?, outline, widest_outline]
  split <;> rfl

end Grid

end AsciiMath
