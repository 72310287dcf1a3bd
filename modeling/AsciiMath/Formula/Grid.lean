import AsciiMath.Formula.Basic

/-!
# Grids

The contents of a matrix come as formulas with marks between them, where cells and rows end. The
formulas of a cell become one formula. An empty cell at the end of a row is dropped, and so is a row
without cells at the end of the matrix.
-/

namespace AsciiMath

inductive GridPiece where
  | formula (formula : Formula)
  | cellEnd
  /-- The cell ends and a vertical rule runs behind it. -/
  | rule
  | rowEnd
deriving Repr

structure Grid where
  rows : List (List Formula)
  /-- For every rule, how many cells of its row stand before it. -/
  rules : List Nat
deriving Repr

namespace Grid

def endRow (row cell : List Formula) : List Formula :=
  if cell.isEmpty then row else row ++ [.ofList cell]

/-- The grid whose first row and first cell have begun. -/
def ofPieces (row cell : List Formula) : List GridPiece → Grid
  | [] =>
    let last := endRow row cell
    ⟨if last.isEmpty then [] else [last], []⟩
  | .formula formula :: pieces => ofPieces row (cell ++ [formula]) pieces
  | .cellEnd :: pieces => ofPieces (row ++ [.ofList cell]) [] pieces
  | .rule :: pieces =>
    let row := row ++ [.ofList cell]
    let grid := ofPieces row [] pieces
    { grid with rules := row.length :: grid.rules }
  | .rowEnd :: pieces =>
    let grid := ofPieces [] [] pieces
    { grid with rows := endRow row cell :: grid.rows }

def toMatrix (grid : Grid) (left right : String) (alignment : Alignment) :
    Option (Matrix Formula) :=
  Matrix.ofRows? left grid.rows right alignment grid.rules

end Grid

end AsciiMath
