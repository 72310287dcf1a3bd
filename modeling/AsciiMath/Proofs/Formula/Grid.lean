import AsciiMath.Formula.Grid
import Mathlib.Data.List.Range

/-!
# Rows and rules of a grid

The pieces of a grid make at least one row unless there are none of them, and a rule that runs
behind a cell never lies beyond the row of that cell. So every grid is a matrix, with its rules in
ascending order between the first boundary behind a column and the last.
-/

namespace AsciiMath

namespace Matrix

variable {α : Type}

theorem length_le_widest {rows : List (List α)} {row : List α} (h : row ∈ rows) :
    row.length ≤ widest rows := by
  induction rows with
  | nil => simp at h
  | cons first rows ih =>
    simp only [widest, List.map_cons, List.foldr_cons]
    rcases List.mem_cons.1 h with rfl | h
    · exact Nat.le_max_left _ _
    · exact (ih h).trans (Nat.le_max_right _ _)

theorem widest_le_widest_cons (row : List α) (rows : List (List α)) :
    widest rows ≤ widest (row :: rows) := Nat.le_max_right _ _

theorem ofRows?_eq_some {left right : String} {rows : List (List α)} {alignment : Alignment}
    {dividers : List Nat} {matrix : Matrix α}
    (h : ofRows? left rows right alignment dividers = some matrix) :
    matrix = ⟨left, rows, right, alignment,
      (List.range (widest rows + 1)).filter (· ∈ dividers)⟩ := by
  rw [ofRows?] at h
  split at h
  · exact (Option.some.inj h).symm
  · simp at h

/-- A matrix with a row, whose rules run between two boundaries behind a column. -/
structure Ruled (matrix : Matrix α) : Prop where
  rows : matrix.rows ≠ []
  ascending : matrix.dividers.Pairwise (· < ·)
  bounds : ∀ divider ∈ matrix.dividers, 1 ≤ divider ∧ divider ≤ matrix.columnCount

end Matrix

namespace Grid

theorem endRow_eq_nil {row cell : List Formula} : endRow row cell = [] ↔ row = [] ∧ cell = [] := by
  rw [endRow]
  split <;> simp_all

theorem length_le_endRow (row cell : List Formula) : row.length ≤ (endRow row cell).length := by
  rw [endRow]
  split <;> simp

theorem ofPieces_rows_eq_nil {row cell : List Formula} {pieces : List GridPiece} :
    (ofPieces row cell pieces).rows = [] ↔ row = [] ∧ cell = [] ∧ pieces = [] := by
  induction pieces generalizing row cell with
  | nil => simp [ofPieces, endRow_eq_nil]
  | cons piece pieces ih => cases piece <;> simp [ofPieces, ih]

theorem length_le_widest_ofPieces (row cell : List Formula) (pieces : List GridPiece) :
    row.length ≤ Matrix.widest (ofPieces row cell pieces).rows := by
  induction pieces generalizing row cell with
  | nil =>
    simp only [ofPieces]
    split
    · next empty =>
      obtain ⟨rfl, -⟩ := endRow_eq_nil.1 (List.isEmpty_iff.1 empty)
      exact Nat.zero_le _
    · exact (length_le_endRow row cell).trans (Matrix.length_le_widest (by simp))
  | cons piece pieces ih =>
    cases piece with
    | formula formula => exact ih row (cell ++ [formula])
    | cellEnd | rule =>
      calc
        row.length ≤ (row ++ [Formula.ofList cell]).length := by simp
        _ ≤ Matrix.widest (ofPieces (row ++ [.ofList cell]) [] pieces).rows := ih _ []
    | rowEnd =>
      calc
        row.length ≤ (endRow row cell).length := length_le_endRow row cell
        _ ≤ Matrix.widest (ofPieces row cell (.rowEnd :: pieces)).rows :=
          Matrix.length_le_widest (by simp [ofPieces])

/-- A rule runs behind a cell of its row. -/
theorem ofPieces_rules (row cell : List Formula) (pieces : List GridPiece) :
    ∀ rule ∈ (ofPieces row cell pieces).rules,
      1 ≤ rule ∧ rule ≤ Matrix.widest (ofPieces row cell pieces).rows := by
  induction pieces generalizing row cell with
  | nil => simp [ofPieces]
  | cons piece pieces ih =>
    cases piece with
    | formula formula => exact ih row (cell ++ [formula])
    | cellEnd => exact ih (row ++ [.ofList cell]) []
    | rule =>
      intro rule hrule
      rcases List.mem_cons.1 hrule with rfl | hrule
      · exact ⟨by simp, length_le_widest_ofPieces (row ++ [.ofList cell]) [] pieces⟩
      · exact ih _ _ rule hrule
    | rowEnd =>
      intro rule hrule
      obtain ⟨least, most⟩ := ih [] [] rule hrule
      exact ⟨least, most.trans (Matrix.widest_le_widest_cons _ _)⟩

/-- Every grid is a matrix. -/
theorem toMatrix_ofPieces_ne_none {row cell : List Formula} {pieces : List GridPiece}
    {left right : String} {alignment : Alignment} :
    (ofPieces row cell pieces).toMatrix left right alignment ≠ none := by
  have fits : (ofPieces row cell pieces).rules.all
      (· ≤ Matrix.widest (ofPieces row cell pieces).rows) := by
    rw [List.all_eq_true]
    intro rule hrule
    exact decide_eq_true (ofPieces_rules row cell pieces rule hrule).2
  rw [toMatrix, Matrix.ofRows?, if_pos fits]
  exact Option.some_ne_none _

theorem ruled_of_toMatrix {row cell : List Formula} {pieces : List GridPiece}
    {left right : String} {alignment : Alignment} {matrix : Matrix Formula}
    (begun : row ≠ [] ∨ cell ≠ [] ∨ pieces ≠ [])
    (h : (ofPieces row cell pieces).toMatrix left right alignment = some matrix) :
    matrix.Ruled := by
  rw [Matrix.ofRows?_eq_some h]
  refine ⟨?_, List.pairwise_lt_range.filter _, ?_⟩
  · intro empty
    obtain ⟨rfl, rfl, rfl⟩ := ofPieces_rows_eq_nil.1 empty
    simp at begun
  · intro divider hdivider
    have hrule := of_decide_eq_true (List.mem_filter.1 hdivider).2
    exact ofPieces_rules row cell pieces divider hrule

end Grid

end AsciiMath
