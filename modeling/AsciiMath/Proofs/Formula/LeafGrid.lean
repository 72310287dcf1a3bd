import AsciiMath.Proofs.Formula.Rows

/-!
# Grids of leaves with rules

Cells of leaves are joined by separators and bars to rows, and rows by row separators to a grid. A
bar behind a cell is always a rule, never a relation or one of a pair, so that the grid is read as
it was put together, and it has a rule wherever one of its rows has a bar.
-/

namespace AsciiMath

/-- A token outside of brackets with nothing to do with what stands next to it. -/
def Token.Settled (token : Token) : Prop :=
  token.category.isLeaf ∨ token.category = .separator ∨ token.category = .bar

namespace Token.Settled

variable {token : Token} (settled : token.Settled)

include settled

theorem ne_opener : token.category ≠ .opener := by
  rintro category
  simp [Token.Settled, category, Category.isLeaf] at settled

theorem ne_closer : token.category ≠ .closer := by
  rintro category
  simp [Token.Settled, category, Category.isLeaf] at settled

theorem not_follows : ¬ token.category.follows := by
  rcases settled with leaf | category | category
  · cases category : token.category <;> simp_all [Category.isLeaf, Category.follows]
  · simp [category, Category.follows]
  · simp [category, Category.follows]

theorem takesOperand_eq_false : token.category.takesOperand = false := by
  rcases settled with leaf | category | category
  · exact Formula.takesOperand_of_isLeaf leaf
  · rw [category]; rfl
  · rw [category]; rfl

end Token.Settled

/-- The tokens of a cell, which are leaves. -/
structure LeafCell where
  leaves : List Token
  nonempty : leaves ≠ []
  isLeaf : ∀ leaf ∈ leaves, leaf.category.isLeaf

namespace LeafCell

def formulas (cell : LeafCell) : List Formula := cell.leaves.map .ofToken

def formula (cell : LeafCell) : Formula := .ofList cell.formulas

def pieces (cell : LeafCell) : List GridPiece := cell.formulas.map .formula

theorem formulas_ne_nil (cell : LeafCell) : cell.formulas ≠ [] := by
  simpa [formulas] using cell.nonempty

theorem settled (cell : LeafCell) : ∀ token ∈ cell.leaves, token.Settled :=
  fun token mem ↦ .inl (cell.isLeaf token mem)

end LeafCell

/-- What stands between two cells of a row. -/
structure Joint where
  token : Token
  joins : token.category = .separator ∧ token.isRowSeparator = false ∨
    token.category = .bar ∧ token.value = "|"

namespace Joint

def isRule (joint : Joint) : Bool := joint.token.category == .bar

def piece (joint : Joint) : GridPiece := if joint.isRule then .rule else .cellEnd

theorem settled (joint : Joint) : joint.token.Settled := by
  rcases joint.joins with ⟨category, -⟩ | ⟨category, -⟩
  · exact .inr (.inl category)
  · exact .inr (.inr category)

/-- Behind the start of a cell a joint ends the cell. -/
theorem endsCell_eq (joint : Joint) :
    Formula.endsCell true true joint.token = some joint.piece := by
  rcases joint.joins with ⟨category, same⟩ | ⟨category, value⟩
  · simp [Formula.endsCell, piece, isRule, category, same]
  · simp [Formula.endsCell, piece, isRule, category, value]

end Joint

namespace LeafRow

/-- Cells that follow in a row. -/
def tokensOf (others : List (Joint × LeafCell)) : List Token :=
  others.flatMap fun other ↦ other.1.token :: other.2.leaves

def piecesOf (others : List (Joint × LeafCell)) : List GridPiece :=
  others.flatMap fun other ↦ other.1.piece :: other.2.pieces

theorem settled_tokensOf (others : List (Joint × LeafCell)) :
    ∀ token ∈ tokensOf others, token.Settled :=
  List.forall_mem_flatMap.2 fun other _ ↦
    List.forall_mem_cons.2 ⟨other.1.settled, other.2.settled⟩

end LeafRow

structure LeafRow where
  first : LeafCell
  others : List (Joint × LeafCell)

namespace LeafRow

def tokens (row : LeafRow) : List Token := row.first.leaves ++ tokensOf row.others

def pieces (row : LeafRow) : List GridPiece := row.first.pieces ++ piecesOf row.others

def cells (row : LeafRow) : List Formula :=
  row.first.formula :: row.others.map (·.2.formula)

/-- There is a bar behind the cell with the given number, which is one for the first. -/
def RuleBehind (row : LeafRow) (number : Nat) : Prop :=
  ∃ index other, row.others[index]? = some other ∧ other.1.isRule ∧ number = index + 1

theorem settled (row : LeafRow) : ∀ token ∈ row.tokens, token.Settled :=
  List.forall_mem_append.2 ⟨row.first.settled, settled_tokensOf row.others⟩

end LeafRow

abbrev RowSeparator := {token : Token // token.isRowSeparator}

namespace LeafGrid

/-- Rows that follow in a grid. -/
def tokensOf (others : List (RowSeparator × LeafRow)) : List Token :=
  others.flatMap fun other ↦ other.1.1 :: other.2.tokens

def piecesOf (others : List (RowSeparator × LeafRow)) : List GridPiece :=
  others.flatMap fun other ↦ .rowEnd :: other.2.pieces

theorem settled_tokensOf (others : List (RowSeparator × LeafRow)) :
    ∀ token ∈ tokensOf others, token.Settled :=
  List.forall_mem_flatMap.2 fun other _ ↦ List.forall_mem_cons.2
    ⟨.inr (.inl (Token.category_of_isRowSeparator other.1.2)), other.2.settled⟩

end LeafGrid

/-- Two rows at least, with a row separator between each two. -/
structure LeafGrid where
  first : LeafRow
  others : List (RowSeparator × LeafRow)
  several : others ≠ []

namespace LeafGrid

def rows (grid : LeafGrid) : List LeafRow := grid.first :: grid.others.map (·.2)

def tokens (grid : LeafGrid) : List Token := grid.first.tokens ++ tokensOf grid.others

def pieces (grid : LeafGrid) : List GridPiece := grid.first.pieces ++ piecesOf grid.others

theorem settled (grid : LeafGrid) : ∀ token ∈ grid.tokens, token.Settled :=
  List.forall_mem_append.2 ⟨grid.first.settled, settled_tokensOf grid.others⟩

theorem exists_isRowSeparator (grid : LeafGrid) : ∃ token ∈ grid.tokens, token.isRowSeparator := by
  obtain ⟨other, others, split⟩ := List.exists_cons_of_ne_nil grid.several
  exact ⟨other.1.1, by simp [tokens, tokensOf, split], other.1.2⟩

end LeafGrid

namespace Grid

/-- The numbers of the cells with a bar behind them, where some cells stand before the first. -/
def rulesOf : Nat → List (Joint × LeafCell) → List Nat
  | _, [] => []
  | before, (joint, _) :: others =>
    if joint.isRule then (before + 1) :: rulesOf (before + 1) others
    else rulesOf (before + 1) others

theorem mem_rulesOf {before number : Nat} {others : List (Joint × LeafCell)} :
    number ∈ rulesOf before others ↔ ∃ index other, others[index]? = some other ∧
      other.1.isRule ∧ number = before + index + 1 := by
  induction others generalizing before with
  | nil => simp [rulesOf]
  | cons other others ih =>
    obtain ⟨joint, cell⟩ := other
    have here : number ∈ rulesOf before ((joint, cell) :: others) ↔
        joint.isRule ∧ number = before + 1 ∨ number ∈ rulesOf (before + 1) others := by
      rw [rulesOf]
      split <;> simp_all
    rw [here, ih]
    constructor
    · rintro (⟨rule, rfl⟩ | ⟨index, other, found, rule, rfl⟩)
      · exact ⟨0, _, rfl, rule, rfl⟩
      · exact ⟨index + 1, other, found, rule, by omega⟩
    · rintro ⟨index, other, found, rule, rfl⟩
      cases index with
      | zero =>
        obtain rfl := Option.some.inj found
        exact .inl ⟨rule, rfl⟩
      | succ index => exact .inr ⟨index, other, found, rule, by omega⟩

/-- Cells that follow in a row stand behind those before them, and their bars are its rules. -/
theorem exists_ofPieces_cells (before : List Formula) (cell : LeafCell)
    (others : List (Joint × LeafCell)) (pieces : List GridPiece) :
    ∃ row last, endRow row last = before ++ cell.formula :: others.map (·.2.formula) ∧
      ofPieces before cell.formulas (LeafRow.piecesOf others ++ pieces) =
        let rest := ofPieces row last pieces
        ⟨rest.rows, rulesOf before.length others ++ rest.rules⟩ := by
  induction others generalizing before cell with
  | nil =>
    refine ⟨before, cell.formulas, ?_, rfl⟩
    rw [endRow, if_neg (by simpa using cell.formulas_ne_nil)]
    rfl
  | cons other others ih =>
    obtain ⟨joint, next⟩ := other
    obtain ⟨row, last, ends, made⟩ := ih (before ++ [cell.formula]) next
    refine ⟨row, last, ?_, ?_⟩
    · rw [ends, List.append_assoc]
      rfl
    · have entered : ofPieces (before ++ [cell.formula]) []
          (next.pieces ++ (LeafRow.piecesOf others ++ pieces)) =
          ofPieces (before ++ [cell.formula]) next.formulas (LeafRow.piecesOf others ++ pieces) :=
        ofPieces_formulas _ [] next.formulas _
      rw [List.length_append, List.length_singleton] at made
      simp only [LeafRow.piecesOf, List.flatMap_cons, List.cons_append, List.append_assoc]
        at made entered ⊢
      rw [Joint.piece, rulesOf]
      split
      · rw [ofPieces, ← LeafCell.formula, entered, made, List.length_append, List.length_singleton]
        rfl
      · rw [ofPieces, ← LeafCell.formula, entered, made]

/-- The dividers of a matrix are the rules of its grid, each of them once. -/
theorem exists_dividers (row cell : List Formula) (pieces : List GridPiece) (left right : String)
    (alignment : Alignment) :
    ∃ dividers : List Nat, dividers.Pairwise (· < ·) ∧
      (∀ number, number ∈ dividers ↔ number ∈ (ofPieces row cell pieces).rules) ∧
      (ofPieces row cell pieces).toMatrix left right alignment =
        some ⟨left, (ofPieces row cell pieces).rows, right, alignment, dividers⟩ := by
  obtain ⟨matrix, made⟩ := Option.ne_none_iff_exists'.1
    (@toMatrix_ofPieces_ne_none row cell pieces left right alignment)
  have shape := Matrix.ofRows?_eq_some made
  refine ⟨matrix.dividers, ?_, fun number ↦ ?_, ?_⟩
  · rw [shape]
    exact List.pairwise_lt_range.filter _
  · have bound (rule : number ∈ (ofPieces row cell pieces).rules) :=
      (ofPieces_rules row cell pieces number rule).2
    rw [shape, List.mem_filter, List.mem_range, decide_eq_true_iff]
    exact ⟨And.right, fun rule ↦ ⟨Nat.lt_succ_of_le (bound rule), rule⟩⟩
  · rw [made, shape]

theorem exists_ofPieces_row (row : LeafRow) (pieces : List GridPiece) :
    ∃ before last, endRow before last = row.cells ∧
      ofPieces [] [] (row.pieces ++ pieces) =
        let rest := ofPieces before last pieces
        ⟨rest.rows, rulesOf 0 row.others ++ rest.rules⟩ := by
  obtain ⟨before, last, ends, made⟩ := exists_ofPieces_cells [] row.first row.others pieces
  refine ⟨before, last, ends, ?_⟩
  rw [LeafRow.pieces, List.append_assoc, LeafCell.pieces, ofPieces_formulas]
  exact made

/-- Rows are made with all their cells, and the numbers of the bars in them are the rules. -/
theorem ofPieces_rows (row : LeafRow) (others : List (RowSeparator × LeafRow)) :
    ofPieces [] [] (row.pieces ++ LeafGrid.piecesOf others) =
      ⟨row.cells :: others.map (·.2.cells),
        rulesOf 0 row.others ++ others.flatMap (rulesOf 0 ·.2.others)⟩ := by
  induction others generalizing row with
  | nil =>
    obtain ⟨before, last, ends, made⟩ := exists_ofPieces_row row []
    rw [LeafGrid.piecesOf, List.flatMap_nil, made, ofPieces, ends]
    rfl
  | cons other others ih =>
    obtain ⟨separator, next⟩ := other
    obtain ⟨before, last, ends, made⟩ :=
      exists_ofPieces_row row (.rowEnd :: (next.pieces ++ LeafGrid.piecesOf others))
    change ofPieces [] [] (row.pieces ++ .rowEnd :: (next.pieces ++ LeafGrid.piecesOf others)) = _
    rw [made, ofPieces, ends, ih]
    rfl

theorem ofPieces_grid (grid : LeafGrid) :
    ofPieces [] [] grid.pieces =
      ⟨grid.rows.map LeafRow.cells, grid.rows.flatMap (rulesOf 0 ·.others)⟩ := by
  rw [LeafGrid.pieces, ofPieces_rows, LeafGrid.rows, List.map_cons, List.flatMap_cons,
    List.map_map, List.flatMap_map]
  rfl

end Grid

namespace Formula

/-- The pieces of what is left of a bracket with rows. -/
def readRest (levels : Nat) (begun : Bool) (tokens : List Token) :
    Except ConversionError (List GridPiece) :=
  readPieces (read levels true) true (Placed.follow false tokens).length begun
    (Placed.follow false tokens)

section

variable {levels : Nat} {tokens : List Token} (settled : ∀ token ∈ tokens, token.Settled)

theorem readRest_mark {mark : Token} (still : mark.category.takesOperand = false) {begun : Bool}
    {piece : GridPiece} (ends : endsCell true begun mark = some piece) :
    readRest levels begun (mark :: tokens) = (piece :: ·) <$> readRest levels false tokens := by
  rw [readRest, Placed.follow, still, List.length_cons, readPieces, ends]
  rfl

include settled

theorem readRest_leaf {leaf : Token} (isLeaf : leaf.category.isLeaf) (begun : Bool) :
    readRest (levels + 1) begun (leaf :: tokens) =
      (.formula (ofToken leaf) :: ·) <$> readRest (levels + 1) true tokens := by
  have inner : endsCell true begun leaf = none := by
    cases category : leaf.category <;> simp_all [endsCell, Category.isLeaf]
  have unopened : Unopened tokens := fun next hnext ↦
    (settled next (List.mem_of_mem_head? hnext)).ne_opener
  have alone : read (levels + 1) true ⟨leaf, false⟩ (Placed.follow false tokens) =
      .ok (ofToken leaf, Placed.follow false tokens) := by
    rw [read, readAlone_follow isLeaf unopened]
    refine attachFollowers_eq_self fun next hnext ↦ ?_
    rw [head?_follow] at hnext
    obtain ⟨token, htoken, rfl⟩ := Option.map_eq_some_iff.1 hnext
    exact (settled token (List.mem_of_mem_head? htoken)).not_follows
  rw [readRest, Placed.follow, takesOperand_of_isLeaf isLeaf, List.length_cons, readPieces, inner]
  dsimp only
  rw [alone]
  rfl

theorem readRest_leaves {leaves : List Token} (isLeaf : ∀ leaf ∈ leaves, leaf.category.isLeaf)
    (begun : Bool) :
    readRest (levels + 1) begun (leaves ++ tokens) =
      ((leaves.map ofToken).map .formula ++ ·) <$>
        readRest (levels + 1) (begun || !leaves.isEmpty) tokens := by
  induction leaves generalizing begun with
  | nil => simp
  | cons leaf leaves ih =>
    obtain ⟨here, more⟩ := List.forall_mem_cons.1 isLeaf
    have rest : ∀ token ∈ leaves ++ tokens, token.Settled :=
      List.forall_mem_append.2 ⟨fun token mem ↦ .inl (more token mem), settled⟩
    rw [List.cons_append, readRest_leaf rest here, ih more, Functor.map_map]
    simp

theorem readRest_cell (cell : LeafCell) :
    readRest (levels + 1) false (cell.leaves ++ tokens) =
      (cell.pieces ++ ·) <$> readRest (levels + 1) true tokens := by
  have begun : (false || !cell.leaves.isEmpty) = true := by
    simpa [List.isEmpty_iff] using cell.nonempty
  rw [readRest_leaves settled cell.isLeaf, begun]
  rfl

theorem readRest_cells (others : List (Joint × LeafCell)) :
    readRest (levels + 1) true (LeafRow.tokensOf others ++ tokens) =
      (LeafRow.piecesOf others ++ ·) <$> readRest (levels + 1) true tokens := by
  induction others with
  | nil => exact (id_map _).symm
  | cons other others ih =>
    obtain ⟨joint, cell⟩ := other
    have rest : ∀ token ∈ LeafRow.tokensOf others ++ tokens, token.Settled :=
      List.forall_mem_append.2 ⟨LeafRow.settled_tokensOf others, settled⟩
    simp only [LeafRow.tokensOf, LeafRow.piecesOf, List.flatMap_cons, List.cons_append,
      List.append_assoc] at ih rest ⊢
    rw [readRest_mark joint.settled.takesOperand_eq_false joint.endsCell_eq,
      readRest_cell rest cell, ih, Functor.map_map, Functor.map_map]

theorem readRest_row (row : LeafRow) :
    readRest (levels + 1) false (row.tokens ++ tokens) =
      (row.pieces ++ ·) <$> readRest (levels + 1) true tokens := by
  have rest : ∀ token ∈ LeafRow.tokensOf row.others ++ tokens, token.Settled :=
    List.forall_mem_append.2 ⟨LeafRow.settled_tokensOf row.others, settled⟩
  rw [LeafRow.tokens, List.append_assoc, readRest_cell rest, readRest_cells settled,
    Functor.map_map]
  simp only [LeafRow.pieces, List.append_assoc]

end

theorem readRest_rows (levels : Nat) (others : List (RowSeparator × LeafRow)) :
    readRest (levels + 1) true (LeafGrid.tokensOf others) = .ok (LeafGrid.piecesOf others) := by
  induction others with
  | nil => rfl
  | cons other others ih =>
    obtain ⟨⟨separator, isRow⟩, row⟩ := other
    have separates : separator.category = .separator := Token.category_of_isRowSeparator isRow
    have still : separator.category.takesOperand = false := by rw [separates]; rfl
    have ends : endsCell true true separator = some .rowEnd := by simp [endsCell, separates, isRow]
    have rest := @readRest_row levels _ (LeafGrid.settled_tokensOf others) row
    simp only [LeafGrid.tokensOf, LeafGrid.piecesOf, List.flatMap_cons, List.cons_append]
      at ih rest ⊢
    rw [readRest_mark still ends, rest, ih]
    rfl

theorem readRest_grid (levels : Nat) (grid : LeafGrid) :
    readRest (levels + 1) false grid.tokens = .ok grid.pieces := by
  rw [LeafGrid.tokens, readRest_row (LeafGrid.settled_tokensOf _), readRest_rows]
  rfl

/-- A grid of leaves in brackets is a matrix of its cells. It has a rule at a boundary, once, if a
row has a bar there. -/
theorem ofTokens_leafGrid {opener closer : Token} (opens : opener.category = .opener)
    (closes : closer.category = .closer) (grid : LeafGrid) :
    ∃ dividers : List Nat, dividers.Pairwise (· < ·) ∧
      (∀ number, number ∈ dividers ↔ ∃ row ∈ grid.rows, row.RuleBehind number) ∧
      ofTokens (opener :: grid.tokens ++ [closer]) =
        .ok (.root [.matrix ⟨opener.template, grid.rows.map LeafRow.cells, closer.template,
          alignmentOf opener closer, dividers⟩]) := by
  have still (token : Token) (mem : token ∈ grid.tokens) : token.category ∉ [.opener, .closer] := by
    simp [(grid.settled token mem).ne_opener, (grid.settled token mem).ne_closer]
  obtain ⟨matched, outside⟩ := Token.matched_of_forall still
  obtain ⟨separator, mem, separates⟩ := grid.exists_isRowSeparator
  obtain ⟨dividers, ascending, rules, matrix⟩ := Grid.exists_dividers [] [] grid.pieces
    opener.template closer.template (alignmentOf opener closer)
  rw [Grid.ofPieces_grid] at rules matrix
  refine ⟨dividers, ascending, fun number ↦ ?_, ?_⟩
  · rw [rules, List.mem_flatMap]
    simp only [Grid.mem_rulesOf, Nat.zero_add, LeafRow.RuleBehind]
  · have cells : Formula.grid (read 63 true) true [] (Placed.follow false grid.tokens) =
        .ok (Grid.ofPieces [] [] grid.pieces) := by
      change Grid.ofPieces [] [] <$> readRest 63 false grid.tokens = _
      rw [readRest_grid 62 grid]
      rfl
    rw [ofTokens_bracket opens closes matched ⟨separator, outside separator mem, separates⟩, cells,
      Grid.ofPieces_grid]
    simp only [bind, Except.bind, matrix]

/-- A row of two cells, the first of which has two leaves, above a row of three. -/
def raggedGrid : LeafGrid :=
  let bar (column : Nat) : Joint := ⟨⟨"|", "|", .bar, true, none, ⟨1, column⟩⟩, .inr ⟨rfl, rfl⟩⟩
  let comma (column : Nat) : Joint :=
    ⟨⟨",", ",", .separator, true, none, ⟨1, column⟩⟩, .inl ⟨rfl, rfl⟩⟩
  let letter (c : Char) (column : Nat) : Token := .literal [c] .run ⟨1, column⟩
  let cell (c : Char) (column : Nat) : LeafCell :=
    ⟨[letter c column], by simp, by simp [letter, Token.literal, Category.isLeaf]⟩
  let first : LeafCell := ⟨[letter 'a' 2, letter 'b' 3], by simp, by decide⟩
  ⟨⟨first, [(bar 4, cell 'c' 5)]⟩,
    [(⟨⟨";", ";", .separator, true, none, ⟨1, 6⟩⟩, rfl⟩,
      ⟨cell 'd' 7, [(comma 8, cell 'e' 9), (bar 10, cell 'f' 11)]⟩)], by simp⟩

theorem ofTokens_raggedGrid : ∃ dividers : List Nat,
    (∀ number, number ∈ dividers ↔ ∃ row ∈ raggedGrid.rows, row.RuleBehind number) ∧
    dividers = [1, 2] ∧
    ofTokens (⟨"[", "\\left[", .opener, true, none, ⟨1, 1⟩⟩ :: raggedGrid.tokens ++
        [⟨"]", "\\right]", .closer, true, none, ⟨1, 12⟩⟩]) =
      .ok (.root [.matrix ⟨"\\left[",
        [[.flat [.leaf "a" "a", .leaf "b" "b"], .leaf "c" "c"],
          [.leaf "d" "d", .leaf "e" "e", .leaf "f" "f"]], "\\right]", .center, [1, 2]⟩]) := by
  obtain ⟨dividers, -, rules, matrix⟩ :=
    @ofTokens_leafGrid ⟨"[", "\\left[", .opener, true, none, ⟨1, 1⟩⟩
      ⟨"]", "\\right]", .closer, true, none, ⟨1, 12⟩⟩ rfl rfl raggedGrid
  refine ⟨dividers, rules, ?_, rfl⟩
  cases matrix
  rfl

end Formula

end AsciiMath
