import AsciiMath.Proofs.Formula.Cells
import AsciiMath.Proofs.Formula.Grid

/-!
# Matrices from rows and cells

A bracket with row separators is a matrix. Its contents are read in one go, but each cell as if it
stood alone, so that the rows are what cutting the tokens gives.
-/

namespace AsciiMath

/-- Whether a sign behind the tokens would belong to what follows it. -/
def Placed.leadsBehind (leads : Bool) (tokens : List Token) : Bool :=
  tokens.foldl (fun _ token ↦ token.category.takesOperand) leads

theorem Placed.follow_append (leads : Bool) (front back : List Token) :
    follow leads (front ++ back) = follow leads front ++ follow (leadsBehind leads front) back := by
  induction front generalizing leads with
  | nil => rfl
  | cons token front ih => exact congrArg (_ :: ·) (ih token.category.takesOperand)

theorem Placed.exists_follow_append (leads : Bool) (front back : List Token) :
    ∃ last, follow leads (front ++ back) = follow leads front ++ follow last back :=
  ⟨leadsBehind leads front, follow_append leads front back⟩

namespace Grid

/-- The formulas of the cells of a row with marks between the cells. -/
def rowPieces (row : List (List Formula)) : List GridPiece :=
  [GridPiece.cellEnd].intercalate (row.map (·.map .formula))

def pieces (rows : List (List (List Formula))) : List GridPiece :=
  [GridPiece.rowEnd].intercalate (rows.map rowPieces)

/-- The cells of a row, without an empty one at the end. -/
def finished (row : List (List Formula)) : List Formula := (dropEmptyEnd row).map .ofList

theorem rowPieces_cons_cons (cell next : List Formula) (row : List (List Formula)) :
    rowPieces (cell :: next :: row) = cell.map .formula ++ .cellEnd :: rowPieces (next :: row) := by
  simp [rowPieces]

theorem rowPieces_singleton (cell : List Formula) : rowPieces [cell] = cell.map .formula := by
  simp [rowPieces]

theorem pieces_cellEnd (cell next : List Formula) (row : List (List Formula))
    (rows : List (List (List Formula))) :
    pieces ((cell :: next :: row) :: rows) =
      cell.map .formula ++ .cellEnd :: pieces ((next :: row) :: rows) := by
  cases rows <;> simp [pieces, rowPieces]

theorem pieces_cons_cons (row next : List (List Formula)) (rows : List (List (List Formula))) :
    pieces (row :: next :: rows) = rowPieces row ++ .rowEnd :: pieces (next :: rows) := by
  simp [pieces]

theorem finished_cons_cons (cell next : List Formula) (row : List (List Formula)) :
    finished (cell :: next :: row) = .ofList cell :: finished (next :: row) := by
  rw [finished, dropEmptyEnd_cons_cons]
  rfl

theorem ofPieces_formulas (row cell found : List Formula) (pieces : List GridPiece) :
    ofPieces row cell (found.map .formula ++ pieces) = ofPieces row (cell ++ found) pieces := by
  induction found generalizing cell with
  | nil => rw [List.map_nil, List.nil_append, List.append_nil]
  | cons formula found ih =>
    rw [List.map_cons, List.cons_append, ofPieces, ih, List.append_assoc, List.singleton_append]

/-- Where a row ends, its cells but for an empty last one stand behind those that were there. -/
theorem exists_ofPieces_rowPieces (before : List Formula) (row : List (List Formula))
    (pieces : List GridPiece) :
    ∃ row' cell, endRow row' cell = before ++ finished row ∧
      ofPieces before [] (rowPieces row ++ pieces) = ofPieces row' cell pieces := by
  induction row generalizing before with
  | nil => exact ⟨before, [], (List.append_nil before).symm, rfl⟩
  | cons cell row ih =>
    cases row with
    | nil =>
      refine ⟨before, cell, ?_, ?_⟩
      · cases cell with
        | nil => exact (List.append_nil before).symm
        | cons => rfl
      · simpa [rowPieces] using ofPieces_formulas before [] cell pieces
    | cons next row =>
      obtain ⟨row', last, ends, same⟩ := ih (before ++ [.ofList cell])
      refine ⟨row', last, ?_, ?_⟩
      · rw [ends, finished_cons_cons, List.append_assoc, List.singleton_append]
      · rw [rowPieces_cons_cons, List.append_assoc, ofPieces_formulas, List.cons_append, ofPieces,
          List.nil_append, same]

/-- Pieces make the rows they come from. -/
theorem ofPieces_pieces (row : List (List Formula)) (rows : List (List (List Formula))) :
    ofPieces [] [] (pieces (row :: rows)) = ⟨dropEmptyEnd ((row :: rows).map finished), []⟩ := by
  induction rows generalizing row with
  | nil =>
    obtain ⟨row', cell, ends, same⟩ := exists_ofPieces_rowPieces [] row []
    have alone : pieces [row] = rowPieces row ++ [] := by simp [pieces]
    rw [alone, same, ofPieces, ends, List.nil_append, List.map_singleton]
    cases finished row <;> rfl
  | cons next rows ih =>
    obtain ⟨row', cell, ends, same⟩ :=
      exists_ofPieces_rowPieces [] row (.rowEnd :: pieces (next :: rows))
    rw [pieces_cons_cons, same, ofPieces, ends, ih, List.nil_append, List.map_cons, List.map_cons,
      List.map_cons, dropEmptyEnd_cons_cons]

end Grid

namespace Formula

theorem endsCell_of_cellTokens {placed : Placed} {tokens : List Placed} (ruled cellBegun : Bool)
    (cell : CellTokens (placed :: tokens)) : endsCell ruled cellBegun placed.token = none := by
  have plain := cell.plain
  simp only [Placed.category, List.mem_cons, not_or] at plain
  simp [endsCell, plain]

/-- It does not matter at a separator whether a cell has begun. -/
theorem readPieces_tail {read : Reader} {ruled : Bool} {budget : Nat} {tail : List Placed}
    (ends : CellEnd tail) (begun : Bool) :
    readPieces read ruled budget begun tail = readPieces read ruled budget false tail := by
  cases tail with
  | nil => simp only [readPieces]
  | cons next tail =>
    have separates : next.token.category = .separator := ends next rfl
    cases budget with
    | zero => rfl
    | succ budget => simp only [readPieces, endsCell, if_pos separates]

/-- A cell is read as what stands in it, one after the other, up to its end. -/
theorem readPieces_cell (levels : Nat) (begun : Bool) {tokens tail : List Placed}
    (cell : CellTokens tokens) (ends : CellEnd tail) :
    readPieces (read levels true) true (tokens ++ tail).length begun (tokens ++ tail) =
      sequence (read levels true) tokens >>= fun found ↦ (found.map .formula ++ ·) <$>
        readPieces (read levels true) true tail.length false tail := by
  induction hlength : tokens.length using Nat.strongRecOn generalizing tokens begun with
  | _ length ih =>
    subst hlength
    cases tokens with
    | nil =>
      rw [List.nil_append, readPieces_tail ends]
      exact (id_map _).symm
    | cons placed tokens =>
      have same := read_stays ends levels true placed tokens cell
      rw [sequence_cons, List.cons_append, List.length_cons, readPieces,
        endsCell_of_cellTokens true begun cell]
      generalize hread : read levels true placed tokens = result,
        read levels true placed (tokens ++ tail) = other at same
      cases same with
      | error cause => rfl
      | ok same =>
        cases same with
        | @left found after more =>
          have shorter : after.length ≤ tokens.length := length_le_of_read hread
          have enough : (after ++ tail).length ≤ (tokens ++ tail).length := by
            rw [List.length_append, List.length_append]
            omega
          have inside := ih after.length (Nat.lt_succ_of_le shorter) true more rfl
          simp only [bind, Except.bind] at inside ⊢
          rw [readPieces_budget levels true true enough (Nat.le_refl _), inside]
          cases sequence (read levels true) after with
          | error cause => rfl
          | ok formulas =>
            dsimp only
            cases readPieces (read levels true) true tail.length false tail with
            | error cause => rfl
            | ok pieces => rfl

/-- What is read of a cell alone. No sign at its start belongs to what follows. -/
def readCell (levels : Nat) (cell : List Token) : Except ConversionError (List Formula) :=
  sequence (read levels true) (Placed.follow false cell)

theorem readPieces_cells (levels : Nat) (begun : Bool) {tokens : List Token}
    (inCells : Token.InCells tokens) :
    readPieces (read levels true) true (Placed.follow false tokens).length begun
        (Placed.follow false tokens) =
      Grid.pieces <$> (Token.cellsOf tokens).mapM (·.mapM (readCell levels)) := by
  induction inCells generalizing begun with
  | @last cell isCell =>
    have cellTokens : CellTokens (Placed.follow false cell) :=
      cellTokens_of_isCell (by rwa [Placed.map_token_follow])
    have whole := @readPieces_cell levels begun _ [] cellTokens (by simp [CellEnd])
    rw [List.append_nil] at whole
    rw [whole, Token.cellsOf_cell isCell]
    change readCell levels cell >>= _ = _
    simp only [List.mapM_cons, List.mapM_nil]
    cases readCell levels cell with
    | error cause => rfl
    | ok found =>
      change Except.ok (found.map .formula ++ []) = Except.ok (Grid.pieces [[found]])
      simp [Grid.pieces, Grid.rowPieces]
  | @cons cell back separator isCell separates more ih =>
    have cellTokens : CellTokens (Placed.follow false cell) :=
      cellTokens_of_isCell (by rwa [Placed.map_token_follow])
    obtain ⟨leads, whole⟩ := Placed.exists_follow_append false cell (separator :: back)
    rw [Placed.follow, show separator.category.takesOperand = false by rw [separates]; rfl] at whole
    have ends : CellEnd (⟨separator, leads⟩ :: Placed.follow false back) := by
      rintro _ ⟨⟩
      exact separates
    rw [whole, readPieces_cell levels begun cellTokens ends, List.length_cons, readPieces, endsCell,
      if_pos separates]
    dsimp only
    rw [ih, Token.cellsOf_append isCell separates]
    obtain ⟨next, row, rows, cells⟩ := more.exists_cons
    rw [cells]
    change readCell levels cell >>= _ = _
    split
    · simp only [List.mapM_cons, List.mapM_nil, bind_assoc, map_bind, map_pure, bind_pure_comp,
        bind_map_left, Functor.map_map, Grid.pieces_cons_cons, Grid.rowPieces_singleton]
    · simp only [List.modifyHead_cons, List.mapM_cons, bind_assoc, map_bind, bind_pure_comp,
        bind_map_left, Functor.map_map, Grid.pieces_cellEnd]

theorem bind_cons_ne_nil {ε α β : Type} (first : Except ε α) (head : α → β)
    (more : α → Except ε (List β)) :
    (first >>= fun found ↦ (head found :: ·) <$> more found) ≠ .ok [] := by
  rcases first with cause | found
  · rintro ⟨⟩
  · change (head found :: ·) <$> more found ≠ .ok []
    cases more found <;> rintro ⟨⟩

theorem readCell_eq_nil {levels : Nat} {cell : List Token} :
    readCell levels cell = .ok [] ↔ cell = [] := by
  cases cell with
  | nil => exact iff_of_true rfl rfl
  | cons token cell =>
    rw [readCell, Placed.follow, sequence_cons]
    exact iff_of_false (bind_cons_ne_nil _ Prod.fst _) (List.cons_ne_nil _ _)

/-- The formula of a cell alone. -/
def cellFormula (levels : Nat) (cell : List Token) : Except ConversionError Formula :=
  ofList <$> readCell levels cell

theorem mapM_rowsOf (levels : Nat) (tokens : List Token) :
    (Token.rowsOf tokens).mapM (·.mapM (cellFormula levels)) =
      (fun rows ↦ dropEmptyEnd (rows.map Grid.finished)) <$>
        (Token.cellsOf tokens).mapM (·.mapM (readCell levels)) := by
  have empty (row : List (List Token)) : row.mapM (cellFormula levels) = .ok [] ↔ row = [] := by
    cases row with
    | nil => exact iff_of_true rfl rfl
    | cons cell row =>
      simp only [List.mapM_cons, bind_pure_comp]
      exact iff_of_false (bind_cons_ne_nil _ id _) (List.cons_ne_nil _ _)
  have row (cells : List (List Token)) : (dropEmptyEnd cells).mapM (cellFormula levels) =
      Grid.finished <$> cells.mapM (readCell levels) := by
    rw [show cellFormula levels = fun cell ↦ ofList <$> readCell levels cell from rfl, mapM_map_eq,
      mapM_dropEmptyEnd fun _ ↦ readCell_eq_nil, Functor.map_map]
    rfl
  rw [Token.rowsOf, mapM_dropEmptyEnd empty, List.mapM_map, Function.comp_def]
  simp only [row]
  rw [mapM_map_eq, Functor.map_map]

/-- What is read of a bracket with cells in it are the rows and no rules. -/
theorem grid_cells (levels : Nat) {tokens : List Token} (inCells : Token.InCells tokens) :
    grid (read levels true) true [] (Placed.follow false tokens) =
      (fun rows ↦ ⟨rows, []⟩) <$>
        (Token.rowsOf tokens).mapM (·.mapM (cellFormula levels)) := by
  obtain ⟨cell, row, rows, cells⟩ := inCells.exists_cons
  rw [grid, readPieces_cells levels _ inCells, mapM_rowsOf, Functor.map_map, Functor.map_map, cells]
  simp only [List.mapM_cons, map_bind, bind_assoc, bind_pure_comp, bind_map_left, Functor.map_map,
    Grid.ofPieces_pieces]

/-- Cases in a brace that is closed by `:}` are aligned at their left. -/
def alignmentOf (opener closer : Token) : Alignment :=
  if opener.value = "\x7b" ∧ closer.value = ":\x7d" then .left else .center

/-- Brackets around a row separator make a matrix of their grid. -/
theorem ofTokens_bracket {opener closer : Token} {body : List Token}
    (opens : opener.category = .opener) (closes : closer.category = .closer)
    (matched : Token.Matched body)
    (rows : ∃ token, Token.Outside body token ∧ token.isRowSeparator) :
    ofTokens (opener :: body ++ [closer]) =
      grid (read 63 true) true [] (Placed.follow false body) >>= fun cells ↦
        match cells.toMatrix opener.template closer.template (alignmentOf opener closer) with
        | some found => .ok (.root [.matrix found])
        | none => .error .ruleBeyondRow := by
  have levels : maxLevels = 63 + 1 := rfl
  have first : opener.category.takesOperand = false := by rw [opens]; rfl
  obtain ⟨last, split⟩ := Placed.exists_follow_append false body [closer]
  have region : Region.ofBrackets? 0 (Placed.follow false (body ++ [closer])) =
      some ⟨Placed.follow false body, ⟨closer, last⟩, []⟩ := by
    have ends : (⟨closer, last⟩ : Placed).category = .closer := closes
    rw [split]
    refine Region.ofBrackets?_of_balanced ?_ ends []
    rwa [Token.depthAfter?_eq, Placed.map_token_follow]
  have ruled : Region.hasRows 0 (Placed.follow false body) := by
    rwa [Token.hasRows_iff, Placed.map_token_follow]
  have side : (if opener.value == "\x7b" && closer.value == ":\x7d" then Alignment.left
      else .center) = alignmentOf opener closer := by
    simp only [alignmentOf, Bool.and_eq_true, beq_iff_eq]
  have alone (base : Formula) : attachFollowers (read 63) 63 63 base [] = .ok (base, []) :=
    attachFollowers_eq_self (by simp)
  rw [ofTokens, Placed.ofTokens, levels, List.cons_append, Placed.follow, first, sequence_cons,
    read, readAlone]
  dsimp only
  rw [opens]
  dsimp only
  rw [bracketRegion, region]
  dsimp only
  rw [if_pos ruled]
  cases grid (read 63 true) true [] (Placed.follow false body) with
  | error cause => rfl
  | ok cells =>
    dsimp only [bind, Except.bind]
    rw [side]
    cases cells.toMatrix opener.template closer.template (alignmentOf opener closer) with
    | none => rfl
    | some found =>
      dsimp only [pure, Except.pure]
      rw [if_pos rfl, alone]
      rfl

/-- A bracket with a row separator is a matrix of what is read of its cells alone, where the first
cell that cannot be read tells why. No bar may stand between the cells. -/
theorem ofTokens_rowsOf {opener closer : Token} {body : List Token}
    (opens : opener.category = .opener) (closes : closer.category = .closer)
    (matched : Token.Matched body)
    (rows : ∃ token, Token.Outside body token ∧ token.isRowSeparator)
    (barless : ∀ token, Token.Outside body token → token.category ≠ .bar) :
    ofTokens (opener :: body ++ [closer]) = do
      let rows ← (Token.rowsOf body).mapM fun row ↦ row.mapM fun cell ↦ cellFormula 63 cell
      return .root [.matrix
        ⟨opener.template, rows, closer.template, alignmentOf opener closer, []⟩] := by
  rw [ofTokens_bracket opens closes matched rows, grid_cells 63 (Token.inCells matched barless)]
  cases (Token.rowsOf body).mapM (·.mapM (cellFormula 63)) with
  | error cause => rfl
  | ok found =>
    have unruled : Grid.toMatrix ⟨found, []⟩ opener.template closer.template
        (alignmentOf opener closer) =
      some ⟨opener.template, found, closer.template, alignmentOf opener closer, []⟩ := by
      simp [Grid.toMatrix, Matrix.ofRows?]
    simp only [Functor.map, Except.map, bind, Except.bind, unruled]
    rfl

/-- Two rows and the end of the second. A cell has a sign at its start, and one has rows itself. -/
def caseRows : List Token :=
  let comma (column : Nat) : Token := ⟨",", ",", .separator, true, none, ⟨1, column⟩⟩
  let semicolon (column : Nat) : Token := ⟨";", ";", .separator, true, none, ⟨1, column⟩⟩
  [.literal ['a'] .run ⟨1, 2⟩, comma 3, ⟨"-", "-", .sign, true, none, ⟨1, 4⟩⟩,
    .literal ['b'] .run ⟨1, 5⟩, semicolon 6, ⟨"(", "\\left(", .opener, true, none, ⟨1, 7⟩⟩,
    .literal ['c'] .run ⟨1, 8⟩, semicolon 9, .literal ['d'] .run ⟨1, 10⟩,
    ⟨")", "\\right)", .closer, true, none, ⟨1, 11⟩⟩, comma 12, semicolon 13]

theorem ofTokens_caseRows :
    ofTokens (⟨"\x7b", "\\left\\\x7b", .opener, true, none, ⟨1, 1⟩⟩ :: caseRows ++
        [⟨":\x7d", "\\right.", .closer, true, none, ⟨1, 14⟩⟩]) =
      .ok (.root [.matrix ⟨"\\left\\\x7b",
        [[.leaf "a" "a", .flat [.leaf "-" "-", .leaf "b" "b"]],
          [.matrix ⟨"\\left(", [[.leaf "c" "c"], [.leaf "d" "d"]], "\\right)", .center, []⟩]],
        "\\right.", .left, []⟩]) := by
  have barless : ∀ labelled ∈ Token.depths 0 caseRows,
      labelled.2 = 0 → labelled.1.category ≠ .bar := by decide
  exact (ofTokens_rowsOf rfl rfl (by decide)
    ⟨⟨";", ";", .separator, true, none, ⟨1, 6⟩⟩, by decide, rfl⟩
    fun token outside ↦ barless (token, 0) outside rfl).trans rfl

end Formula

end AsciiMath
