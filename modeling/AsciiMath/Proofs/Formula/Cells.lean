import AsciiMath.Proofs.Formula.Confined

/-!
# Cutting tokens into rows and cells

The contents of a bracket are cut at the separators that stand outside of its inner brackets, into
rows at the row separators and each row into cells at the others. If the inner brackets match, all
of them stand between two cuts.
-/

namespace AsciiMath

namespace Token

/-- The tokens with the number of brackets that are open in front of each. -/
def depths : Nat → List Token → List (Token × Nat)
  | _, [] => []
  | depth, token :: tokens =>
    (token, depth) :: depths ((Region.nextDepth? token.category depth).getD 0) tokens

/-- How many brackets are open behind the tokens; none if one is closed that was not opened. -/
def depthBehind? (depth : Nat) (tokens : List Token) : Option Nat :=
  tokens.foldlM (fun depth token ↦ Region.nextDepth? token.category depth) depth

/-- Every bracket is closed, and every closer closes one. -/
def Matched (tokens : List Token) : Prop := depthBehind? 0 tokens = some 0

instance (tokens : List Token) : Decidable (Matched tokens) :=
  inferInstanceAs (Decidable (_ = _))

/-- The token stands in the list outside of all brackets. -/
def Outside (tokens : List Token) (token : Token) : Prop := (token, 0) ∈ depths 0 tokens

instance (tokens : List Token) (token : Token) : Decidable (Outside tokens token) :=
  inferInstanceAs (Decidable (_ ∈ _))

/-- What stands between the tokens that cut, which are looked for outside of all brackets. -/
def cutAt (cuts : Token → Bool) (tokens : List Token) : List (List Token) :=
  ((depths 0 tokens).splitOnP fun labelled ↦ labelled.2 == 0 && cuts labelled.1).map
    (·.map Prod.fst)

def isSeparator (token : Token) : Bool := token.category == .separator

/-- The cells of each row. -/
def cellsOf (tokens : List Token) : List (List (List Token)) :=
  (cutAt isRowSeparator tokens).map (cutAt isSeparator)

end Token

/-- A last member that is empty is left out. -/
def dropEmptyEnd {α : Type} (members : List (List α)) : List (List α) :=
  if members.getLast? matches some [] then members.dropLast else members

namespace Token

/-- The rows of a matrix. There is no last cell if it is empty, and no last row without cells. -/
def rowsOf (tokens : List Token) : List (List (List Token)) :=
  dropEmptyEnd ((cellsOf tokens).map dropEmptyEnd)

end Token

section

variable {α β : Type}

theorem dropEmptyEnd_cons_cons (first second : List α) (members : List (List α)) :
    dropEmptyEnd (first :: second :: members) = first :: dropEmptyEnd (second :: members) := by
  simp only [dropEmptyEnd, List.getLast?_cons_cons, List.dropLast_cons_cons]
  split <;> rfl

theorem dropEmptyEnd_concat (members : List (List α)) (last : List α) :
    dropEmptyEnd (members ++ [last]) = if last = [] then members else members ++ [last] := by
  cases last <;> simp [dropEmptyEnd]

theorem mapM_map_eq {ε γ : Type} (finish : β → γ) (make : α → Except ε β) (members : List α) :
    (members.mapM fun member ↦ finish <$> make member) = List.map finish <$> members.mapM make := by
  induction members with
  | nil => rfl
  | cons member members ih =>
    simp only [List.mapM_cons, ih, map_bind, bind_map_left, bind_pure_comp, Functor.map_map,
      List.map_cons]

/-- What is made of each member can be made before or after the last one is left out. -/
theorem mapM_dropEmptyEnd {ε : Type} {make : List α → Except ε (List β)}
    (same : ∀ member, make member = .ok [] ↔ member = []) (members : List (List α)) :
    (dropEmptyEnd members).mapM make = dropEmptyEnd <$> members.mapM make := by
  rcases List.eq_nil_or_concat members with rfl | ⟨front, last, rfl⟩
  · rfl
  · rw [List.concat_eq_append, dropEmptyEnd_concat]
    have whole : (front ++ [last]).mapM make =
        front.mapM make >>= fun found ↦ (fun made ↦ found ++ [made]) <$> make last := by
      simp only [List.mapM_append, List.mapM_cons, List.mapM_nil, map_pure, bind_pure_comp,
        Functor.map_map]
    split
    · next empty =>
      rw [whole, (same last).2 empty]
      cases front.mapM make with
      | error cause => rfl
      | ok found => exact congrArg Except.ok (dropEmptyEnd_concat found []).symm
    · next full =>
      rw [whole]
      cases front.mapM make with
      | error cause => rfl
      | ok found =>
        cases hlast : make last with
        | error cause => rfl
        | ok made =>
          have begun : made ≠ [] := fun none ↦ full ((same last).1 (none ▸ hlast))
          exact congrArg Except.ok ((dropEmptyEnd_concat found made).trans (if_neg begun)).symm

end

theorem splitOnP_append_of_forall_not {α : Type} {cuts : α → Bool} {front : List α}
    (h : ∀ member ∈ front, cuts member = false) (back : List α) :
    (front ++ back).splitOnP cuts = (back.splitOnP cuts).modifyHead (front ++ ·) := by
  induction front with
  | nil =>
    rw [List.nil_append]
    cases back.splitOnP cuts <;> rfl
  | cons member front ih =>
    obtain ⟨here, more⟩ := List.forall_mem_cons.1 h
    rw [List.cons_append, List.splitOnP_cons_eq_if_modifyHead, here, if_neg Bool.false_ne_true,
      ih more, List.modifyHead_modifyHead]
    rfl

namespace Token

variable {depth reached : Nat} {front back tokens : List Token}

theorem depthBehind?_cons {token : Token} {next : Nat}
    (h : Region.nextDepth? token.category depth = some next) (tokens : List Token) :
    depthBehind? depth (token :: tokens) = depthBehind? next tokens := by
  simp [depthBehind?, h]

theorem depthBehind?_append (depth : Nat) (front back : List Token) :
    depthBehind? depth (front ++ back) = depthBehind? depth front >>= (depthBehind? · back) :=
  List.foldlM_append

theorem depthAfter?_eq (depth : Nat) (tokens : List Placed) :
    Region.depthAfter? depth tokens = depthBehind? depth (tokens.map (·.token)) := by
  rw [depthBehind?, List.foldlM_map]
  rfl

theorem depths_cons {token : Token} {next : Nat}
    (h : Region.nextDepth? token.category depth = some next) (tokens : List Token) :
    depths depth (token :: tokens) = (token, depth) :: depths next tokens := by
  rw [depths, h]
  rfl

theorem depths_append (h : depthBehind? depth front = some reached) (back : List Token) :
    depths depth (front ++ back) = depths depth front ++ depths reached back := by
  induction front generalizing depth with
  | nil =>
    obtain rfl := Option.some.inj h
    rfl
  | cons token front ih =>
    cases hnext : Region.nextDepth? token.category depth with
    | none => simp [depthBehind?, hnext] at h
    | some next =>
      rw [depthBehind?_cons hnext] at h
      rw [List.cons_append, depths_cons hnext, depths_cons hnext, ih h, List.cons_append]

theorem map_fst_depths (depth : Nat) (tokens : List Token) :
    (depths depth tokens).map Prod.fst = tokens := by
  induction tokens generalizing depth with
  | nil => rfl
  | cons token tokens ih => rw [depths, List.map_cons, ih]

/-- Without brackets all tokens stand outside of brackets. -/
theorem matched_of_forall (still : ∀ token ∈ tokens, token.category ∉ [.opener, .closer]) :
    Matched tokens ∧ ∀ token ∈ tokens, Outside tokens token := by
  induction tokens with
  | nil => exact ⟨rfl, by simp⟩
  | cons token tokens ih =>
    obtain ⟨here, more⟩ := List.forall_mem_cons.1 still
    obtain ⟨matched, outside⟩ := ih more
    have same : Region.nextDepth? token.category 0 = some 0 :=
      Region.nextDepth?_eq_self (by simp_all) (by simp_all) 0
    refine ⟨(depthBehind?_cons same tokens).trans matched, fun other mem ↦ ?_⟩
    rw [Outside, depths_cons same]
    rcases List.mem_cons.1 mem with rfl | mem
    · exact .head _
    · exact .tail _ (outside other mem)

theorem hasRows_iff {depth : Nat} {tokens : List Placed} :
    Region.hasRows depth tokens ↔
      ∃ token, (token, 0) ∈ depths depth (tokens.map (·.token)) ∧ token.isRowSeparator := by
  induction tokens generalizing depth with
  | nil => simp [Region.hasRows, depths]
  | cons placed tokens ih =>
    have here : Region.hasRows depth (placed :: tokens) ↔
        depth = 0 ∧ placed.token.isRowSeparator ∨
          Region.hasRows ((Region.nextDepth? placed.category depth).getD 0) tokens := by
      rw [Region.hasRows]
      cases category : placed.category <;> cases depth <;>
        simp_all [Placed.category, Region.nextDepth?, isRowSeparator]
    rw [here, ih, List.map_cons, depths]
    simp only [List.mem_cons, Prod.mk.injEq]
    constructor
    · rintro (⟨rfl, row⟩ | ⟨token, mem, row⟩)
      · exact ⟨placed.token, .inl ⟨rfl, rfl⟩, row⟩
      · exact ⟨token, .inr mem, row⟩
    · rintro ⟨token, ⟨rfl, rfl⟩ | mem, row⟩
      · exact .inl ⟨rfl, row⟩
      · exact .inr ⟨token, mem, row⟩

/-- There is a first separator outside of the brackets, if there is one. -/
theorem exists_separator (closed : depthBehind? depth tokens = some 0) :
    (∀ token, (token, 0) ∈ depths depth tokens → token.category ≠ .separator) ∨
      ∃ front separator back, tokens = front ++ separator :: back ∧
        separator.category = .separator ∧ depthBehind? depth front = some 0 ∧
        depthBehind? 0 back = some 0 ∧
        ∀ token, (token, 0) ∈ depths depth front → token.category ≠ .separator := by
  induction tokens generalizing depth with
  | nil => exact .inl fun token mem ↦ by simp [depths] at mem
  | cons token tokens ih =>
    by_cases separates : token.category = .separator ∧ depth = 0
    · obtain ⟨category, rfl⟩ := separates
      have same : Region.nextDepth? token.category 0 = some 0 := by rw [category]; rfl
      rw [depthBehind?_cons same] at closed
      exact .inr ⟨[], token, tokens, rfl, category, rfl, closed, by simp [depths]⟩
    · cases hnext : Region.nextDepth? token.category depth with
      | none => simp [depthBehind?, hnext] at closed
      | some next =>
        have inner {front : List Token}
            (more : ∀ token, (token, 0) ∈ depths next front → token.category ≠ .separator) :
            ∀ other, (other, 0) ∈ depths depth (token :: front) →
              other.category ≠ .separator := by
          intro other mem category
          rw [depths_cons hnext, List.mem_cons, Prod.mk.injEq] at mem
          rcases mem with ⟨rfl, rfl⟩ | mem
          · exact separates ⟨category, rfl⟩
          · exact more other mem category
        rw [depthBehind?_cons hnext] at closed
        rcases ih closed with none | ⟨front, separator, back, rfl, category, before, behind, none⟩
        · exact .inl (inner none)
        · exact .inr ⟨token :: front, separator, back, rfl, category,
            (depthBehind?_cons hnext front).trans before, behind, inner none⟩

/-- Brackets match, and no separator and no bar stands outside of them. -/
structure IsCell (tokens : List Token) : Prop where
  matched : Matched tokens
  inner : ∀ token, Outside tokens token → token.category ∉ [.separator, .bar]

/-- Cells with separators between them. -/
inductive InCells : List Token → Prop where
  | last {cell : List Token} (isCell : IsCell cell) : InCells cell
  | cons {cell back : List Token} {separator : Token} (isCell : IsCell cell)
      (separates : separator.category = .separator) (more : InCells back) :
      InCells (cell ++ separator :: back)

theorem inCells (matched : Matched tokens)
    (barless : ∀ token, Outside tokens token → token.category ≠ .bar) : InCells tokens := by
  induction hlength : tokens.length using Nat.strongRecOn generalizing tokens with
  | _ length ih =>
    subst hlength
    rcases exists_separator matched with
      none | ⟨front, separator, back, rfl, category, before, behind, none⟩
    · refine .last ⟨matched, fun token mem bad ↦ ?_⟩
      rcases List.mem_cons.1 bad with separates | bar
      · exact none token mem separates
      · exact barless token mem (List.mem_singleton.1 bar)
    · have same : Region.nextDepth? separator.category 0 = some 0 := by rw [category]; rfl
      have labels : depths 0 (front ++ separator :: back) =
          depths 0 front ++ (separator, 0) :: depths 0 back := by
        rw [depths_append before, depths_cons same]
      have shorter : back.length < (front ++ separator :: back).length := by
        rw [List.length_append, List.length_cons]
        omega
      refine .cons ⟨before, fun token mem bad ↦ ?_⟩ category
        (ih _ shorter behind (fun token mem ↦ barless token ?_) rfl)
      · rcases List.mem_cons.1 bad with separates | bar
        · exact none token mem separates
        · exact barless token (by rw [Outside, labels]; exact List.mem_append_left _ mem)
            (List.mem_singleton.1 bar)
      · rw [Outside, labels]
        exact List.mem_append_right _ (.tail _ mem)

theorem IsCell.of_append (before : depthBehind? 0 front = some 0)
    (isCell : IsCell (front ++ back)) : IsCell back where
  matched := by
    have matched : depthBehind? 0 (front ++ back) = some 0 := isCell.matched
    rwa [depthBehind?_append, before] at matched
  inner token mem := isCell.inner token <| by
    rw [Outside, depths_append before]
    exact List.mem_append_right _ mem

theorem IsCell.depths_append {cell : List Token} (isCell : IsCell cell) {separator : Token}
    (category : separator.category = .separator) (back : List Token) :
    depths 0 (cell ++ separator :: back) = depths 0 cell ++ (separator, 0) :: depths 0 back := by
  have same : Region.nextDepth? separator.category 0 = some 0 := by rw [category]; rfl
  rw [Token.depths_append isCell.matched, depths_cons same]

section

variable {cuts : Token → Bool} (only : ∀ token, cuts token → token.category = .separator)
  {cell : List Token} (isCell : IsCell cell)

include only isCell

theorem IsCell.uncut :
    ∀ labelled ∈ depths 0 cell, (labelled.2 == 0 && cuts labelled.1) = false := by
  rintro ⟨token, depth⟩ mem
  rw [Bool.eq_false_iff, ne_eq, Bool.and_eq_true, beq_iff_eq]
  rintro ⟨rfl, cut⟩
  exact isCell.inner token mem (by simp [only token cut])

theorem cutAt_cell : cutAt cuts cell = [cell] := by
  rw [cutAt, List.splitOnP_eq_singleton (isCell.uncut only), List.map_singleton, map_fst_depths]

theorem cutAt_append_of_cuts {separator : Token} (cut : cuts separator) (back : List Token) :
    cutAt cuts (cell ++ separator :: back) = cell :: cutAt cuts back := by
  rw [cutAt, isCell.depths_append (only separator cut),
    List.splitOnP_append_cons_of_forall_mem (isCell.uncut only) _ (by simpa using cut),
    List.map_cons, map_fst_depths]
  rfl

theorem cutAt_append_of_not_cuts {separator : Token} (category : separator.category = .separator)
    (uncut : cuts separator = false) (back : List Token) :
    cutAt cuts (cell ++ separator :: back) =
      (cutAt cuts back).modifyHead (cell ++ separator :: ·) := by
  have inner : ∀ labelled ∈ depths 0 cell ++ [(separator, 0)],
      (labelled.2 == 0 && cuts labelled.1) = false := by
    refine List.forall_mem_append.2 ⟨isCell.uncut only, ?_⟩
    simpa using uncut
  obtain ⟨first, others, split⟩ := List.exists_cons_of_ne_nil (List.splitOnP_ne_nil
    (fun labelled : Token × Nat ↦ labelled.2 == 0 && cuts labelled.1) (depths 0 back))
  rw [cutAt, cutAt, isCell.depths_append category, List.append_cons,
    splitOnP_append_of_forall_not inner, split]
  simp [map_fst_depths]

end

theorem isSeparator_iff {token : Token} : token.isSeparator ↔ token.category = .separator :=
  beq_iff_eq

theorem category_of_isRowSeparator {token : Token} (h : token.isRowSeparator) :
    token.category = .separator := by
  rw [isRowSeparator, Bool.and_eq_true, beq_iff_eq] at h
  exact h.1

theorem cellsOf_cell {cell : List Token} (isCell : IsCell cell) : cellsOf cell = [[cell]] := by
  rw [cellsOf, cutAt_cell (fun _ ↦ category_of_isRowSeparator) isCell, List.map_singleton,
    cutAt_cell (fun _ ↦ isSeparator_iff.1) isCell]

theorem cellsOf_append {cell : List Token} (isCell : IsCell cell) {separator : Token}
    (category : separator.category = .separator) (back : List Token) :
    cellsOf (cell ++ separator :: back) =
      if separator.isRowSeparator then [cell] :: cellsOf back
      else (cellsOf back).modifyHead (cell :: ·) := by
  have rowCuts (token : Token) : token.isRowSeparator → token.category = .separator :=
    category_of_isRowSeparator
  have cellCuts (token : Token) : token.isSeparator → token.category = .separator :=
    isSeparator_iff.1
  split
  · next row =>
    rw [cellsOf, cutAt_append_of_cuts rowCuts isCell row, List.map_cons,
      cutAt_cell cellCuts isCell]
    rfl
  · next row =>
    rw [cellsOf, cutAt_append_of_not_cuts rowCuts isCell category (Bool.eq_false_iff.2 row),
      cellsOf]
    cases cutAt isRowSeparator back with
    | nil => rfl
    | cons first others =>
      rw [List.modifyHead_cons, List.map_cons, List.map_cons, List.modifyHead_cons,
        cutAt_append_of_cuts cellCuts isCell (isSeparator_iff.2 category)]

/-- There is a first row with a first cell, which may be empty. -/
theorem InCells.exists_cons {tokens : List Token} (h : InCells tokens) :
    ∃ cell row rows, cellsOf tokens = (cell :: row) :: rows := by
  cases h with
  | last isCell => exact ⟨_, _, _, cellsOf_cell isCell⟩
  | @cons cell back separator isCell separates more =>
    rw [cellsOf_append isCell separates]
    split
    · exact ⟨_, _, _, rfl⟩
    · obtain ⟨row, rows, h⟩ : ∃ row rows, cellsOf back = row :: rows := by
        refine List.exists_cons_of_ne_nil ?_
        simp [cellsOf, cutAt]
      exact ⟨cell, row, rows, by rw [h, List.modifyHead_cons]⟩

end Token

/-- The brackets of a cell are its groups. -/
theorem cellTokens_of_isCell {tokens : List Placed}
    (isCell : Token.IsCell (tokens.map (·.token))) : CellTokens tokens := by
  induction hlength : tokens.length using Nat.strongRecOn generalizing tokens with
  | _ length ih =>
    subst hlength
    cases tokens with
    | nil => exact .nil
    | cons placed tokens =>
      have matched : Region.depthAfter? 0 (placed :: tokens) = some 0 :=
        (Token.depthAfter?_eq 0 _).trans isCell.matched
      by_cases opens : placed.category = .opener
      · have opened := Region.nextDepth?_of_opener opens 0
        rw [Region.depthAfter?_cons opened] at matched
        obtain ⟨region, found⟩ := Region.exists_ofBrackets? matched
        obtain ⟨rfl, closes, balanced⟩ := Region.ofBrackets?_eq_some found
        have group : Region.depthAfter? 0 (placed :: (region.inside ++ [region.closer])) =
            some 0 := by
          rw [Region.depthAfter?_cons opened]
          exact @Region.depthAfter?_region 0 ⟨region.inside, region.closer, []⟩ balanced closes
        rw [Token.depthAfter?_eq] at group
        have shorter : region.after.length <
            (placed :: (region.inside ++ region.closer :: region.after)).length := by
          rw [List.length_cons, List.length_append, List.length_cons]
          omega
        refine .group opens balanced closes (ih _ shorter (.of_append group ?_) rfl)
        simpa using isCell
      · have unclosed : placed.category ≠ .closer := fun closes ↦ by
          simp [Region.depthAfter?, closes, Region.nextDepth?] at matched
        have alone : Token.depthBehind? 0 [placed.token] = some 0 :=
          Token.depthBehind?_cons (Region.nextDepth?_eq_self opens unclosed 0) []
        have inner : placed.category ∉ [.separator, .bar] := isCell.inner placed.token (.head _)
        exact .token (by simp_all) (ih _ (Nat.lt_succ_self _) (.of_append alone isCell) rfl)

end AsciiMath
