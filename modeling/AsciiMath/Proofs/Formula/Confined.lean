import AsciiMath.Proofs.Formula.Blind
import AsciiMath.Proofs.Formula.Chain
import AsciiMath.Proofs.Formula.Matched

/-!
# Reading inside a cell

The brackets of a cell match, and no separator and no bar stands outside of them. A reader that
starts in a cell stops in it, and it reads the same whether the cell ends the tokens or a separator
stands behind it. No operand, script, operator or bracket reaches over the separator.
-/

namespace AsciiMath

inductive CellTokens : List Placed → Prop where
  | nil : CellTokens []
  | token {placed : Placed} {tokens : List Placed}
      (plain : placed.category ∉ [.opener, .closer, .separator, .bar]) (more : CellTokens tokens) :
      CellTokens (placed :: tokens)
  | group {opener closer : Placed} {inside after : List Placed}
      (opens : opener.category = .opener) (balanced : Region.depthAfter? 0 inside = some 0)
      (closes : closer.category = .closer) (more : CellTokens after) :
      CellTokens (opener :: (inside ++ closer :: after))

/-- Nothing stands behind a cell, or a separator. -/
def CellEnd (tail : List Placed) : Prop := ∀ next ∈ tail.head?, next.category = .separator

namespace CellTokens

variable {placed : Placed} {tokens tail : List Placed}

theorem of_cons (cell : CellTokens (placed :: tokens)) (unopened : placed.category ≠ .opener) :
    CellTokens tokens := by
  cases cell with
  | token plain more => exact more
  | group opens => exact absurd opens unopened

theorem plain (cell : CellTokens (placed :: tokens)) :
    placed.category ∉ [.closer, .separator, .bar] := by
  cases cell with
  | token plain more => exact fun mem ↦ plain (.tail _ mem)
  | group opens => simp [opens]

/-- The bracket of an opener is closed in its cell. -/
theorem exists_region (cell : CellTokens (placed :: tokens)) (opens : placed.category = .opener) :
    ∃ region : Region, CellTokens region.after ∧ ∀ tail,
      Region.ofBrackets? 0 (tokens ++ tail) =
        some { region with after := region.after ++ tail } := by
  cases cell with
  | token plain more => simp [opens] at plain
  | @group _ closer inside after opens balanced closes more =>
    refine ⟨⟨inside, closer, after⟩, more, fun tail ↦ ?_⟩
    rw [List.append_assoc]
    exact Region.ofBrackets?_of_balanced balanced closes (after ++ tail)

end CellTokens

/-- The same was read in the cell alone and with what stands behind the cell, which is left. -/
inductive Beside (tail : List Placed) {α : Type} : α × List Placed → α × List Placed → Prop where
  | left {found : α} {after : List Placed} (cell : CellTokens after) :
      Beside tail (found, after) (found, after ++ tail)

namespace Formula

/-- Readers that stay in the cell in which they start. -/
def Stays (tail : List Placed) (deeper : Bool → Reader) : Prop :=
  ∀ (followed : Bool) (placed : Placed) (tokens : List Placed), CellTokens (placed :: tokens) →
    SameUpTo (Beside tail) (deeper followed placed tokens) (deeper followed placed (tokens ++ tail))

section

variable {deeper : Bool → Reader} {tokens tail : List Placed} (stays : Stays tail deeper)
  (ends : CellEnd tail)

include ends in
theorem attachScripts_tail (links : Nat) (base : Formula) :
    attachScripts deeper links base tail = .ok (base, tail) :=
  attachScripts_eq_self fun next hnext ↦ by simp [ends next hnext]

include ends in
theorem attachFollowers_tail (levels links : Nat) (base : Formula) :
    attachFollowers deeper levels links base tail = .ok (base, tail) :=
  attachFollowers_eq_self fun next hnext ↦ by simp [ends next hnext, Category.follows]

include ends in
theorem leadingScript?_beside (wanted : Token → Bool) (cell : CellTokens tokens) :
    Option.Rel (Beside tail) (leadingScript? wanted tokens)
      (leadingScript? wanted (tokens ++ tail)) := by
  cases tokens with
  | nil =>
    cases tail with
    | nil => exact .none
    | cons next tail =>
      rw [List.nil_append, leadingScript?, ends next rfl]
      exact .none
  | cons placed tokens =>
    rw [List.cons_append, leadingScript?, leadingScript?]
    split
    · next script =>
      have category : placed.category = .script := by simp_all
      exact .some (.left (cell.of_cons (by simp [category])))
    · exact .none

include stays ends

theorem operand_beside (cell : CellTokens tokens) :
    SameUpTo (Beside tail) (operand deeper tokens) (operand deeper (tokens ++ tail)) := by
  cases tokens with
  | nil =>
    have missing : operand deeper tail = .ok (empty, tail) := by
      cases tail with
      | nil => rfl
      | cons next tail => exact if_pos (by simp [ends next rfl])
    rw [List.nil_append, missing]
    exact .ok (.left .nil)
  | cons placed tokens =>
    rw [List.cons_append, operand, operand]
    split
    · exact .ok (.left cell)
    · exact stays false placed tokens cell

theorem strippedOperand_beside (cell : CellTokens tokens) :
    SameUpTo (Beside tail) (strippedOperand deeper tokens)
      (strippedOperand deeper (tokens ++ tail)) := by
  apply (operand_beside stays ends cell).bind
  rintro _ _ ⟨cell⟩
  exact .ok (.left cell)

theorem attachScripts_beside (links : Nat) (base : Formula) (cell : CellTokens tokens) :
    SameUpTo (Beside tail) (attachScripts deeper links base tokens)
      (attachScripts deeper links base (tokens ++ tail)) := by
  induction links generalizing base tokens with
  | zero =>
    cases tokens with
    | nil =>
      rw [List.nil_append, attachScripts_tail ends]
      exact .ok (.left .nil)
    | cons placed tokens =>
      rw [List.cons_append, attachScripts, attachScripts]
      split
      · exact .error _
      · exact .ok (.left cell)
  | succ links ih =>
    cases tokens with
    | nil =>
      rw [List.nil_append, attachScripts_tail ends]
      exact .ok (.left .nil)
    | cons placed tokens =>
      rw [List.cons_append, attachScripts, attachScripts]
      split
      · next category =>
        apply (strippedOperand_beside stays ends (cell.of_cons (by simp [category]))).bind
        rintro ⟨argument, after⟩ _ ⟨cell⟩
        exact ih (withScript base placed.token argument) cell
      · exact .ok (.left cell)

theorem withFollower_beside (levels : Nat) (base : Formula) (operator : Token)
    (cell : CellTokens tokens) :
    SameUpTo (Beside tail) (withFollower deeper levels base operator tokens)
      (withFollower deeper levels base operator (tokens ++ tail)) := by
  rw [withFollower, withFollower]
  split
  · apply (strippedOperand_beside stays ends cell).bind
    rintro _ _ ⟨cell⟩
    exact .ok (.left cell)
  · apply (operand_beside stays ends cell).bind
    rintro ⟨second, after⟩ _ ⟨cell⟩
    apply (attachScripts_beside stays ends levels second cell).bind
    rintro _ _ ⟨cell⟩
    exact .ok (.left cell)
  · exact .ok (.left cell)

theorem attachFollowers_beside (levels links : Nat) (base : Formula) (cell : CellTokens tokens) :
    SameUpTo (Beside tail) (attachFollowers deeper levels links base tokens)
      (attachFollowers deeper levels links base (tokens ++ tail)) := by
  induction links generalizing base tokens with
  | zero =>
    cases tokens with
    | nil =>
      rw [List.nil_append, attachFollowers_tail ends]
      exact .ok (.left .nil)
    | cons placed tokens =>
      rw [List.cons_append, attachFollowers, attachFollowers]
      split
      · exact .error _
      · exact .ok (.left cell)
  | succ links ih =>
    cases tokens with
    | nil =>
      rw [List.nil_append, attachFollowers_tail ends]
      exact .ok (.left .nil)
    | cons placed tokens =>
      rw [List.cons_append, attachFollowers, attachFollowers]
      split
      · next follows =>
        have more : CellTokens tokens :=
          cell.of_cons fun category ↦ by simp [category, Category.follows] at follows
        apply (withFollower_beside stays ends levels base placed.token more).bind
        rintro ⟨base, after⟩ _ ⟨cell⟩
        exact ih base cell
      · exact .ok (.left cell)

omit stays ends in
/-- The inside of a bracket is the same with a tail behind the bracket. -/
theorem bracketRegion_beside (leading : List Formula) {opener : Placed}
    (cell : CellTokens (opener :: tokens)) (opens : opener.category = .opener) :
    SameUpTo (Beside tail) (bracketRegion deeper leading opener.token tokens)
      (bracketRegion deeper leading opener.token (tokens ++ tail)) := by
  obtain ⟨region, more, matched⟩ := cell.exists_region opens
  have alone := matched []
  rw [List.append_nil, List.append_nil] at alone
  unfold bracketRegion
  rw [alone, matched tail]
  dsimp only
  split
  · cases grid (deeper true) true leading region.inside with
    | error cause => exact .error cause
    | ok cells =>
      dsimp only [bind, Except.bind]
      generalize cells.toMatrix _ _ _ = found
      cases found with
      | none => exact .error _
      | some found => exact .ok (.left more)
  · cases sequence (deeper true) region.inside with
    | error cause => exact .error cause
    | ok body => exact .ok (.left more)

theorem optionalScripts_beside (operator : Token) (cell : CellTokens tokens) :
    SameUpTo (Beside tail) (optionalScripts deeper operator tokens)
      (optionalScripts deeper operator (tokens ++ tail)) := by
  have scripts := leadingScript?_beside ends (fun _ ↦ true) cell
  unfold optionalScripts
  generalize leadingScript? (fun _ ↦ true) tokens = found,
    leadingScript? (fun _ ↦ true) (tokens ++ tail) = other at scripts ⊢
  cases scripts with
  | none => exact .ok (.left cell)
  | some scripts =>
    obtain @⟨script, behind, more⟩ := scripts
    apply (strippedOperand_beside stays ends more).bind
    rintro ⟨first, after⟩ _ ⟨cell⟩
    -- The second script may be the first thing behind the cell, but a separator is none.
    have scripts := leadingScript?_beside ends (isAbove · != isAbove script) cell
    dsimp only at scripts ⊢
    generalize leadingScript? (isAbove · != isAbove script) after = found,
      leadingScript? (isAbove · != isAbove script) (after ++ tail) = other at scripts ⊢
    cases scripts with
    | none => exact .ok (.left cell)
    | some scripts =>
      obtain ⟨more⟩ := scripts
      apply (strippedOperand_beside stays ends more).bind
      rintro _ _ ⟨cell⟩
      exact .ok (.left cell)

theorem derivativeOrder_beside (cell : CellTokens tokens) :
    SameUpTo (Beside tail) (derivativeOrder deeper tokens)
      (derivativeOrder deeper (tokens ++ tail)) := by
  have scripts := leadingScript?_beside ends isAbove cell
  unfold derivativeOrder
  generalize leadingScript? isAbove tokens = found,
    leadingScript? isAbove (tokens ++ tail) = other at scripts ⊢
  cases scripts with
  | none => exact .ok (.left cell)
  | some scripts =>
    obtain ⟨more⟩ := scripts
    apply (strippedOperand_beside stays ends more).bind
    rintro _ _ ⟨cell⟩
    exact .ok (.left cell)

theorem derivativeTerms_beside (levels : Nat) {placed : Placed}
    (cell : CellTokens (placed :: tokens)) :
    SameUpTo (Beside tail) (derivativeTerms deeper levels placed tokens)
      (derivativeTerms deeper levels placed (tokens ++ tail)) := by
  rw [derivativeTerms, derivativeTerms]
  apply (stays false placed tokens cell).bind
  rintro ⟨term, after⟩ _ ⟨cell⟩
  dsimp only
  split
  · exact .ok (.left cell)
  · apply (attachScripts_beside stays ends levels term cell).bind
    rintro _ _ ⟨cell⟩
    exact .ok (.left cell)

theorem derivativeOf_beside (levels : Nat) (operator : Token) (cell : CellTokens tokens) :
    SameUpTo (Beside tail) (derivativeOf deeper levels operator tokens)
      (derivativeOf deeper levels operator (tokens ++ tail)) := by
  rw [derivativeOf, derivativeOf]
  apply (derivativeOrder_beside stays ends cell).bind
  rintro ⟨order, middle⟩ _ ⟨cell⟩
  apply (strippedOperand_beside stays ends cell).bind
  rintro ⟨function, rest⟩ _ ⟨cell⟩
  cases rest with
  | nil =>
    -- Behind the cell is no variable either.
    cases tail with
    | nil => exact .ok (.left .nil)
    | cons next tail =>
      have other : startsVariable next.category = false := by rw [ends next rfl]; rfl
      simp only [List.nil_append, other]
      exact .ok (.left .nil)
  | cons next rest =>
    dsimp only [List.cons_append]
    split
    · apply (derivativeTerms_beside stays ends levels cell).bind
      rintro _ _ ⟨cell⟩
      exact .ok (.left cell)
    · exact .ok (.left cell)

omit stays in
theorem ofLeaf_beside (token : Token) (cell : CellTokens tokens) :
    SameUpTo (Beside tail) (ofLeaf deeper token tokens) (ofLeaf deeper token (tokens ++ tail)) := by
  cases tokens with
  | nil =>
    cases tail with
    | nil => exact .ok (.left .nil)
    | cons next tail =>
      rw [List.nil_append, ofLeaf, ofLeaf, if_neg (by simp [ends next rfl])]
      exact .ok (.left .nil)
  | cons next tokens =>
    rw [List.cons_append, ofLeaf, ofLeaf]
    split
    · next ruled =>
      have opens : next.category = .opener := by simp_all
      exact bracketRegion_beside [ofToken token] cell opens
    · exact .ok (.left cell)

theorem readAlone_beside (levels : Nat) {placed : Placed} (cell : CellTokens (placed :: tokens)) :
    SameUpTo (Beside tail) (readAlone deeper levels placed tokens)
      (readAlone deeper levels placed (tokens ++ tail)) := by
  have plain := cell.plain
  by_cases opens : placed.category = .opener
  · have group := @bracketRegion_beside deeper tokens tail [] placed cell opens
    unfold readAlone
    dsimp only
    rwa [show placed.token.category = .opener from opens]
  · have more := cell.of_cons opens
    unfold readAlone
    dsimp only
    cases category : placed.token.category with
    | constant | letter | text | number | run => exact ofLeaf_beside ends placed.token more
    | opener => exact absurd category opens
    | closer | separator | bar => simp [Placed.category, category] at plain
    | script | prefixUnary =>
      apply (strippedOperand_beside stays ends more).bind
      rintro _ _ ⟨cell⟩
      exact .ok (.left cell)
    | prefixBinary =>
      apply (strippedOperand_beside stays ends more).bind
      rintro _ _ ⟨cell⟩
      apply (strippedOperand_beside stays ends cell).bind
      rintro _ _ ⟨cell⟩
      exact .ok (.left cell)
    | sign =>
      dsimp only
      split
      · apply (operand_beside stays ends more).bind
        rintro _ _ ⟨cell⟩
        exact .ok (.left cell)
      · exact .ok (.left more)
    | optionalScripts => exact optionalScripts_beside stays ends placed.token more
    | derivative => exact derivativeOf_beside stays ends levels placed.token more
    | alignMark | infixOp | postfixOp => exact .ok (.left more)
    | unused => exact .error _

end

theorem read_stays {tail : List Placed} (ends : CellEnd tail) (levels : Nat) :
    Stays tail (read levels) := by
  -- A reader calls others only a level below.
  induction levels with
  | zero => exact fun followed placed tokens cell ↦ .error _
  | succ levels ih =>
    intro followed placed tokens cell
    rw [read, read]
    apply (readAlone_beside ih ends levels cell).bind
    rintro ⟨formula, after⟩ _ ⟨cell⟩
    cases followed with
    | true => exact attachFollowers_beside ih ends levels levels formula cell
    | false => exact .ok (.left cell)

end Formula

end AsciiMath
