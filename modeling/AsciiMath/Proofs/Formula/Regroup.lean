import AsciiMath.Proofs.Formula.Group

/-!
# The kind of the brackets around an operand

An operand loses its brackets, so it does not matter of which kind they are. Behind a script or a
prefix operator such brackets are always those of an operand, whatever the operator stands in. A
reader that looks ahead passes over them, and what it finds behind them is found behind brackets of
another kind as well.
-/

namespace AsciiMath

/-- An operand also loses any other such opener and closer in their place. -/
theorem Token.GroupBrackets.replace {opener closer : Token} (brackets : GroupBrackets opener closer)
    {left right : String} (opens : left ∈ Formula.groupOpeners)
    (closes : right ∈ Formula.groupClosers) (leftTex rightTex : String) :
    GroupBrackets { opener with value := left, template := leftTex }
      { closer with value := right, template := rightTex } :=
  ⟨brackets.opens, brackets.closes, opens, closes⟩

namespace Placed

/-- The same operand in brackets of two kinds, with the same tokens behind it. -/
inductive SameOperand : List Placed → List Placed → Prop where
  | group {opener opener' closer closer' : Placed} {inside : List Placed}
      (brackets : Token.GroupBrackets opener.token closer.token)
      (brackets' : Token.GroupBrackets opener'.token closer'.token)
      (position : opener.token.position = opener'.token.position)
      (balanced : Region.depthAfter? 0 inside = some 0)
      (rowless : Region.hasRows 0 inside = false) (after : List Placed) :
      SameOperand (opener :: (inside ++ closer :: after)) (opener' :: (inside ++ closer' :: after))

/-- Lists that differ at most in the kind of the brackets behind a script or a prefix operator. -/
inductive Regrouped : List Placed → List Placed → Prop where
  | nil : Regrouped [] []
  | cons (placed : Placed) {tokens others : List Placed} (more : Regrouped tokens others) :
      Regrouped (placed :: tokens) (placed :: others)
  | operand {operator : Placed}
      (operates : operator.category = .script ∨ operator.category = .prefixUnary)
      {tokens others : List Placed} (same : SameOperand tokens others) :
      Regrouped (operator :: tokens) (operator :: others)

theorem SameOperand.length_eq {tokens others : List Placed} (h : SameOperand tokens others) :
    tokens.length = others.length := by
  cases h with
  | group => simp

namespace Regrouped

variable {placed : Placed} {tokens others : List Placed}

theorem refl (tokens : List Placed) : Regrouped tokens tokens := by
  induction tokens with
  | nil => exact .nil
  | cons placed tokens ih => exact .cons placed ih

theorem length_eq (h : Regrouped tokens others) : tokens.length = others.length := by
  induction h with
  | nil => rfl
  | cons placed more ih => rw [List.length_cons, List.length_cons, ih]
  | operand operates same => rw [List.length_cons, List.length_cons, same.length_eq]

theorem append (front : List Placed) (h : Regrouped tokens others) :
    Regrouped (front ++ tokens) (front ++ others) := by
  induction front with
  | nil => exact h
  | cons placed front ih => exact .cons placed ih

/-- Both lists are empty, or both begin with the same token. -/
theorem exists_cons (h : Regrouped tokens others) :
    tokens = [] ∧ others = [] ∨
      ∃ placed more more', tokens = placed :: more ∧ others = placed :: more' := by
  cases h with
  | nil => exact .inl ⟨rfl, rfl⟩
  | cons placed more => exact .inr ⟨placed, _, _, rfl, rfl⟩
  | @operand operator operates tokens others same => exact .inr ⟨operator, _, _, rfl, rfl⟩

/-- The brackets may be those right behind the first token. -/
theorem behind (h : Regrouped (placed :: tokens) (placed :: others)) :
    Regrouped tokens others ∨ SameOperand tokens others := by
  cases h with
  | cons placed more => exact .inl more
  | operand operates same => exact .inr same

theorem tail (h : Regrouped (placed :: tokens) (placed :: others))
    (other : ¬ (placed.category = .script ∨ placed.category = .prefixUnary)) :
    Regrouped tokens others := by
  cases h with
  | cons placed more => exact more
  | operand operates => exact absurd operates other

end Regrouped

theorem ofTokens_regrouped (front : List Token) {operator opener opener' closer closer' : Token}
    (operates : operator.category = .script ∨ operator.category = .prefixUnary)
    (brackets : Token.GroupBrackets opener closer) (brackets' : Token.GroupBrackets opener' closer')
    (position : opener.position = opener'.position) {inside : List Token}
    (matched : Token.Matched inside)
    (rowless : ∀ token, Token.Outside inside token → ¬ token.isRowSeparator) (back : List Token) :
    Regrouped (ofTokens (front ++ operator :: opener :: (inside ++ closer :: back)))
      (ofTokens (front ++ operator :: opener' :: (inside ++ closer' :: back))) := by
  have unruled : Region.hasRows 0 (follow false inside) = false := by
    rw [Bool.eq_false_iff, ne_eq, Token.hasRows_iff, map_token_follow]
    rintro ⟨token, outside, row⟩
    exact rowless token outside row
  rw [ofTokens, ofTokens, follow_append, follow_append, follow,
    follow_group _ brackets.opens brackets.closes, follow,
    follow_group _ brackets'.opens brackets'.closes]
  refine .append _ (.operand ?_ (.group ?_ ?_ ?_ (matched.depthAfter? false) unruled _))
  exacts [operates, brackets, brackets', position]

end Placed

open Placed (Regrouped SameOperand)

namespace Region

variable {front inside tokens others : List Placed} {opener closer : Placed}

def growByGroup (opener : Placed) (inside : List Placed) (closer : Placed) (region : Region) :
    Region :=
  { region with inside := opener :: (inside ++ closer :: region.inside) }

section

variable (opens : opener.category = .opener) (closes : closer.category = .closer)
  (balanced : depthAfter? 0 inside = some 0)

include opens closes balanced

theorem ofBrackets?_group (depth : Nat) (after : List Placed) :
    ofBrackets? depth (opener :: (inside ++ closer :: after)) =
      (ofBrackets? depth after).map (growByGroup opener inside closer) := by
  have inner : depthAfter? (depth + 1) inside = some (depth + 1) := by
    simpa using depthAfter?_add balanced (depth + 1)
  calc
    _ = (ofBrackets? (depth + 1) (inside ++ closer :: after)).map (grow opener) := by
      rw [ofBrackets?_cons, nextDepth?_of_opener opens]
    _ = ((ofBrackets? (depth + 1) (closer :: after)).map (growBy inside)).map (grow opener) := by
      rw [ofBrackets?_append inner]
    _ = (((ofBrackets? depth after).map (grow closer)).map (growBy inside)).map
        (grow opener) := by
      rw [ofBrackets?_cons, closes, nextDepth?]
    _ = _ := by
      rw [Option.map_map, Option.map_map]
      rfl

theorem ofBars?_group (bar : String) (depth : Nat) (after : List Placed) :
    ofBars? bar depth (opener :: (inside ++ closer :: after)) =
      (ofBars? bar depth after).map (growByGroup opener inside closer) := by
  have inner : depthAfter? depth inside = some depth := by
    simpa using depthAfter?_add balanced depth
  calc
    _ = (ofBars? bar (depth + 1) (inside ++ closer :: after)).map (grow opener) := by
      simp [ofBars?_cons, nextDepth?, opens]
    _ = ((ofBars? bar (depth + 1) (closer :: after)).map (growBy inside)).map (grow opener) := by
      rw [ofBars?_append bar inner]
    _ = (((ofBars? bar depth after).map (grow closer)).map (growBy inside)).map
        (grow opener) := by
      simp [ofBars?_cons, nextDepth?, closes]
    _ = _ := by
      rw [Option.map_map, Option.map_map]
      rfl

end

theorem nextDepth?_of_operates {category : Category}
    (operates : category = .script ∨ category = .prefixUnary) (depth : Nat) :
    nextDepth? category depth = some depth := by
  rcases operates with rfl | rfl <;> rfl

theorem hasRows_append_congr {back back' : List Placed}
    (same : ∀ depth, hasRows depth back = hasRows depth back') (depth : Nat) :
    hasRows depth (front ++ back) = hasRows depth (front ++ back') := by
  induction front generalizing depth with
  | nil => exact same depth
  | cons token front ih =>
    rw [List.cons_append, List.cons_append, hasRows, hasRows]
    split <;> simp only [ih]

/-- Regions that differ at most in the kind of the brackets behind an operator. -/
structure Regrouped (region other : Region) : Prop where
  inside : Placed.Regrouped region.inside other.inside
  closer : region.closer = other.closer
  after : Placed.Regrouped region.after other.after

theorem grow_regrouped (placed : Placed) {region region' : Option Region}
    (regrouped : Option.Rel Regrouped region region') :
    Option.Rel Regrouped (region.map (grow placed)) (region'.map (grow placed)) := by
  cases regrouped with
  | none => exact .none
  | some same => exact .some ⟨.cons placed same.inside, same.closer, same.after⟩

/-- A region that begins behind the operand has it in front in both lists. -/
theorem grow_sameOperand {operator : Placed}
    (operates : operator.category = .script ∨ operator.category = .prefixUnary)
    {opener opener' closer closer' : Placed} (same : ∀ after, SameOperand
      (opener :: (inside ++ closer :: after)) (opener' :: (inside ++ closer' :: after)))
    (region : Option Region) :
    Option.Rel Regrouped ((region.map (growByGroup opener inside closer)).map (grow operator))
      ((region.map (growByGroup opener' inside closer')).map (grow operator)) := by
  cases region with
  | none => exact .none
  | some region => exact .some ⟨.operand operates (same _), rfl, .refl _⟩

theorem ofBrackets?_regrouped (regrouped : Placed.Regrouped tokens others) (depth : Nat) :
    Option.Rel Regrouped (ofBrackets? depth tokens) (ofBrackets? depth others) := by
  induction regrouped generalizing depth with
  | nil => exact .none
  | cons placed more ih =>
    rw [ofBrackets?_cons, ofBrackets?_cons]
    split
    · exact .some ⟨.nil, rfl, more⟩
    · exact grow_regrouped placed (ih _)
  | @operand operator operates tokens others same =>
    rw [ofBrackets?_cons, ofBrackets?_cons, nextDepth?_of_operates operates]
    cases same with
    | group brackets brackets' position balanced rowless after =>
      -- Both groups are passed over, and the search goes on in the same tokens.
      dsimp only
      rw [ofBrackets?_group brackets.opens brackets.closes balanced,
        ofBrackets?_group brackets'.opens brackets'.closes balanced]
      exact grow_sameOperand operates (.group brackets brackets' position balanced rowless) _

theorem ofBars?_regrouped (bar : String) (regrouped : Placed.Regrouped tokens others)
    (depth : Nat) : Option.Rel Regrouped (ofBars? bar depth tokens) (ofBars? bar depth others) := by
  induction regrouped generalizing depth with
  | nil => exact .none
  | cons placed more ih =>
    rw [ofBars?_cons, ofBars?_cons]
    split
    · exact .none
    · split
      · exact .some ⟨.nil, rfl, more⟩
      · exact grow_regrouped placed (ih _)
  | @operand operator operates tokens others same =>
    have noBar : ¬ (operator.category = .bar ∧ depth = 0 ∧ operator.token.value = bar) :=
      fun h ↦ by simp [h.1] at operates
    rw [ofBars?_cons, ofBars?_cons, nextDepth?_of_operates operates]
    dsimp only
    rw [if_neg noBar, if_neg noBar]
    cases same with
    | group brackets brackets' position balanced rowless after =>
      rw [ofBars?_group brackets.opens brackets.closes balanced,
        ofBars?_group brackets'.opens brackets'.closes balanced]
      exact grow_sameOperand operates (.group brackets brackets' position balanced rowless) _

theorem hasRows_regrouped (regrouped : Placed.Regrouped tokens others) (depth : Nat) :
    hasRows depth tokens = hasRows depth others := by
  induction regrouped generalizing depth with
  | nil => rfl
  | cons placed more ih =>
    rw [hasRows, hasRows]
    split <;> simp only [ih]
  | @operand operator operates tokens others same =>
    have behind (depth : Nat) : hasRows depth tokens = hasRows depth others := by
      cases same with
      | group brackets brackets' =>
        rw [hasRows, hasRows, Placed.category, Placed.category, brackets.opens, brackets'.opens]
        refine hasRows_append_congr (fun depth ↦ ?_) (depth + 1)
        rw [hasRows, hasRows, Placed.category, Placed.category, brackets.closes, brackets'.closes]
    rw [hasRows, hasRows]
    split <;> simp only [behind]

end Region

/-- The same was read, and what is left may differ in the kind of brackets. -/
inductive ReadRegrouped {α : Type} : α × List Placed → α × List Placed → Prop where
  | same {found : α} {after after' : List Placed} (regrouped : Regrouped after after') :
      ReadRegrouped (found, after) (found, after')

namespace Formula

/-- With the given number of levels the kind of the brackets around operands is not seen. -/
def Regroups (levels : Nat) : Prop :=
  ∀ (followed : Bool) (placed : Placed) (tokens others : List Placed),
    Regrouped (placed :: tokens) (placed :: others) →
      SameUpTo ReadRegrouped (read levels followed placed tokens)
        (read levels followed placed others)

/-- An operand is the same in brackets of either kind, and it is too deep at the same place. -/
theorem strippedOperand_sameOperand (levels : Nat) {tokens others : List Placed}
    (same : SameOperand tokens others) :
    strippedOperand (read levels) tokens = strippedOperand (read levels) others := by
  cases same with
  | group brackets brackets' position balanced rowless after =>
    cases levels with
    | zero =>
      simp [strippedOperand, operand, Placed.category, brackets.opens, brackets'.opens, read,
        position]
    | succ levels =>
      rw [strippedOperand_group brackets balanced rowless,
        strippedOperand_group brackets' balanced rowless]

section

variable {levels : Nat} (regroups : Regroups levels) {placed : Placed}
  {tokens others : List Placed}

include regroups

theorem operand_regrouped (regrouped : Regrouped tokens others) :
    SameUpTo ReadRegrouped (operand (read levels) tokens) (operand (read levels) others) := by
  obtain ⟨rfl, rfl⟩ | ⟨placed, tokens, others, rfl, rfl⟩ := regrouped.exists_cons
  · exact .ok ⟨.nil⟩
  · rw [operand, operand]
    split
    · exact .ok ⟨regrouped⟩
    · exact regroups false placed tokens others regrouped

theorem strippedOperand_regrouped
    (regrouped : Regrouped tokens others ∨ SameOperand tokens others) :
    SameUpTo ReadRegrouped (strippedOperand (read levels) tokens)
      (strippedOperand (read levels) others) := by
  rcases regrouped with regrouped | same
  · apply (operand_regrouped regroups regrouped).bind
    rintro _ _ ⟨more⟩
    exact .ok ⟨more⟩
  · rw [strippedOperand_sameOperand levels same]
    exact .refl (fun _ ↦ ⟨.refl _⟩) _

theorem attachScripts_regrouped (links : Nat) (base : Formula)
    (regrouped : Regrouped tokens others) :
    SameUpTo ReadRegrouped (attachScripts (read levels) links base tokens)
      (attachScripts (read levels) links base others) := by
  induction links generalizing base tokens others with
  | zero =>
    obtain ⟨rfl, rfl⟩ | ⟨placed, tokens, others, rfl, rfl⟩ := regrouped.exists_cons
    · exact .ok ⟨.nil⟩
    · rw [attachScripts, attachScripts]
      split
      · exact .error _
      · exact .ok ⟨regrouped⟩
  | succ links ih =>
    obtain ⟨rfl, rfl⟩ | ⟨placed, tokens, others, rfl, rfl⟩ := regrouped.exists_cons
    · exact .ok ⟨.nil⟩
    · rw [attachScripts, attachScripts]
      split
      · apply (strippedOperand_regrouped regroups regrouped.behind).bind
        rintro _ _ ⟨more⟩
        exact ih _ more
      · exact .ok ⟨regrouped⟩

theorem withFollower_regrouped (links : Nat) (base : Formula) (follows : placed.category.follows)
    (regrouped : Regrouped (placed :: tokens) (placed :: others)) :
    SameUpTo ReadRegrouped (withFollower (read levels) links base placed.token tokens)
      (withFollower (read levels) links base placed.token others) := by
  unfold withFollower
  split
  · apply (strippedOperand_regrouped regroups regrouped.behind).bind
    rintro _ _ ⟨more⟩
    exact .ok ⟨more⟩
  · next category =>
    have more := regrouped.tail (by simp [Placed.category, category])
    apply (operand_regrouped regroups more).bind
    rintro _ _ ⟨after⟩
    apply (attachScripts_regrouped regroups links _ after).bind
    rintro _ _ ⟨last⟩
    exact .ok ⟨last⟩
  · next notScript _ =>
    -- Of the followers only a script has brackets behind it that may differ.
    refine .ok ⟨regrouped.tail fun operates ↦ ?_⟩
    rcases operates with category | category
    · exact notScript category
    · simp [category, Category.follows] at follows

theorem attachFollowers_regrouped (links : Nat) (base : Formula)
    (regrouped : Regrouped tokens others) :
    SameUpTo ReadRegrouped (attachFollowers (read levels) levels links base tokens)
      (attachFollowers (read levels) levels links base others) := by
  induction links generalizing base tokens others with
  | zero =>
    obtain ⟨rfl, rfl⟩ | ⟨placed, tokens, others, rfl, rfl⟩ := regrouped.exists_cons
    · exact .ok ⟨.nil⟩
    · rw [attachFollowers, attachFollowers]
      split
      · exact .error _
      · exact .ok ⟨regrouped⟩
  | succ links ih =>
    obtain ⟨rfl, rfl⟩ | ⟨placed, tokens, others, rfl, rfl⟩ := regrouped.exists_cons
    · exact .ok ⟨.nil⟩
    · rw [attachFollowers, attachFollowers]
      split
      · next follows =>
        apply (withFollower_regrouped regroups levels base follows regrouped).bind
        rintro _ _ ⟨more⟩
        exact ih _ more
      · exact .ok ⟨regrouped⟩

theorem readEach_regrouped (fuel : Nat) (regrouped : Regrouped tokens others) :
    SameUpTo (· = ·) (readEach (read levels true) fuel tokens)
      (readEach (read levels true) fuel others) := by
  induction fuel generalizing tokens others with
  | zero =>
    obtain ⟨rfl, rfl⟩ | ⟨placed, tokens, others, rfl, rfl⟩ := regrouped.exists_cons <;>
      exact .ok rfl
  | succ fuel ih =>
    obtain ⟨rfl, rfl⟩ | ⟨placed, tokens, others, rfl, rfl⟩ := regrouped.exists_cons
    · exact .ok rfl
    · rw [readEach, readEach]
      apply (regroups true placed tokens others regrouped).bind
      rintro _ _ ⟨more⟩
      apply (ih more).bind
      rintro found _ rfl
      exact .ok rfl

theorem sequence_regrouped (regrouped : Regrouped tokens others) :
    SameUpTo (· = ·) (sequence (read levels true) tokens) (sequence (read levels true) others) := by
  rw [sequence, sequence, regrouped.length_eq]
  exact readEach_regrouped regroups _ regrouped

theorem readPieces_regrouped (ruled : Bool) (fuel : Nat) (cellBegun : Bool)
    (regrouped : Regrouped tokens others) :
    SameUpTo (· = ·) (readPieces (read levels true) ruled fuel cellBegun tokens)
      (readPieces (read levels true) ruled fuel cellBegun others) := by
  induction fuel generalizing cellBegun tokens others with
  | zero =>
    obtain ⟨rfl, rfl⟩ | ⟨placed, tokens, others, rfl, rfl⟩ := regrouped.exists_cons <;>
      exact .ok rfl
  | succ fuel ih =>
    obtain ⟨rfl, rfl⟩ | ⟨placed, tokens, others, rfl, rfl⟩ := regrouped.exists_cons
    · exact .ok rfl
    · rw [readPieces, readPieces]
      split
      · next ends =>
        -- What ends a cell takes no operand.
        have more : Regrouped tokens others := regrouped.tail fun operates ↦ by
          rcases operates with category | category <;>
            simp [endsCell, show placed.token.category = _ from category] at ends
        exact (ih false more).map fun _ _ same ↦ congrArg _ same
      · apply (regroups true placed tokens others regrouped).bind
        rintro _ _ ⟨more⟩
        apply (ih true more).bind
        rintro found _ rfl
        exact .ok rfl

theorem grid_regrouped (ruled : Bool) (leading : List Formula)
    (regrouped : Regrouped tokens others) :
    SameUpTo (· = ·) (grid (read levels true) ruled leading tokens)
      (grid (read levels true) ruled leading others) := by
  rw [grid, grid, regrouped.length_eq]
  exact (readPieces_regrouped regroups ruled _ _ regrouped).map fun _ _ same ↦ congrArg _ same

theorem bracketRegion_regrouped (leading : List Formula) (opener : Token)
    (regrouped : Regrouped tokens others) :
    SameUpTo ReadRegrouped (bracketRegion (read levels) leading opener tokens)
      (bracketRegion (read levels) leading opener others) := by
  have regions := Region.ofBrackets?_regrouped regrouped 0
  unfold bracketRegion
  generalize Region.ofBrackets? 0 tokens = found, Region.ofBrackets? 0 others = other at regions ⊢
  cases regions with
  | none =>
    apply (sequence_regrouped regroups regrouped).bind
    rintro found _ rfl
    exact .ok ⟨.nil⟩
  | @some region region' regions =>
    dsimp only
    rw [Region.hasRows_regrouped regions.inside, regions.closer]
    split
    · apply (grid_regrouped regroups true leading regions.inside).bind
      rintro found _ rfl
      split
      · exact .ok ⟨regions.after⟩
      · exact .error _
    · apply (sequence_regrouped regroups regions.inside).bind
      rintro found _ rfl
      exact .ok ⟨regions.after⟩

theorem barRegion_regrouped (bar : Token) (regrouped : Regrouped tokens others) :
    SameUpTo ReadRegrouped (barRegion (read levels) bar tokens)
      (barRegion (read levels) bar others) := by
  have regions := Region.ofBars?_regrouped bar.value regrouped 0
  unfold barRegion
  generalize Region.ofBars? bar.value 0 tokens = found,
    Region.ofBars? bar.value 0 others = other at regions ⊢
  cases regions with
  | none => exact .ok ⟨regrouped⟩
  | @some region region' regions =>
    dsimp only
    rw [Region.hasRows_regrouped regions.inside]
    split
    · apply (grid_regrouped regroups false [] regions.inside).bind
      rintro found _ rfl
      split
      · exact .ok ⟨regions.after⟩
      · exact .error _
    · apply (sequence_regrouped regroups regions.inside).bind
      rintro found _ rfl
      exact .ok ⟨regions.after⟩

omit regroups in
/-- Behind a leading script there may be the brackets of its operand. -/
theorem leadingScript?_regrouped (wanted : Token → Bool) (regrouped : Regrouped tokens others) :
    Option.Rel (fun found other ↦ found.1 = other.1 ∧
        (Regrouped found.2 other.2 ∨ SameOperand found.2 other.2))
      (leadingScript? wanted tokens) (leadingScript? wanted others) := by
  obtain ⟨rfl, rfl⟩ | ⟨placed, tokens, others, rfl, rfl⟩ := regrouped.exists_cons
  · exact .none
  · rw [leadingScript?, leadingScript?]
    split
    · exact .some ⟨rfl, regrouped.behind⟩
    · exact .none

theorem optionalScripts_regrouped (operator : Token) (regrouped : Regrouped tokens others) :
    SameUpTo ReadRegrouped (optionalScripts (read levels) operator tokens)
      (optionalScripts (read levels) operator others) := by
  have scripts := leadingScript?_regrouped (fun _ ↦ true) regrouped
  unfold optionalScripts
  generalize leadingScript? (fun _ ↦ true) tokens = found,
    leadingScript? (fun _ ↦ true) others = other at scripts ⊢
  cases scripts with
  | none => exact .ok ⟨regrouped⟩
  | @some found other scripts =>
    obtain ⟨here, more⟩ := scripts
    dsimp only
    rw [here]
    apply (strippedOperand_regrouped regroups more).bind
    rintro _ _ (@⟨first, after, after', left⟩)
    have scripts := leadingScript?_regrouped (isAbove · != isAbove other.1) left
    dsimp only
    generalize leadingScript? (isAbove · != isAbove other.1) after = found,
      leadingScript? (isAbove · != isAbove other.1) after' = other' at scripts ⊢
    cases scripts with
    | none => exact .ok ⟨left⟩
    | some scripts =>
      apply (strippedOperand_regrouped regroups scripts.2).bind
      rintro _ _ ⟨last⟩
      exact .ok ⟨last⟩

theorem derivativeOrder_regrouped (regrouped : Regrouped tokens others) :
    SameUpTo ReadRegrouped (derivativeOrder (read levels) tokens)
      (derivativeOrder (read levels) others) := by
  have scripts := leadingScript?_regrouped isAbove regrouped
  unfold derivativeOrder
  generalize leadingScript? isAbove tokens = found, leadingScript? isAbove others = other
    at scripts ⊢
  cases scripts with
  | none => exact .ok ⟨regrouped⟩
  | some scripts =>
    obtain ⟨here, more⟩ := scripts
    dsimp only
    rw [here]
    apply (strippedOperand_regrouped regroups more).bind
    rintro _ _ ⟨after⟩
    exact .ok ⟨after⟩

theorem derivativeTerms_regrouped (links : Nat)
    (regrouped : Regrouped (placed :: tokens) (placed :: others)) :
    SameUpTo ReadRegrouped (derivativeTerms (read levels) links placed tokens)
      (derivativeTerms (read levels) links placed others) := by
  rw [derivativeTerms, derivativeTerms]
  apply (regroups false placed tokens others regrouped).bind
  rintro _ _ ⟨after⟩
  dsimp only
  split
  · exact .ok ⟨after⟩
  · apply (attachScripts_regrouped regroups links _ after).bind
    rintro _ _ ⟨last⟩
    exact .ok ⟨last⟩

theorem derivativeOf_regrouped (links : Nat) (operator : Token)
    (regrouped : Regrouped tokens others) :
    SameUpTo ReadRegrouped (derivativeOf (read levels) links operator tokens)
      (derivativeOf (read levels) links operator others) := by
  rw [derivativeOf, derivativeOf]
  apply (derivativeOrder_regrouped regroups regrouped).bind
  rintro _ _ ⟨ordered⟩
  apply (strippedOperand_regrouped regroups (.inl ordered)).bind
  rintro _ _ ⟨applied⟩
  obtain ⟨rfl, rfl⟩ | ⟨placed, tokens, others, rfl, rfl⟩ := applied.exists_cons
  · exact .ok ⟨.nil⟩
  · dsimp only
    split
    · apply (derivativeTerms_regrouped regroups links applied).bind
      rintro _ _ ⟨last⟩
      exact .ok ⟨last⟩
    · exact .ok ⟨applied⟩

theorem ofLeaf_regrouped (token : Token) (regrouped : Regrouped tokens others) :
    SameUpTo ReadRegrouped (ofLeaf (read levels) token tokens)
      (ofLeaf (read levels) token others) := by
  obtain ⟨rfl, rfl⟩ | ⟨placed, tokens, others, rfl, rfl⟩ := regrouped.exists_cons
  · exact .ok ⟨.nil⟩
  · rw [ofLeaf, ofLeaf]
    split
    · next draws =>
      have opens : placed.category = .opener := by simp_all
      exact bracketRegion_regrouped regroups _ _ (regrouped.tail (by simp [opens]))
    · exact .ok ⟨regrouped⟩

theorem readAlone_regrouped (links : Nat)
    (regrouped : Regrouped (placed :: tokens) (placed :: others)) :
    SameUpTo ReadRegrouped (readAlone (read levels) links placed tokens)
      (readAlone (read levels) links placed others) := by
  have more (other : ¬ (placed.token.category = .script ∨ placed.token.category = .prefixUnary)) :
      Regrouped tokens others := regrouped.tail other
  unfold readAlone
  dsimp only
  cases category : placed.token.category with
  | constant | letter | text | number | run =>
    exact ofLeaf_regrouped regroups _ (more (by simp [category]))
  | opener => exact bracketRegion_regrouped regroups [] _ (more (by simp [category]))
  | bar => exact barRegion_regrouped regroups _ (more (by simp [category]))
  | script | prefixUnary =>
    apply (strippedOperand_regrouped regroups regrouped.behind).bind
    rintro _ _ ⟨after⟩
    exact .ok ⟨after⟩
  | prefixBinary =>
    apply (strippedOperand_regrouped regroups regrouped.behind).bind
    rintro _ _ ⟨after⟩
    apply (strippedOperand_regrouped regroups (.inl after)).bind
    rintro _ _ ⟨last⟩
    exact .ok ⟨last⟩
  | sign =>
    dsimp only
    split
    · apply (operand_regrouped regroups (more (by simp [category]))).bind
      rintro _ _ ⟨after⟩
      exact .ok ⟨after⟩
    · exact .ok ⟨more (by simp [category])⟩
  | optionalScripts => exact optionalScripts_regrouped regroups _ (more (by simp [category]))
  | derivative => exact derivativeOf_regrouped regroups links _ (more (by simp [category]))
  | separator | alignMark => exact .ok ⟨more (by simp [category])⟩
  | closer => exact .ok ⟨more (by simp [category])⟩
  | infixOp | postfixOp => exact .ok ⟨more (by simp [category])⟩
  | unused => exact .error _

end

theorem read_regroups (levels : Nat) : Regroups levels := by
  -- A reader calls others only a level below.
  induction levels with
  | zero => exact fun followed placed tokens others regrouped ↦ .error _
  | succ levels ih =>
    intro followed placed tokens others regrouped
    rw [read, read]
    apply (readAlone_regrouped ih levels regrouped).bind
    rintro _ _ ⟨alone⟩
    cases followed with
    | true => exact attachFollowers_regrouped ih levels _ alone
    | false => exact .ok ⟨alone⟩

/-- The brackets of an operand can be replaced by others that it loses, of whichever kind the opener
and the closer are. The formula stays the same, or the error does. -/
theorem ofTokens_regroup (front : List Token) {operator opener closer : Token}
    (operates : operator.category = .script ∨ operator.category = .prefixUnary)
    (brackets : Token.GroupBrackets opener closer) {inside : List Token}
    (matched : Token.Matched inside)
    (rowless : ∀ token, Token.Outside inside token → ¬ token.isRowSeparator) (back : List Token)
    {left right : String} (opens : left ∈ groupOpeners) (closes : right ∈ groupClosers)
    (leftTex rightTex : String) :
    ofTokens (front ++ operator :: { opener with value := left, template := leftTex } ::
        (inside ++ { closer with value := right, template := rightTex } :: back)) =
      ofTokens (front ++ operator :: opener :: (inside ++ closer :: back)) := by
  have regrouped := Placed.ofTokens_regrouped front operates
    (brackets.replace opens closes leftTex rightTex) brackets rfl matched rowless back
  rw [ofTokens, ofTokens, (sequence_regrouped (read_regroups maxLevels) regrouped).eq]

/-- The brackets of an exponent may be mixed, also where the power stands between bars. -/
theorem ofTokens_regroup_power :
    let bar : Token := ⟨"|", "|", .bar, true, none, ⟨1, 1⟩⟩
    let x : Token := .literal ['x'] .run ⟨1, 2⟩
    let power : Token := ⟨"^", "^\x7b $1 \x7d", .script, true, none, ⟨1, 3⟩⟩
    let inside : List Token := [⟨"-", "-", .sign, true, none, ⟨1, 5⟩⟩, .literal ['y'] .run ⟨1, 6⟩]
    ofTokens ([bar, x] ++ power :: ⟨"\x7b:", "\\left.", .opener, true, none, ⟨1, 4⟩⟩ ::
        (inside ++ ⟨"]", "\\right]", .closer, true, none, ⟨1, 7⟩⟩ :: [bar])) =
      ofTokens ([bar, x] ++ power :: ⟨"(", "\\left(", .opener, true, none, ⟨1, 4⟩⟩ ::
        (inside ++ ⟨")", "\\right)", .closer, true, none, ⟨1, 7⟩⟩ :: [bar])) := by
  intro bar x power inside
  have brackets : Token.GroupBrackets ⟨"(", "\\left(", .opener, true, none, ⟨1, 4⟩⟩
      ⟨")", "\\right)", .closer, true, none, ⟨1, 7⟩⟩ := ⟨rfl, rfl, by decide, by decide⟩
  have rowless : ∀ labelled ∈ Token.depths 0 inside, ¬ labelled.1.isRowSeparator := by decide
  exact ofTokens_regroup [bar, x] (.inl rfl) brackets (by decide)
    (fun token outside ↦ rowless (token, 0) outside) [bar] (by decide) (by decide) "\\left."
    "\\right]"

end Formula

end AsciiMath
