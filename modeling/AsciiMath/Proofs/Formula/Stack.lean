import AsciiMath.Proofs.Formula.Reads
import Mathlib.Data.List.Induction

/-!
# Brackets on a stack

A list of brackets and leaves can be read in one pass, with a stack of the brackets that are open. A
closer takes the innermost open bracket with all that stands behind it, and brackets that are still
open at the end are closed there. Where the depth of the stack is limited, a list is read to its end
or to the first token inside too many brackets.
-/

namespace AsciiMath

/-- A bracket, or a leaf that takes nothing in from what follows it. -/
def Token.Plain (token : Token) : Prop :=
  token.category = .opener ∨ token.category = .closer ∨
    token.category.isLeaf ∧ token.flag ≠ some .rowRule

instance (token : Token) : Decidable token.Plain := inferInstanceAs (Decidable (_ ∨ _))

open Formula

inductive BracketStack where
  | bottom (contents : List Formula)
  /-- An opener that is not closed, and what stands behind it so far. -/
  | bracket (outer : BracketStack) (opener : Token) (contents : List Formula)

namespace BracketStack

/-- How many brackets are open. -/
def depth : BracketStack → Nat
  | bottom _ => 0
  | bracket outer _ _ => outer.depth + 1

def add : BracketStack → List Formula → BracketStack
  | bottom contents, more => bottom (contents ++ more)
  | bracket outer opener contents, more => bracket outer opener (contents ++ more)

def strayCloser (closer : Token) : Formula := .leaf ("\\left. " ++ closer.template) closer.value

def close : BracketStack → Token → BracketStack
  | bottom contents, closer => bottom (contents ++ [strayCloser closer])
  | bracket outer opener contents, closer =>
    outer.add [.flat (ofToken opener :: contents ++ [ofToken closer])]

def push (stack : BracketStack) (token : Token) : BracketStack :=
  match token.category with
  | .opener => bracket stack token []
  | .closer => stack.close token
  | _ => stack.add [ofToken token]

def ofTokens (tokens : List Token) : BracketStack := tokens.foldl push (bottom [])

/-- All that was read, if the innermost group ends with the given formulas. -/
def endWith : BracketStack → List Formula → List Formula
  | bottom contents, more => contents ++ more
  | bracket outer opener contents, more =>
    outer.endWith [.flat (ofToken opener :: (contents ++ more) ++ [.leaf "\\right." ""])]

/-- Brackets that are still open get invisible closers. -/
def formulas (stack : BracketStack) : List Formula := stack.endWith []

theorem add_add (stack : BracketStack) (first second : List Formula) :
    (stack.add first).add second = stack.add (first ++ second) := by
  cases stack <;> simp [add]

@[simp] theorem depth_add (stack : BracketStack) (more : List Formula) :
    (stack.add more).depth = stack.depth := by
  cases stack <;> rfl

@[simp] theorem endWith_add (stack : BracketStack) (first second : List Formula) :
    (stack.add first).endWith second = stack.endWith (first ++ second) := by
  cases stack <;> simp [add, endWith]

theorem depth_push {stack : BracketStack} {token : Token} {next : Nat}
    (h : Region.nextDepth? token.category stack.depth = some next) :
    (stack.push token).depth = next := by
  unfold push
  split
  · next category =>
    rw [category] at h
    exact Option.some.inj h
  · next category =>
    rw [category] at h
    cases stack with
    | bottom contents => simp [depth, Region.nextDepth?] at h
    | bracket outer opener contents =>
      rw [close, depth_add]
      exact Option.some.inj h
  · rw [depth_add]
    unfold Region.nextDepth? at h
    split at h <;> simp_all

/-- A stack put onto another one, whose innermost group goes on with the first contents. -/
def onto (outer : BracketStack) : BracketStack → BracketStack
  | bottom contents => outer.add contents
  | bracket stack opener contents => bracket (outer.onto stack) opener contents

theorem depth_onto (outer stack : BracketStack) :
    (outer.onto stack).depth = stack.depth + outer.depth := by
  induction stack with
  | bottom contents => rw [onto, depth_add, depth, Nat.zero_add]
  | bracket stack opener contents ih => rw [onto, depth, depth, ih, Nat.add_right_comm]

theorem onto_add (outer stack : BracketStack) (more : List Formula) :
    outer.onto (stack.add more) = (outer.onto stack).add more := by
  cases stack with
  | bottom contents => rw [add, onto, onto, add_add]
  | bracket stack opener contents => rfl

theorem endWith_onto (outer stack : BracketStack) (more : List Formula) :
    (outer.onto stack).endWith more = outer.endWith (stack.endWith more) := by
  induction stack generalizing more with
  | bottom contents => rw [onto, endWith_add, endWith]
  | bracket stack opener contents ih => rw [onto, endWith, ih, endWith]

theorem formulas_onto (outer stack : BracketStack) :
    (outer.onto stack).formulas = outer.endWith stack.formulas := endWith_onto outer stack []

/-- What a token does to a stack does not depend on what is below if it takes nothing from there. -/
theorem onto_push {outer stack : BracketStack} {token : Token}
    (h : outer.depth = 0 ∨ Region.nextDepth? token.category stack.depth ≠ none) :
    outer.onto (stack.push token) = (outer.onto stack).push token := by
  unfold push
  split
  · rfl
  · next category =>
    cases stack with
    | bottom contents =>
      cases outer with
      | bottom before => simp [close, onto, add]
      | bracket outer opener before => simp [category, depth, Region.nextDepth?] at h
    | bracket stack opener contents => exact onto_add outer stack _
  · exact onto_add outer stack _

/-- A token that is read has to be inside fewer brackets than there are levels. A closer that closes
a bracket is not read by itself. -/
def Admits (levels : Nat) (stack : BracketStack) (token : Token) : Prop :=
  stack.depth < levels ∨ token.category = .closer ∧ 0 < stack.depth

instance (levels : Nat) (stack : BracketStack) (token : Token) :
    Decidable (Admits levels stack token) := inferInstanceAs (Decidable (_ ∨ _))

def push? (levels : Nat) (stack : BracketStack) (placed : Placed) :
    Except ConversionError BracketStack :=
  if Admits levels stack placed.token then .ok (stack.push placed.token)
  else .error (.nestingTooDeep placed.token.position)

def run (levels : Nat) (stack : BracketStack) (tokens : List Placed) :
    Except ConversionError BracketStack := tokens.foldlM (push? levels) stack

variable {levels : Nat} {stack : BracketStack} {placed : Placed} {tokens : List Placed}

theorem run_cons (fits : Admits levels stack placed.token) (tokens : List Placed) :
    run levels stack (placed :: tokens) = run levels (stack.push placed.token) tokens := by
  rw [run, List.foldlM_cons, push?, if_pos fits]
  rfl

theorem run_cons_eq_error (deep : ¬ Admits levels stack placed.token) (tokens : List Placed) :
    run levels stack (placed :: tokens) = .error (.nestingTooDeep placed.token.position) := by
  rw [run, List.foldlM_cons, push?, if_neg deep]
  rfl

theorem run_append (levels : Nat) (stack : BracketStack) (front back : List Placed) :
    run levels stack (front ++ back) = run levels stack front >>= (run levels · back) :=
  List.foldlM_append

/-- If the stack below has open brackets, none of these may be closed. -/
theorem run_onto {outer : BracketStack}
    (h : outer.depth = 0 ∨ Region.depthAfter? stack.depth tokens ≠ none) :
    run (levels + outer.depth) (outer.onto stack) tokens =
      (run levels stack tokens).map outer.onto := by
  induction tokens generalizing stack with
  | nil => rfl
  | cons placed tokens ih =>
    have here : outer.depth = 0 ∨ Region.nextDepth? placed.category stack.depth ≠ none := by
      refine h.imp_right fun h hnone ↦ h ?_
      simp [Region.depthAfter?, hnone]
    have fits : Admits (levels + outer.depth) (outer.onto stack) placed.token ↔
        Admits levels stack placed.token := by
      have hdepth := depth_onto outer stack
      unfold Admits
      rcases here with hzero | hsome
      · rw [hdepth, hzero, Nat.add_zero, Nat.add_zero]
      · rw [hdepth]
        rw [Ne, Region.nextDepth?_eq_none] at hsome
        have category : placed.token.category = placed.category := rfl
        rw [category]
        by_cases hcloser : placed.category = .closer
        · simp only [hcloser, true_and] at hsome ⊢
          omega
        · simp only [hcloser, false_and, or_false]
          omega
    by_cases hfits : Admits levels stack placed.token
    · rw [run_cons hfits, run_cons (fits.2 hfits), ← onto_push here]
      refine ih (h.imp_right fun h ↦ ?_)
      cases hnext : Region.nextDepth? placed.category stack.depth with
      | none => simp [Region.depthAfter?, hnext] at h
      | some next =>
        rw [Region.depthAfter?_cons hnext] at h
        rwa [depth_push hnext]
    · rw [run_cons_eq_error hfits, run_cons_eq_error (mt fits.1 hfits)]
      rfl

theorem depth_of_run {result : BracketStack} {depth : Nat}
    (h : run levels stack tokens = .ok result)
    (hdepth : Region.depthAfter? stack.depth tokens = some depth) : result.depth = depth := by
  induction tokens generalizing stack with
  | nil =>
    obtain rfl := Except.ok.inj h
    exact Option.some.inj hdepth
  | cons placed tokens ih =>
    by_cases fits : Admits levels stack placed.token
    · rw [run_cons fits] at h
      cases hnext : Region.nextDepth? placed.category stack.depth with
      | none => simp [Region.depthAfter?, hnext] at hdepth
      | some next =>
        rw [Region.depthAfter?_cons hnext, ← depth_push hnext] at hdepth
        exact ih h hdepth
    · rw [run_cons_eq_error fits] at h
      cases h

/-- Every leaf and every opener stands inside fewer open brackets. -/
def Shallow (levels : Nat) (tokens : List Token) : Prop :=
  ∀ front token back, tokens = front ++ token :: back → token.category ≠ .closer →
    (ofTokens front).depth < levels

theorem ofTokens_concat (tokens : List Token) (token : Token) :
    ofTokens (tokens ++ [token]) = (ofTokens tokens).push token := by
  rw [ofTokens, List.foldl_append]
  rfl

theorem depth_ofTokens_le (tokens : List Token) : (ofTokens tokens).depth ≤ tokens.length := by
  induction tokens using List.reverseRecOn with
  | nil => exact Nat.le_refl 0
  | append_singleton tokens token ih =>
    have hpush : ((ofTokens tokens).push token).depth ≤ (ofTokens tokens).depth + 1 := by
      unfold push
      split
      · exact Nat.le_refl _
      · cases ofTokens tokens <;> simp [close, depth]
        omega
      · simp
    rw [ofTokens_concat, List.length_append]
    exact Nat.le_trans hpush (Nat.succ_le_succ ih)

theorem shallow_of_length_le {levels : Nat} {tokens : List Token} (h : tokens.length ≤ levels) :
    Shallow levels tokens := by
  rintro front token back rfl -
  have := depth_ofTokens_le front
  rw [List.length_append, List.length_cons] at h
  omega

theorem shallow_concat {levels : Nat} {tokens : List Token} {token : Token} :
    Shallow levels (tokens ++ [token]) ↔ Shallow levels tokens ∧
      (token.category ≠ .closer → (ofTokens tokens).depth < levels) := by
  constructor
  · intro h
    refine ⟨?_, h tokens token [] rfl⟩
    rintro front earlier back rfl
    exact h front earlier (back ++ [token]) (by simp)
  · rintro ⟨h, last⟩ front earlier back split
    rcases List.eq_nil_or_concat back with rfl | ⟨back, final, rfl⟩
    · obtain ⟨rfl, hlast⟩ := List.append_inj' split rfl
      obtain rfl := List.head_eq_of_cons_eq hlast
      exact last
    · rw [List.concat_eq_append, ← List.cons_append, ← List.append_assoc] at split
      exact h front earlier back (List.append_inj' split rfl).1

/-- Of the tokens that stand too deep one is the first. -/
theorem exists_first {levels : Nat} {tokens : List Token} (h : ¬ Shallow levels tokens) :
    ∃ front token back, tokens = front ++ token :: back ∧ token.category ≠ .closer ∧
      Shallow levels front ∧ levels ≤ (ofTokens front).depth := by
  induction tokens using List.reverseRecOn with
  | nil => exact absurd (shallow_of_length_le (Nat.zero_le levels)) h
  | append_singleton tokens token ih =>
    by_cases earlier : Shallow levels tokens
    · have deep : token.category ≠ .closer ∧ levels ≤ (ofTokens tokens).depth := by
        simpa [shallow_concat, earlier] using h
      exact ⟨tokens, token, [], rfl, deep.1, earlier, deep.2⟩
    · obtain ⟨front, first, back, rfl, first_spec⟩ := ih earlier
      exact ⟨front, first, back ++ [token], by simp, first_spec⟩

theorem admits_iff {levels : Nat} (positive : 0 < levels) {stack : BracketStack} {token : Token} :
    Admits levels stack token ↔ (token.category ≠ .closer → stack.depth < levels) := by
  unfold Admits
  by_cases category : token.category = .closer
  · simp only [category, true_and, ne_eq, not_true, false_imp_iff, iff_true]
    omega
  · simp [category]

theorem run_eq_ok {levels : Nat} (positive : 0 < levels) {tokens : List Placed}
    (h : Shallow levels (tokens.map (·.token))) :
    run levels (bottom []) tokens = .ok (ofTokens (tokens.map (·.token))) := by
  induction tokens using List.reverseRecOn with
  | nil => rfl
  | append_singleton tokens placed ih =>
    rw [List.map_append, List.map_singleton, shallow_concat, ← admits_iff positive] at h
    obtain ⟨earlier, fits⟩ := h
    rw [run_append, ih earlier, List.map_append, List.map_singleton, ofTokens_concat]
    exact run_cons fits []

theorem run_eq_error {levels : Nat} (positive : 0 < levels) {front : List Placed} {placed : Placed}
    (earlier : Shallow levels (front.map (·.token))) (category : placed.token.category ≠ .closer)
    (deep : levels ≤ (ofTokens (front.map (·.token))).depth) (back : List Placed) :
    run levels (bottom []) (front ++ placed :: back) =
      .error (.nestingTooDeep placed.token.position) := by
  have refused : ¬ Admits levels (ofTokens (front.map (·.token))) placed.token :=
    fun fits ↦ absurd ((admits_iff positive).1 fits category) (Nat.not_lt.2 deep)
  rw [run_append, run_eq_ok positive earlier]
  exact run_cons_eq_error refused back

end BracketStack

end AsciiMath
