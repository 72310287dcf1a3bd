import AsciiMath.Formula.Placed
import Mathlib.Data.List.Basic

/-!
# Matched brackets and bars

A region splits the tokens it is found in: what stands inside, its closer, and what is left. The
brackets inside it match one another, so a count of open brackets that starts at zero never has to
go below zero there and is at zero again at the closer.
-/

namespace AsciiMath.Region

/-- How many brackets are open behind a token; none if it closes one that was not opened. -/
def nextDepth? : Category → Nat → Option Nat
  | .opener, depth => some (depth + 1)
  | .closer, 0 => none
  | .closer, depth + 1 => some depth
  | _, depth => some depth

def depthAfter? (depth : Nat) (tokens : List Placed) : Option Nat :=
  tokens.foldlM (fun depth token ↦ nextDepth? token.category depth) depth

theorem depthAfter?_nil (depth : Nat) : depthAfter? depth [] = some depth := rfl

theorem depthAfter?_cons {depth next : Nat} {token : Placed}
    (h : nextDepth? token.category depth = some next) (tokens : List Placed) :
    depthAfter? depth (token :: tokens) = depthAfter? next tokens := by
  simp [depthAfter?, h]

theorem nextDepth?_eq_none {category : Category} {depth : Nat} :
    nextDepth? category depth = none ↔ category = .closer ∧ depth = 0 := by
  unfold nextDepth?
  split <;> simp_all

theorem ofBrackets?_cons (depth : Nat) (token : Placed) (tokens : List Placed) :
    ofBrackets? depth (token :: tokens) =
      match nextDepth? token.category depth with
      | none => some ⟨[], token, tokens⟩
      | some next => (ofBrackets? next tokens).map (grow token) := by
  cases hcategory : token.category <;> cases depth <;> simp [ofBrackets?, nextDepth?, hcategory]

theorem ofBars?_cons (bar : String) (depth : Nat) (token : Placed) (tokens : List Placed) :
    ofBars? bar depth (token :: tokens) =
      match nextDepth? token.category depth with
      | none => none
      | some next =>
        if token.category = .bar ∧ depth = 0 ∧ token.token.value = bar then
          some ⟨[], token, tokens⟩
        else (ofBars? bar next tokens).map (grow token) := by
  cases hcategory : token.category <;> cases depth <;> simp [ofBars?, nextDepth?, hcategory]

theorem ofBrackets?_eq_some {depth : Nat} {tokens : List Placed} {region : Region}
    (h : ofBrackets? depth tokens = some region) :
    tokens = region.inside ++ region.closer :: region.after ∧
      region.closer.category = .closer ∧ depthAfter? depth region.inside = some 0 := by
  induction tokens generalizing depth region with
  | nil => simp [ofBrackets?] at h
  | cons token tokens ih =>
    rw [ofBrackets?_cons] at h
    cases hnext : nextDepth? token.category depth with
    | none =>
      obtain ⟨hcloser, rfl⟩ := nextDepth?_eq_none.1 hnext
      rw [hnext] at h
      obtain rfl := Option.some.inj h
      exact ⟨rfl, hcloser, depthAfter?_nil 0⟩
    | some next =>
      rw [hnext] at h
      obtain ⟨found, hfound, rfl⟩ := Option.map_eq_some_iff.1 h
      obtain ⟨rfl, hcloser, hdepth⟩ := ih hfound
      exact ⟨rfl, hcloser, (depthAfter?_cons hnext _).trans hdepth⟩

theorem ofBars?_eq_some {bar : String} {depth : Nat} {tokens : List Placed} {region : Region}
    (h : ofBars? bar depth tokens = some region) :
    tokens = region.inside ++ region.closer :: region.after ∧
      region.closer.category = .bar ∧ region.closer.token.value = bar ∧
        depthAfter? depth region.inside = some 0 := by
  induction tokens generalizing depth region with
  | nil => simp [ofBars?] at h
  | cons token tokens ih =>
    rw [ofBars?_cons] at h
    cases hnext : nextDepth? token.category depth with
    | none => simp [hnext] at h
    | some next =>
      rw [hnext] at h
      dsimp only at h
      split at h
      · next hbar =>
        obtain rfl := Option.some.inj h
        obtain ⟨hcategory, rfl, hvalue⟩ := hbar
        exact ⟨rfl, hcategory, hvalue, depthAfter?_nil 0⟩
      · obtain ⟨found, hfound, rfl⟩ := Option.map_eq_some_iff.1 h
        obtain ⟨rfl, hcategory, hvalue, hdepth⟩ := ih hfound
        exact ⟨rfl, hcategory, hvalue, (depthAfter?_cons hnext _).trans hdepth⟩

theorem ne_nil_of_hasRows {depth : Nat} {tokens : List Placed} (h : hasRows depth tokens) :
    tokens ≠ [] := by
  rintro rfl
  simp [hasRows] at h

end AsciiMath.Region
