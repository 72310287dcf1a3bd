import AsciiMath.Formula.TokenCursor
import AsciiMath.Proofs.Formula.Outcome

/-!
# What is ahead of a cursor

A cursor stands for the tokens of its region that it has not passed. Whatever it can see without
moving is told by this list: the next token, whether there is an operand before it, and where the
bracket or bar closes that begins the region. A cursor that is put into the inside of a region has
the inside ahead of it, and behind the closer it has what is left.
-/

namespace AsciiMath

namespace Placed

theorem getElem?_follow {leads : Bool} {tokens : List Token} {index : Nat} {placed : Placed}
    (h : (follow leads tokens)[index]? = some placed) :
    tokens[index]? = some placed.token ∧
      (if index = 0 then some leads else tokens[index - 1]?.map (·.category.takesOperand)) =
        some placed.leads := by
  induction tokens generalizing leads index with
  | nil => simp [follow] at h
  | cons token tokens ih =>
    cases index with
    | zero =>
      obtain rfl := Option.some.inj h
      exact ⟨rfl, rfl⟩
    | succ index =>
      obtain ⟨found, looked⟩ := ih h
      refine ⟨found, ?_⟩
      cases index with
      | zero => exact looked
      | succ index => exact looked

theorem length_ofTokens (tokens : List Token) : (ofTokens tokens).length = tokens.length := by
  rw [← List.length_map, map_token_ofTokens]

end Placed

namespace TokenCursor

variable {cursor : TokenCursor}

/-- The tokens of the region that the cursor has not passed. -/
def ahead (cursor : TokenCursor) : List Placed :=
  ((Placed.ofTokens cursor.tokens.toList).take cursor.stop).drop cursor.place

/-- The cursor is in its region, which ends within so many tokens, and so many levels are left. -/
structure Ready (levels size : Nat) (cursor : TokenCursor) : Prop where
  place_le : cursor.place ≤ cursor.stop
  stop_le : cursor.stop ≤ cursor.tokens.size
  size_le : cursor.tokens.size ≤ size
  depth_add : cursor.depth + levels = maxLevels

theorem ahead_congr {other : TokenCursor} (tokens : other.tokens = cursor.tokens)
    (stop : other.stop = cursor.stop) (place : other.place = cursor.place) :
    other.ahead = cursor.ahead := by
  simp only [ahead, tokens, stop, place]

theorem map_token_ahead (cursor : TokenCursor) :
    cursor.ahead.map (·.token) = (cursor.tokens.extract cursor.place cursor.stop).toList := by
  rw [ahead, List.map_drop, List.map_take, Placed.map_token_ofTokens, Array.toList_extract,
    List.extract_eq_take_drop, List.drop_take]

theorem length_ahead (within : cursor.stop ≤ cursor.tokens.size) :
    cursor.ahead.length = cursor.stop - cursor.place := by
  rw [ahead, List.length_drop, List.length_take, Placed.length_ofTokens, Array.length_toList,
    Nat.min_eq_left within]

theorem ahead_eq_nil (within : cursor.stop ≤ cursor.tokens.size) :
    cursor.ahead = [] ↔ cursor.stop ≤ cursor.place := by
  rw [← List.length_eq_zero_iff, length_ahead within, Nat.sub_eq_zero_iff_le]

theorem getElem?_ahead {index : Nat} {placed : Placed} (h : cursor.ahead[index]? = some placed) :
    (Placed.ofTokens cursor.tokens.toList)[cursor.place + index]? = some placed := by
  rw [ahead, List.getElem?_drop, List.getElem?_take] at h
  split at h
  · exact h
  · cases h

theorem token_of_ahead {index : Nat} {placed : Placed} (h : cursor.ahead[index]? = some placed) :
    cursor.tokens[cursor.place + index]? = some placed.token := by
  rw [← Array.getElem?_toList]
  exact (Placed.getElem?_follow (getElem?_ahead h)).1

theorem token_of_ahead_cons {placed : Placed} {rest : List Placed}
    (h : cursor.ahead = placed :: rest) : cursor.tokens[cursor.place]? = some placed.token := by
  have here : cursor.ahead[0]? = some placed := by rw [h]; rfl
  exact token_of_ahead here

theorem leads?_of_ahead {placed : Placed} {rest : List Placed} (h : cursor.ahead = placed :: rest) :
    cursor.leads? = some placed.leads := by
  have here : cursor.ahead[0]? = some placed := by rw [h]; rfl
  have looked := (Placed.getElem?_follow (getElem?_ahead here)).2
  rw [Nat.add_zero] at looked
  rw [leads?, ← Array.getElem?_toList]
  exact looked

theorem place_lt_of_ahead {placed : Placed} {rest : List Placed}
    (within : cursor.stop ≤ cursor.tokens.size) (h : cursor.ahead = placed :: rest) :
    cursor.place < cursor.stop := by
  have length := length_ahead within
  rw [h, List.length_cons] at length
  omega

theorem next?_eq (within : cursor.stop ≤ cursor.tokens.size) :
    cursor.next? = some (cursor.ahead.head?.map (·.token)) := by
  rw [next?, if_pos within]
  cases h : cursor.ahead with
  | nil => rw [if_neg ((ahead_eq_nil within).1 h).not_gt]; rfl
  | cons placed rest => rw [if_pos (place_lt_of_ahead within h), token_of_ahead_cons h]; rfl

/-- A cursor behind some of the tokens ahead. -/
theorem ahead_goTo (cursor : TokenCursor) (count : Nat) :
    (cursor.goTo (cursor.place + count)).ahead = cursor.ahead.drop count := by
  rw [ahead, ahead, List.drop_drop]
  rfl

theorem ahead_step {placed : Placed} {rest : List Placed} (h : cursor.ahead = placed :: rest) :
    cursor.step.ahead = rest := by
  rw [step, ahead_goTo, h]
  rfl

theorem ahead_upTo {count : Nat} (inside : cursor.place + count ≤ cursor.stop) :
    (cursor.upTo (cursor.place + count)).ahead = cursor.ahead.take count := by
  have shorter : (cursor.upTo (cursor.place + count)).ahead =
      ((Placed.ofTokens cursor.tokens.toList).take (cursor.place + count)).drop cursor.place := rfl
  rw [shorter, ahead, List.drop_take, List.drop_take, List.take_take]
  congr 1
  omega

/-- A count of brackets decides whether a token closes the region. -/
theorem closing?_cons {closes : Token → Bool}
    (closers : ∀ token, closes token → token.category ≠ .opener) (depth : Nat) (rows : Bool)
    (index : Nat) (token : Token) (tokens : List Token) :
    closing? closes depth rows index (token :: tokens) =
      if depth = 0 ∧ closes token then some ⟨index, rows⟩
      else match Region.nextDepth? token.category depth with
        | none => none
        | some next =>
          closing? closes next (rows || (depth == 0 && token.isRowSeparator)) (index + 1)
            tokens := by
  have opens := closers token
  have opener : token.category = .opener → token.isRowSeparator = false := fun category ↦ by
    simp [Token.isRowSeparator, category]
  cases category : token.category <;> cases depth <;> cases found : closes token <;>
    simp_all [closing?, Region.nextDepth?]

theorem hasRows_cons {depth next : Nat} {placed : Placed}
    (h : Region.nextDepth? placed.category depth = some next) (tokens : List Placed) :
    Region.hasRows depth (placed :: tokens) =
      ((depth == 0 && placed.token.isRowSeparator) || Region.hasRows next tokens) := by
  cases category : placed.category <;> cases depth <;>
    simp_all [Region.hasRows, Region.nextDepth?, Token.isRowSeparator, Placed.category]

/-- The extent of a region that begins at an index. -/
def extentAt (index : Nat) (rows : Bool) (depth : Nat) (region : Region) : Extent :=
  ⟨index + region.inside.length, rows || Region.hasRows depth region.inside⟩

theorem extentAt_grow {depth next : Nat} {placed : Placed}
    (h : Region.nextDepth? placed.category depth = some next) (index : Nat) (rows : Bool)
    (region : Region) :
    extentAt index rows depth (Region.grow placed region) =
      extentAt (index + 1) (rows || (depth == 0 && placed.token.isRowSeparator)) next region := by
  simp only [extentAt, Region.grow, hasRows_cons h, List.length_cons, Bool.or_assoc]
  congr 1
  omega

theorem closing?_brackets (depth : Nat) (rows : Bool) (index : Nat) (tokens : List Placed) :
    closing? closesBracket depth rows index (tokens.map (·.token)) =
      (Region.ofBrackets? depth tokens).map (extentAt index rows depth) := by
  induction tokens generalizing depth rows index with
  | nil => rfl
  | cons placed tokens ih =>
    have closers : ∀ token, closesBracket token → token.category ≠ .opener := by
      simp +contextual [closesBracket]
    rw [List.map_cons, closing?_cons closers, Region.ofBrackets?_cons]
    cases hnext : Region.nextDepth? placed.token.category depth with
    | none =>
      obtain ⟨category, rfl⟩ := Region.nextDepth?_eq_none.1 hnext
      have hplaced : Region.nextDepth? placed.category 0 = none := hnext
      rw [if_pos ⟨rfl, by simpa [closesBracket] using category⟩, hplaced]
      simp [extentAt, Region.hasRows]
    | some next =>
      have open' : ¬ (depth = 0 ∧ closesBracket placed.token = true) := by
        rintro ⟨rfl, closes⟩
        simp only [closesBracket, decide_eq_true_eq] at closes
        simp [closes, Region.nextDepth?] at hnext
      have hplaced : Region.nextDepth? placed.category depth = some next := hnext
      rw [if_neg open', hplaced]
      simp only [ih, Option.map_map, Function.comp_def, extentAt_grow hplaced]

theorem closing?_bars (bar : Token) (depth : Nat) (rows : Bool) (index : Nat)
    (tokens : List Placed) :
    closing? (closesBar bar) depth rows index (tokens.map (·.token)) =
      (Region.ofBars? bar.value depth tokens).map (extentAt index rows depth) := by
  induction tokens generalizing depth rows index with
  | nil => rfl
  | cons placed tokens ih =>
    have closers : ∀ token, closesBar bar token → token.category ≠ .opener := by
      simp +contextual [closesBar]
    rw [List.map_cons, closing?_cons closers, Region.ofBars?_cons]
    cases hnext : Region.nextDepth? placed.token.category depth with
    | none =>
      obtain ⟨category, rfl⟩ := Region.nextDepth?_eq_none.1 hnext
      have hplaced : Region.nextDepth? placed.category 0 = none := hnext
      rw [hplaced]
      simp [closesBar, category]
    | some next =>
      have hplaced : Region.nextDepth? placed.category depth = some next := hnext
      rw [hplaced]
      by_cases closes : depth = 0 ∧ closesBar bar placed.token = true
      · rw [if_pos closes]
        obtain ⟨rfl, closes⟩ := closes
        simp only [closesBar, Bool.and_eq_true, decide_eq_true_eq] at closes
        simp [Placed.category, closes, extentAt, Region.hasRows]
      · have other : ¬ (placed.category = .bar ∧ depth = 0 ∧ placed.token.value = bar.value) := by
          simpa [closesBar, Placed.category, and_left_comm] using closes
        rw [if_neg closes]
        simp only [if_neg other, ih, Option.map_map, Function.comp_def, extentAt_grow hplaced]

theorem extent?_brackets (within : cursor.stop ≤ cursor.tokens.size) :
    cursor.extent? closesBracket =
      some ((Region.ofBrackets? 0 cursor.ahead).map (extentAt cursor.place false 0)) := by
  rw [extent?, if_pos within, ← map_token_ahead, closing?_brackets]

theorem extent?_bars (bar : Token) (within : cursor.stop ≤ cursor.tokens.size) :
    cursor.extent? (closesBar bar) =
      some ((Region.ofBars? bar.value 0 cursor.ahead).map (extentAt cursor.place false 0)) := by
  rw [extent?, if_pos within, ← map_token_ahead, closing?_bars]

end TokenCursor

end AsciiMath
