import AsciiMath.Proofs.Token.Place
import AsciiMath.Proofs.Token.Scan

/-!
# Numerals

A numeral is made of ASCII digits with at most one point among them or at either end. What is read
as a number is the longest numeral at its place, and where none stands nothing is read.
-/

namespace AsciiMath

structure IsNumeral (text : List Char) : Prop where
  numeric : ∀ c ∈ text, c.isDigit ∨ c = '.'
  points : text.count '.' ≤ 1
  digit : ∃ c ∈ text, c.isDigit

theorem IsNumeral.ne_nil {text : List Char} (h : IsNumeral text) : text ≠ [] := by
  rintro rfl
  obtain ⟨c, hc, -⟩ := h.digit
  simp at hc

/-- A second point ends a numeral. -/
theorem IsNumeral.ne_point {front back : List Char} {c : Char}
    (h : IsNumeral (front ++ c :: back)) (point : '.' ∈ front) : c ≠ '.' := by
  rintro rfl
  have first := List.count_pos_iff.2 point
  have points := h.points
  rw [List.count_append, List.count_cons_self] at points
  omega

theorem eq_append_cons_of_isPrefix {longer front back : List Char}
    (h : longer <+: front ++ back) (long : front.length < longer.length) :
    ∃ c cs rest, longer = front ++ c :: cs ∧ back = c :: rest := by
  have hfront : front <+: longer :=
    List.prefix_of_prefix_length_le (List.prefix_append front back) h (Nat.le_of_lt long)
  obtain ⟨beyond, rfl⟩ := hfront
  obtain ⟨rest, hrest⟩ := h
  rw [List.append_assoc] at hrest
  obtain rfl := List.append_cancel_left hrest
  cases beyond with
  | nil => simp at long
  | cons c cs => exact ⟨c, cs, cs ++ rest, rfl, rfl⟩

namespace Cursor

theorem count_point_takeWhile (text : List Char) :
    (text.takeWhile Char.isDigit).count '.' = 0 := by
  rw [List.count_eq_zero]
  intro point
  exact absurd (isDigit_of_mem_takeWhile point) (by decide)

theorem exists_isDigit_takeWhile {text : List Char} (h : text.takeWhile Char.isDigit ≠ []) :
    ∃ c ∈ text.takeWhile Char.isDigit, c.isDigit := by
  obtain ⟨c, hc⟩ := List.exists_mem_of_ne_nil _ h
  exact ⟨c, hc, isDigit_of_mem_takeWhile hc⟩

theorem count_point_numeral (text : List Char) : (numeral text).1.count '.' ≤ 1 := by
  unfold numeral
  dsimp only
  split
  · split
    · simp
    · simp [List.count_append, count_point_takeWhile]
  · rw [count_point_takeWhile]
    exact Nat.zero_le 1

theorem exists_isDigit_numeral {text : List Char} (h : (numeral text).1 ≠ []) :
    ∃ c ∈ (numeral text).1, c.isDigit := by
  revert h
  unfold numeral
  dsimp only
  split
  · next back hback =>
    split
    · exact fun h ↦ absurd rfl h
    · next digits =>
      intro _
      rw [Bool.not_eq_true, Bool.and_eq_false_iff, List.isEmpty_eq_false_iff,
        List.isEmpty_eq_false_iff] at digits
      rcases digits with whole | fraction
      · obtain ⟨c, hc, hdigit⟩ := exists_isDigit_takeWhile whole
        exact ⟨c, List.mem_append_left _ hc, hdigit⟩
      · obtain ⟨c, hc, hdigit⟩ := exists_isDigit_takeWhile fraction
        exact ⟨c, List.mem_append_right _ (List.mem_cons_of_mem _ hc), hdigit⟩
  · exact exists_isDigit_takeWhile

theorem isNumeral_numeral {text : List Char} (h : (numeral text).1 ≠ []) :
    IsNumeral (numeral text).1 :=
  ⟨numeric_of_mem_numeral, count_point_numeral text, exists_isDigit_numeral h⟩

/-- A numeral goes no further than the digits, a point and more digits. -/
theorem isPrefix_of_point {text longer back : List Char}
    (hback : text.dropWhile Char.isDigit = '.' :: back) (h : longer <+: text)
    (isNumeral : IsNumeral longer) :
    longer <+: text.takeWhile Char.isDigit ++ '.' :: back.takeWhile Char.isDigit := by
  have parts : text.takeWhile Char.isDigit ++ '.' :: back.takeWhile Char.isDigit ++
      back.dropWhile Char.isDigit = text := by
    rw [List.append_assoc, List.cons_append, List.takeWhile_append_dropWhile, ← hback,
      List.takeWhile_append_dropWhile]
  rw [← parts] at h
  refine List.prefix_of_prefix_length_le h (List.prefix_append _ _) ?_
  by_contra long
  obtain ⟨c, cs, rest, rfl, hrest⟩ := eq_append_cons_of_isPrefix h (Nat.lt_of_not_le long)
  rcases isNumeral.numeric c (by simp) with digit | point
  · rw [Text.eq_false_of_dropWhile hrest] at digit
    exact Bool.false_ne_true digit
  · exact isNumeral.ne_point (by simp) point

/-- No numeral at the same place is longer. -/
theorem length_le_numeral {text longer : List Char} (h : longer <+: text)
    (isNumeral : IsNumeral longer) : longer.length ≤ (numeral text).1.length := by
  have whole := List.takeWhile_append_dropWhile (p := Char.isDigit) (l := text)
  unfold numeral
  dsimp only
  split
  · next back hback =>
    have within := isPrefix_of_point hback h isNumeral
    split
    · next bare =>
      rw [Bool.and_eq_true, List.isEmpty_iff, List.isEmpty_iff] at bare
      rw [bare.1, bare.2, List.nil_append] at within
      obtain ⟨c, hc, digit⟩ := isNumeral.digit
      obtain rfl := List.mem_singleton.1 (within.subset hc)
      exact absurd digit (by decide)
    · exact within.length_le
  · next plain =>
    by_contra long
    rw [← whole] at h
    obtain ⟨c, cs, rest, rfl, hrest⟩ := eq_append_cons_of_isPrefix h (Nat.lt_of_not_le long)
    rcases isNumeral.numeric c (by simp) with digit | rfl
    · rw [Text.eq_false_of_dropWhile hrest] at digit
      exact Bool.false_ne_true digit
    · exact plain _ hrest

theorem numeral?_eq_none_iff {cursor : Cursor} :
    cursor.numeral? = none ↔ ∀ front, front <+: cursor.rest → ¬ IsNumeral front := by
  have longest := @length_le_numeral cursor.rest
  have isNumeral := @isNumeral_numeral cursor.rest
  have parts := numeral_append cursor.rest
  unfold numeral?
  split
  · next hnumeral =>
    rw [hnumeral] at longest
    refine iff_of_true rfl fun front h numeral ↦ numeral.ne_nil ?_
    exact List.length_eq_zero_iff.1 (Nat.le_zero.1 (longest h numeral))
  · next front back nonempty hnumeral =>
    rw [hnumeral] at isNumeral parts
    refine iff_of_false (by simp) fun none ↦ none front ⟨back, parts⟩ (isNumeral nonempty)

end Cursor

end AsciiMath
