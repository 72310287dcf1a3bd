import AsciiMath.Text.Cut
import Mathlib.Data.List.Basic

/-!
# Byte counts that fit

The first byte of a character does not continue one, and all others do. So a byte count is a
boundary of a text exactly if it is the length of a front part, and the text can be cut there. The
bytes before a character of some kind are the length of such a part.
-/

namespace AsciiMath.Text

theorem length_bytes (text : List Char) :
    (text.flatMap String.utf8EncodeChar).length = byteLength text := by
  induction text with
  | nil => rfl
  | cons c text ih =>
    rw [List.flatMap_cons, List.length_append, String.length_utf8EncodeChar, ih, byteLength_cons]

theorem getElem?_bytes_append (front back : List Char) (count : Nat) :
    ((front ++ back).flatMap String.utf8EncodeChar)[byteLength front + count]? =
      (back.flatMap String.utf8EncodeChar)[count]? := by
  rw [List.flatMap_append, List.getElem?_append_right (by rw [length_bytes]; omega),
    length_bytes, Nat.add_sub_cancel_left]

theorem utf8EncodeChar_eq_cons (c : Char) : ∃ first others,
    String.utf8EncodeChar c = first :: others ∧ ¬ isContinuation first ∧
      ∀ byte ∈ others, isContinuation byte := by
  have value : c.val.toNat = c.toNat := rfl
  rw [String.utf8EncodeChar, value]
  split_ifs
  all_goals
    refine ⟨_, _, rfl, ?_, ?_⟩ <;>
      simp [isContinuation, UInt8.le_iff_toNat_le, UInt8.lt_iff_toNat_lt] <;> omega

/-- A text can be cut at the length of each front part. -/
theorem isBoundary_byteLength (front back : List Char) :
    isBoundary (byteLength front) (front ++ back) := by
  have first := getElem?_bytes_append front back 0
  rw [Nat.add_zero] at first
  rw [isBoundary, first]
  cases back with
  | nil => simp
  | cons c back =>
    obtain ⟨byte, others, bytes, starts, -⟩ := utf8EncodeChar_eq_cons c
    simp [bytes, starts]

/-- Inside of a character there is no boundary. -/
theorem not_isBoundary_of_lt {count : Nat} {c : Char} (text : List Char) (inside : count ≠ 0)
    (within : count < c.utf8Size) : ¬ isBoundary count (c :: text) := by
  obtain ⟨byte, others, bytes, -, continues⟩ := utf8EncodeChar_eq_cons c
  have length : others.length + 1 = c.utf8Size := by
    rw [← String.length_utf8EncodeChar, bytes, List.length_cons]
  obtain ⟨count, rfl⟩ := Nat.exists_eq_add_one_of_ne_zero inside
  have found : ((c :: text).flatMap String.utf8EncodeChar)[count + 1]? = others[count]? := by
    rw [List.flatMap_cons, bytes, List.cons_append, List.getElem?_cons_succ,
      List.getElem?_append_left (by omega)]
  rw [isBoundary, found, List.getElem?_eq_getElem (by omega)]
  simp [continues _ (List.getElem_mem _)]

theorem exists_of_isBoundary {count : Nat} {text : List Char} (h : isBoundary count text) :
    ∃ front back, text = front ++ back ∧ byteLength front = count := by
  induction text generalizing count with
  | nil =>
    have nothing : count = 0 := by simpa [isBoundary] using h
    exact ⟨[], [], rfl, nothing.symm⟩
  | cons c text ih =>
    by_cases start : count = 0
    · exact ⟨[], c :: text, rfl, start.symm⟩
    by_cases inside : count < c.utf8Size
    · exact absurd h (not_isBoundary_of_lt text start inside)
    obtain ⟨more, rfl⟩ := Nat.exists_eq_add_of_le (Nat.le_of_not_lt inside)
    have moved := getElem?_bytes_append [c] text more
    rw [byteLength_cons, byteLength_nil, Nat.add_zero, List.singleton_append] at moved
    have further : isBoundary more text := by
      rw [isBoundary, moved, beq_false_of_ne start, Bool.false_or] at h
      rw [isBoundary]
      cases found : (text.flatMap String.utf8EncodeChar)[more]? with
      | some byte => simp_all
      | none => simp_all
    obtain ⟨front, back, rfl, rfl⟩ := ih further
    exact ⟨c :: front, back, rfl, rfl⟩

/-- The test of a byte count is right. -/
theorem splitBytes?_isSome (count : Nat) (text : List Char) :
    (splitBytes? count text).isSome = isBoundary count text := by
  rw [Bool.eq_iff_iff, Option.isSome_iff_exists]
  constructor
  · rintro ⟨⟨front, back⟩, cut⟩
    obtain ⟨rfl, rfl⟩ := splitBytes?_eq_some cut
    exact isBoundary_byteLength front back
  · intro boundary
    obtain ⟨front, back, rfl, rfl⟩ := exists_of_isBoundary boundary
    exact ⟨(front, back), splitBytes?_append front back⟩

theorem slice?_append (front inside back : List Char) :
    slice? (byteLength front) (byteLength front + byteLength inside) (front ++ (inside ++ back)) =
      some inside := by
  rw [slice?, ← byteLength_append, ← List.append_assoc, splitBytes?_append]
  simp

theorem bytesBefore?_eq (p : Char → Bool) (text : List Char) :
    bytesBefore? p text = if text.dropWhile (!p ·) = [] then none
      else some (byteLength (text.takeWhile (!p ·))) := by
  induction text with
  | nil => rfl
  | cons c text ih =>
    rw [bytesBefore?, ih, List.dropWhile_cons, List.takeWhile_cons]
    cases p c with
    | true => rfl
    | false =>
      simp only [Bool.not_false, if_true, Bool.false_eq_true, if_false]
      split <;> rfl

theorem bytesUpTo_eq (p : Char → Bool) (text : List Char) :
    bytesUpTo p text = byteLength (text.takeWhile (!p ·)) := by
  rw [bytesUpTo, bytesBefore?_eq]
  split
  · next all =>
    have parts := List.takeWhile_append_dropWhile (p := (!p ·)) (l := text)
    rw [all, List.append_nil] at parts
    rw [parts]
    rfl
  · rfl

theorem byteLength_lt_of_suffix {back text : List Char} (h : back <:+ text)
    (shorter : back.length < text.length) : byteLength back < byteLength text := by
  obtain ⟨front, rfl⟩ := h
  have nonempty : front ≠ [] := by
    rintro rfl
    exact Nat.lt_irrefl _ shorter
  have := byteLength_pos nonempty
  rw [byteLength_append]
  omega

end AsciiMath.Text
