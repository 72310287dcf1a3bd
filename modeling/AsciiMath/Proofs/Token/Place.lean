import AsciiMath.Token.Argument
import Mathlib.Data.List.DropRight
import Mathlib.Data.List.Induction

/-!
# Places in a text

A place in a text is known by the text before it: its line is one more than the line ends before it,
and its column one more than the characters since the last of them. A cursor that starts at the
front of a text stands behind the part that it has passed.
-/

namespace AsciiMath

theorem Text.eq_false_of_dropWhile {p : Char → Bool} {text cs : List Char} {c : Char}
    (h : text.dropWhile p = c :: cs) : p c = false := by
  have := List.head?_dropWhile_not p text
  rw [h] at this
  simpa using this

theorem Text.of_mem_takeWhile {p : Char → Bool} {text : List Char} {c : Char}
    (h : c ∈ text.takeWhile p) : p c :=
  List.all_eq_true.1 (List.all_takeWhile (p := p) (l := text)) c h

theorem Text.takeWhile_dropWhile (p : Char → Bool) (text : List Char) :
    (text.dropWhile p).takeWhile p = [] := by
  cases h : text.dropWhile p with
  | nil => rfl
  | cons c cs => rw [List.takeWhile_cons, eq_false_of_dropWhile h, if_neg Bool.false_ne_true]

theorem Text.span_of_parts {p : Char → Bool} {run rest : List Char} (h : ∀ c ∈ run, p c)
    (stops : ∀ c ∈ rest.head?, ¬ p c) :
    (run ++ rest).takeWhile p = run ∧ (run ++ rest).dropWhile p = rest := by
  rw [List.takeWhile_append_of_pos h, List.dropWhile_append_of_pos h]
  cases rest with
  | nil => simp
  | cons c cs => simp [stops c rfl]

namespace Position

/-- The line and the column right behind a text. -/
def behind (front : List Char) : Position :=
  ⟨1 + front.count '\n', 1 + (front.reverse.takeWhile (· != '\n')).length⟩

theorem behind_concat (front : List Char) (c : Char) :
    behind (front ++ [c]) = (behind front).next c := by
  rw [next]
  split
  · next hc =>
    subst hc
    simp [behind, Nat.add_assoc]
  · next hc => simp [behind, hc, Nat.add_assoc]

@[simp] theorem after_behind (front text : List Char) :
    (behind front).after text = behind (front ++ text) := by
  induction text using List.reverseRecOn with
  | nil => simp
  | append_singleton text c ih =>
    rw [after_append, ih, ← List.append_assoc, behind_concat]
    rfl

end Position

namespace Cursor

/-- The cursor in a text between a front part and the rest. -/
def behind (front rest : List Char) : Cursor := ⟨rest, .behind front⟩

@[simp] theorem behind_rest (front rest : List Char) : (behind front rest).rest = rest := rfl

@[simp] theorem behind_position (front rest : List Char) :
    (behind front rest).position = .behind front := rfl

theorem ofText_eq_behind (text : List Char) : ofText text = behind [] text := rfl

@[simp] theorem between_behind (front rest passed back : List Char) :
    (behind front rest).between passed back = behind (front ++ passed) back := by
  simp [between, behind]

@[simp] theorem step_behind (front rest : List Char) :
    (behind front rest).step = behind (front ++ rest.take 1) (rest.drop 1) := by
  cases rest with
  | nil => simp [step, behind]
  | cons c cs => exact between_behind front (c :: cs) [c] cs

@[simp] theorem skip_behind (front rest : List Char) (p : Char → Bool) :
    (behind front rest).skip p = behind (front ++ rest.takeWhile p) (rest.dropWhile p) := by
  simp [skip]

theorem skip_of_parts {p : Char → Bool} {run rest : List Char} (h : ∀ c ∈ run, p c)
    (stops : ∀ c ∈ rest.head?, ¬ p c) (position : Position) :
    (⟨run ++ rest, position⟩ : Cursor).skip p = ⟨rest, position.after run⟩ := by
  obtain ⟨passed, left⟩ := Text.span_of_parts h stops
  rw [skip, passed, left]
  rfl

theorem skip_skip (cursor : Cursor) (p : Char → Bool) : (cursor.skip p).skip p = cursor.skip p := by
  simp [skip, between, Text.takeWhile_dropWhile, List.dropWhile_idempotent]

theorem rest_of_startsWith {cursor : Cursor} {characters : List Char}
    (h : cursor.startsWith characters) : ∃ c cs, cursor.rest = c :: cs ∧ c ∈ characters := by
  unfold startsWith at h
  split at h
  · cases h
  · next c cs hrest => exact ⟨c, cs, hrest, of_decide_eq_true h⟩

theorem exists_of_startsWith {front rest characters : List Char}
    (h : (behind front rest).startsWith characters) : ∃ c cs, rest = c :: cs ∧ c ∈ characters :=
  rest_of_startsWith h

end Cursor

end AsciiMath
