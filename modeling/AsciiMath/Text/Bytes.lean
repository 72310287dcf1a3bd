/-!
# Text measured in bytes

Text is read as a list of characters, and lengths are counted in the bytes of its UTF-8 form.
A byte count cuts a text only where a character ends. Cutting at the length of a front part gives
that part and the rest back.
-/

namespace AsciiMath.Text

def byteLength : List Char → Nat
  | [] => 0
  | c :: cs => c.utf8Size + byteLength cs

/-- The text before and after a byte count; none past the end or inside a character. -/
def splitBytes? : Nat → List Char → Option (List Char × List Char)
  | 0, cs => some ([], cs)
  | _ + 1, [] => none
  | n + 1, c :: cs =>
    if c.utf8Size ≤ n + 1 then
      (splitBytes? (n + 1 - c.utf8Size) cs).map fun (front, back) => (c :: front, back)
    else
      none

@[simp] theorem byteLength_nil : byteLength [] = 0 := rfl

@[simp] theorem byteLength_cons (c : Char) (cs : List Char) :
    byteLength (c :: cs) = c.utf8Size + byteLength cs := rfl

@[simp] theorem byteLength_append (front back : List Char) :
    byteLength (front ++ back) = byteLength front + byteLength back := by
  induction front with
  | nil => simp
  | cons c cs ih => simp [ih, Nat.add_assoc]

theorem byteLength_pos {text : List Char} (h : text ≠ []) : 0 < byteLength text := by
  cases text with
  | nil => exact absurd rfl h
  | cons c cs => exact Nat.add_pos_left c.utf8Size_pos _

/-- Of two parts at the front of one text, the one with more bytes has more characters. -/
theorem length_le_of_byteLength_le {text front longer : List Char} (hfront : front <+: text)
    (hlonger : longer <+: text) (h : byteLength longer ≤ byteLength front) :
    longer.length ≤ front.length := by
  refine Nat.le_of_not_lt fun long => ?_
  obtain ⟨more, rfl⟩ := List.prefix_of_prefix_length_le hfront hlonger (Nat.le_of_lt long)
  have nonempty : more ≠ [] := by
    rintro rfl
    exact absurd long (by simp)
  have := byteLength_pos nonempty
  rw [byteLength_append] at h
  omega

@[simp] theorem splitBytes?_zero (cs : List Char) : splitBytes? 0 cs = some ([], cs) := by
  cases cs <;> rfl

theorem splitBytes?_cons_of_le {n : Nat} {c : Char} (h : c.utf8Size ≤ n) (cs : List Char) :
    splitBytes? n (c :: cs) =
      (splitBytes? (n - c.utf8Size) cs).map fun (front, back) => (c :: front, back) := by
  have := c.utf8Size_pos
  match n with
  | 0 => omega
  | n + 1 => simp [splitBytes?, h]

@[simp] theorem splitBytes?_append (front back : List Char) :
    splitBytes? (byteLength front) (front ++ back) = some (front, back) := by
  induction front with
  | nil => simp
  | cons c cs ih => simp [splitBytes?_cons_of_le, ih]

theorem splitBytes?_eq_some {length : Nat} {text front back : List Char}
    (h : splitBytes? length text = some (front, back)) :
    text = front ++ back ∧ byteLength front = length := by
  induction text generalizing length front with
  | nil =>
    cases length with
    | zero =>
      obtain ⟨rfl, rfl⟩ := Prod.mk.inj (Option.some.inj h)
      exact ⟨rfl, rfl⟩
    | succ length => cases h
  | cons c cs ih =>
    cases length with
    | zero =>
      obtain ⟨rfl, rfl⟩ := Prod.mk.inj (Option.some.inj h)
      exact ⟨rfl, rfl⟩
    | succ length =>
      rw [splitBytes?] at h
      split at h
      · next fits =>
        obtain ⟨⟨front', back'⟩, hsplit, hparts⟩ := Option.map_eq_some_iff.1 h
        obtain ⟨rfl, rfl⟩ := Prod.mk.inj hparts
        obtain ⟨rfl, hlength⟩ := ih hsplit
        exact ⟨rfl, by rw [byteLength_cons, hlength]; omega⟩
      · cases h

end AsciiMath.Text
