import AsciiMath.Proofs.Keyword.Refinement
import Mathlib.Order.Bounds.Basic

/-!
# Looking up the fronts of a text

What a trie finds at the start of a text is what looking up each front of the text by itself would
find: the longest front that has a value, and nothing if no front has one. Fronts are measured in
bytes, and those that do not end where a character ends are none.
-/

namespace AsciiMath

variable {α : Type} {held : List Char → Option α}

theorem Text.byteLength_le_of_prefix {front text : List Char} (h : front <+: text) :
    byteLength front ≤ byteLength text := by
  obtain ⟨back, rfl⟩ := h
  rw [byteLength_append]
  exact Nat.le_add_right _ _

/-- The value of the front of a text that has so many bytes, if there is such a front. -/
def frontValue? (held : List Char → Option α) (text : List Char) (length : Nat) : Option α :=
  (Text.splitBytes? length text).bind fun parts ↦ held parts.1

theorem frontValue?_eq_some {text : List Char} {length : Nat} {value : α} :
    frontValue? held text length = some value ↔
      ∃ front, front <+: text ∧ Text.byteLength front = length ∧ held front = some value := by
  unfold frontValue?
  constructor
  · intro h
    obtain ⟨⟨front, back⟩, hsplit, hvalue⟩ := Option.bind_eq_some_iff.1 h
    obtain ⟨htext, hlength⟩ := Text.splitBytes?_eq_some hsplit
    exact ⟨front, ⟨back, htext.symm⟩, hlength, hvalue⟩
  · rintro ⟨front, ⟨back, rfl⟩, rfl, hvalue⟩
    rw [Text.splitBytes?_append, Option.bind_some, hvalue]

/-- A look-up of the longest key at the start of a text that gives what the look-ups of all its
fronts give. -/
structure AgreesOnFronts (held : List Char → Option α) (longest? : List Char → Option (Nat × α))
    (startsKeyword : List Char → Bool) : Prop where
  longest?_eq_some : ∀ text length value, longest? text = some (length, value) ↔
    IsGreatest {n | (frontValue? held text n).isSome} length ∧
      frontValue? held text length = some value
  longest?_eq_none : ∀ text, longest? text = none ↔ ∀ front, front <+: text → held front = none
  startsKeyword_iff : ∀ text, startsKeyword text ↔
    ∃ front, front <+: text ∧ front ≠ [] ∧ (held front).isSome

namespace IsLongestKey

variable {text : List Char}

theorem isGreatest {length : Nat} {value : α} (h : IsLongestKey held text (some (length, value))) :
    IsGreatest {n | (frontValue? held text n).isSome} length ∧
      frontValue? held text length = some value := by
  cases h with
  | @present key _ starts found longest =>
    have here : frontValue? held text (Text.byteLength key) = some value :=
      frontValue?_eq_some.2 ⟨key, starts, rfl, found⟩
    refine ⟨⟨Option.isSome_iff_exists.2 ⟨value, here⟩, ?_⟩, here⟩
    intro n hn
    obtain ⟨other, hother⟩ := Option.isSome_iff_exists.1 hn
    obtain ⟨front, hfront, rfl, hheld⟩ := frontValue?_eq_some.1 hother
    have shorter := longest front hfront (Option.isSome_iff_exists.2 ⟨other, hheld⟩)
    apply Text.byteLength_le_of_prefix
    exact List.prefix_of_prefix_length_le hfront starts shorter

theorem eq_some_iff {found : Option (Nat × α)} (h : IsLongestKey held text found) {length : Nat}
    {value : α} : found = some (length, value) ↔
      IsGreatest {n | (frontValue? held text n).isSome} length ∧
        frontValue? held text length = some value := by
  constructor
  · rintro rfl
    exact h.isGreatest
  · rintro ⟨greatest, hvalue⟩
    cases found with
    | none =>
      cases h with
      | missing absent =>
        obtain ⟨front, hfront, -, hheld⟩ := frontValue?_eq_some.1 hvalue
        rw [absent front hfront] at hheld
        cases hheld
    | some other =>
      obtain ⟨greatest', hvalue'⟩ := h.isGreatest
      have same : other.1 = length := greatest'.unique greatest
      rw [same, hvalue] at hvalue'
      rw [← same, Option.some.inj hvalue']

theorem eq_none_iff {found : Option (Nat × α)} (h : IsLongestKey held text found) :
    found = none ↔ ∀ front, front <+: text → held front = none := by
  cases h with
  | missing absent => exact iff_of_true rfl absent
  | @present key value starts found longest =>
    apply iff_of_false (Option.some_ne_none _)
    intro absent
    rw [absent key starts] at found
    cases found

/-- The longest key is not the empty one exactly if some other key stands there. -/
theorem pos_iff {found : Option (Nat × α)} (h : IsLongestKey held text found) :
    (∃ length value, found = some (length, value) ∧ 0 < length) ↔
      ∃ front, front <+: text ∧ front ≠ [] ∧ (held front).isSome := by
  constructor
  · rintro ⟨length, value, rfl, pos⟩
    cases h with
    | @present key _ starts found longest =>
      refine ⟨key, starts, ?_, Option.isSome_iff_exists.2 ⟨value, found⟩⟩
      rintro rfl
      exact Nat.lt_irrefl 0 pos
  · rintro ⟨front, hfront, nonempty, holds⟩
    cases h with
    | missing absent =>
      rw [absent front hfront] at holds
      cases holds
    | @present key value starts found longest =>
      refine ⟨_, value, rfl, ?_⟩
      calc
        0 < Text.byteLength front := Text.byteLength_pos nonempty
        _ ≤ Text.byteLength key := Text.byteLength_le_of_prefix
          (List.prefix_of_prefix_length_le hfront starts (longest front hfront holds))

end IsLongestKey

theorem Trie.agreesOnFronts (trie : Trie α) :
    AgreesOnFronts trie.get? trie.longest? (KeywordMap.startsKeyword trie) := by
  have longest := trie.longest?_isLongestKey
  refine ⟨fun text length value ↦ (longest text).eq_some_iff,
    fun text ↦ (longest text).eq_none_iff, fun text ↦ ?_⟩
  rw [KeywordMap.startsKeyword_iff]
  exact (longest text).pos_iff

/-- Over any alphabet and after any inserts, refused ones among them, a trie of numbered nodes finds
the longest front of a text that it has a value for, and so does the trie of branches. -/
theorem LinkedTrie.longest?_agrees {entries : List String} {start : LinkedTrie α} {tree : Trie α}
    (linked : LinkedTrie.ofAlphabet entries = .ok start)
    (branches : Trie.ofAlphabet entries = .ok tree) (inserts : List (String × α)) :
    ∃ trie, start.insertAll inserts = .ok trie ∧ AnswersAlike trie (tree.insertAll inserts) ∧
      AgreesOnFronts (tree.insertAll inserts).get? (tree.insertAll inserts).longest?
        (KeywordMap.startsKeyword (tree.insertAll inserts)) := by
  have outcome := LinkedTrie.ofAlphabet_outcome (α := α) entries
  rw [linked, branches] at outcome
  cases outcome with
  | ok _ _ refines =>
    obtain ⟨trie, hall, -, alike⟩ := refines inserts
    exact ⟨trie, hall, alike, (tree.insertAll inserts).agreesOnFronts⟩

/-- The longest key that begins like the text goes on otherwise, so a shorter one is found. -/
theorem LinkedTrie.longest?_agrees_accented :
    ∃ (start trie : LinkedTrie Nat) (tree : Trie Nat),
      LinkedTrie.ofAlphabet ["a", "é"] = .ok start ∧
        start.insertAll [("", 0), ("é", 1), ("éaé", 2), ("b", 3)] = .ok trie ∧
        AnswersAlike trie tree ∧
        AgreesOnFronts tree.get? tree.longest? (KeywordMap.startsKeyword tree) ∧
        trie.longest? ['é', 'a', 'b'] = .ok (some (2, 1)) := by
  obtain ⟨trie, hall, alike, agrees⟩ := @LinkedTrie.longest?_agrees _ ["a", "é"] _ _ rfl rfl
    [("", 0), ("é", 1), ("éaé", 2), ("b", 3)]
  refine ⟨_, trie, _, rfl, hall, alike, agrees, ?_⟩
  rw [alike.longest?]
  rfl

end AsciiMath
