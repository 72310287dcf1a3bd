import AsciiMath.Proofs.Keyword.Trie

/-!
# The longest key at the start of a text

Which key is found at the start of a text follows from the values that the keys have, however they
are kept: it is the longest of those that stand there.
-/

namespace AsciiMath

variable {α : Type} {held : List Char → Option α}

/-- What is found belongs to the longest of the keys with a value at the start of the text. -/
inductive IsLongestKey (held : List Char → Option α) (text : List Char) :
    Option (Nat × α) → Prop where
  | missing (absent : ∀ key, key <+: text → held key = none) : IsLongestKey held text none
  | present {key : List Char} {value : α} (starts : key <+: text) (found : held key = some value)
      (longest : ∀ longer, longer <+: text → (held longer).isSome → longer.length ≤ key.length) :
      IsLongestKey held text (some (Text.byteLength key, value))

namespace IsLongestKey

theorem unique {text : List Char} {found other : Option (Nat × α)}
    (h : IsLongestKey held text found) (h' : IsLongestKey held text other) : found = other := by
  cases h with
  | missing absent =>
    cases h' with
    | missing => rfl
    | present starts found => simp [absent _ starts] at found
  | @present key value starts found longest =>
    cases h' with
    | missing absent => simp [absent _ starts] at found
    | @present key' value' starts' found' longest' =>
      have length : key.length = key'.length :=
        Nat.le_antisymm (longest' key starts (by simp [found]))
          (longest key' starts' (by simp [found']))
      have within := List.prefix_of_prefix_length_le starts starts' (Nat.le_of_eq length)
      obtain rfl := within.eq_of_length length
      obtain rfl := Option.some.inj (found.symm.trans found')
      rfl

theorem nil : IsLongestKey held [] ((held []).map (0, ·)) := by
  cases h : held [] with
  | none => exact .missing fun key hkey ↦ by rw [List.prefix_nil.1 hkey, h]
  | some value =>
    refine .present (List.prefix_refl []) h fun longer hlonger _ ↦ ?_
    simp [List.prefix_nil.1 hlonger]

/-- More text after which no key ends changes nothing. -/
theorem append {front back : List Char} {found : Option (Nat × α)}
    (h : IsLongestKey held front found)
    (absent : ∀ c cs, c :: cs <+: back → held (front ++ c :: cs) = none) :
    IsLongestKey held (front ++ back) found := by
  have within {key : List Char} (hkey : key <+: front ++ back) (holds : (held key).isSome) :
      key <+: front := by
    obtain ⟨rest, hrest⟩ := hkey
    rcases List.append_eq_append_iff.1 hrest with ⟨more, rfl, -⟩ | ⟨more, rfl, hback⟩
    · exact List.prefix_append key more
    · cases more with
      | nil => simp
      | cons c cs =>
        have := absent c cs ⟨rest, hback.symm⟩
        simp [this] at holds
  cases h with
  | missing none =>
    refine .missing fun key hkey ↦ Option.not_isSome_iff_eq_none.1 fun holds ↦ ?_
    simp [none key (within hkey holds)] at holds
  | present starts found longest =>
    exact .present (starts.trans (List.prefix_append front back)) found
      fun longer hlonger holds ↦ longest longer (within hlonger holds) holds

/-- A key that ends with the last character is longer than all before it. -/
theorem concat {front : List Char} {found : Option (Nat × α)} (h : IsLongestKey held front found)
    (c : Char) : IsLongestKey held (front ++ [c])
      (((held (front ++ [c])).map (Text.byteLength (front ++ [c]), ·)).or found) := by
  cases hheld : held (front ++ [c]) with
  | none =>
    refine h.append fun d ds more ↦ ?_
    obtain ⟨rfl, hds⟩ := List.cons_prefix_cons.1 more
    rw [List.prefix_nil.1 hds, hheld]
  | some value =>
    exact .present (List.prefix_refl _) hheld fun longer hlonger _ ↦ hlonger.length_le

end IsLongestKey

theorem Trie.longest?_isLongestKey (trie : Trie α) (text : List Char) :
    IsLongestKey trie.get? text (trie.longest? text) := by
  have reaches {key : List Char} (starts : key <+: text) (holds : (trie.get? key).isSome) :
      ∃ length found, trie.longest? text = some (length, found) ∧
        Text.byteLength key ≤ length := by
    obtain ⟨value, hvalue⟩ := Option.isSome_iff_exists.1 holds
    obtain ⟨back, rfl⟩ := starts
    exact longest?_of_get? hvalue back
  cases hlongest : trie.longest? text with
  | none =>
    refine .missing fun key starts ↦ Option.not_isSome_iff_eq_none.1 fun holds ↦ ?_
    obtain ⟨length, found, hfound, -⟩ := reaches starts holds
    cases hlongest.symm.trans hfound
  | some found =>
    obtain ⟨length, value⟩ := found
    obtain ⟨front, back, htext, rfl, hget⟩ := get?_of_longest? hlongest
    have starts : front <+: text := ⟨back, htext.symm⟩
    refine .present starts hget fun longer hlonger holds ↦ ?_
    obtain ⟨length, found, hfound, hlength⟩ := reaches hlonger holds
    obtain ⟨rfl, -⟩ := Prod.mk.inj (Option.some.inj (hlongest.symm.trans hfound))
    exact Text.length_le_of_byteLength_le starts hlonger hlength

end AsciiMath
