import AsciiMath.Keyword.Trie
import AsciiMath.Text.Bytes
import Mathlib.Data.List.Basic

/-!
# Tries as maps

Storing a value changes the look-up of its key and of no other key, and the longest key at the
start of a text is one of the keys that have a value. A trie can be built from any entries, since
its alphabet is made of their characters, and all its values are values of entries.
-/

namespace AsciiMath

namespace Branches

variable {α : Type}

theorem get?_path (value : α) (c d : Char) (cs ds : List Char) :
    (path value c cs).get? d ds = if d :: ds = c :: cs then some value else none := by
  induction cs generalizing c d ds with
  | nil => cases ds <;> by_cases h : c = d <;> simp_all [path, get?, eq_comm]
  | cons c' cs ih =>
    cases ds with
    | nil => simp [path, get?]
    | cons d' ds =>
      by_cases h : c = d
      · simp [path, get?, ih, h]
      · simp [path, get?, h, Ne.symm h]

theorem get?_insert (branches : Branches α) (value : α) (c d : Char) (cs ds : List Char) :
    (branches.insert value c cs).get? d ds =
      if d :: ds = c :: cs then some value else branches.get? d ds := by
  induction branches generalizing c d cs ds with
  | nil => simp [insert, get?_path, get?]
  | branch label held below beside ihBelow ihBeside =>
    unfold insert
    split
    · next hlabel =>
      subst hlabel
      by_cases hd : label = d
      · subst hd
        cases cs <;> cases ds <;> simp [get?, ihBelow]
      · cases cs <;> simp [get?, hd, Ne.symm hd]
    · next hlabel =>
      by_cases hd : label = d
      · subst hd
        simp [get?, hlabel]
      · simp [get?, hd, ihBeside]

/-- The longest key is a key. -/
theorem get?_of_longest? {branches : Branches α} {text : List Char} {length : Nat} {value : α}
    (h : branches.longest? text = some (length, value)) :
    ∃ c cs back, text = c :: cs ++ back ∧ length = Text.byteLength (c :: cs) ∧
      branches.get? c cs = some value := by
  induction branches generalizing text length with
  | nil => simp [longest?] at h
  | branch label held below beside ihBelow ihBeside =>
    cases text with
    | nil => simp [longest?] at h
    | cons c text =>
      rw [longest?] at h
      split at h
      · next hlabel =>
        subst hlabel
        split at h
        · next n found hfound =>
          obtain ⟨rfl, rfl⟩ := Prod.mk.inj (Option.some.inj h)
          obtain ⟨d, ds, back, rfl, rfl, hget⟩ := ihBelow hfound
          exact ⟨label, d :: ds, back, by simp, by simp, by simpa [get?] using hget⟩
        · obtain ⟨held, rfl, hheld⟩ := Option.map_eq_some_iff.1 h
          obtain ⟨rfl, rfl⟩ := Prod.mk.inj hheld
          exact ⟨label, [], text, by simp, by simp, by simp [get?]⟩
      · next hlabel =>
        obtain ⟨d, ds, back, htext, hlength, hget⟩ := ihBeside h
        obtain ⟨rfl, -⟩ := List.cons.inj htext
        exact ⟨c, ds, back, htext, hlength, by simpa [get?, hlabel] using hget⟩

/-- A key at the start of a text is found, or a longer one. -/
theorem longest?_of_get? {branches : Branches α} {c : Char} {cs : List Char} {value : α}
    (h : branches.get? c cs = some value) (back : List Char) :
    ∃ length found, branches.longest? (c :: cs ++ back) = some (length, found) ∧
      Text.byteLength (c :: cs) ≤ length := by
  induction branches generalizing c cs with
  | nil => simp [get?] at h
  | branch label held below beside ihBelow ihBeside =>
    rw [List.cons_append, longest?]
    unfold get? at h
    split at h
    · next hlabel =>
      subst hlabel
      rw [if_pos rfl]
      cases cs with
      | nil =>
        cases hbelow : below.longest? ([] ++ back) with
        | some longer => exact ⟨_, longer.2, rfl, Nat.le_add_right _ _⟩
        | none =>
          have hheld : held = some value := h
          exact ⟨_, value, by rw [hheld]; rfl, Nat.le_refl _⟩
      | cons d ds =>
        obtain ⟨length, found, hlongest, hlength⟩ := ihBelow h
        exact ⟨_, found, by rw [hlongest], Nat.add_le_add_left hlength _⟩
    · next hlabel =>
      rw [if_neg hlabel]
      exact ihBeside h

end Branches

namespace Trie

variable {α : Type}

theorem get?_empty (alphabet key : List Char) : (empty alphabet : Trie α).get? key = none := by
  cases key <;> rfl

theorem get?_put (trie : Trie α) (key other : List Char) (value : α) :
    (trie.put key value).get? other = if other = key then some value else trie.get? other := by
  cases key with
  | nil => cases other <;> simp [put, get?]
  | cons c cs =>
    cases other with
    | nil => simp [put, get?]
    | cons d ds => simp only [put, get?, Branches.get?_insert]

theorem get?_of_longest? {trie : Trie α} {text : List Char} {length : Nat} {value : α}
    (h : trie.longest? text = some (length, value)) :
    ∃ front back, text = front ++ back ∧ length = Text.byteLength front ∧
      trie.get? front = some value := by
  rw [longest?, Option.or_eq_some_iff] at h
  rcases h with h | ⟨-, h⟩
  · obtain ⟨c, cs, back, htext, hlength, hget⟩ := Branches.get?_of_longest? h
    exact ⟨c :: cs, back, htext, hlength, hget⟩
  · obtain ⟨held, hroot, hheld⟩ := Option.map_eq_some_iff.1 h
    obtain ⟨rfl, rfl⟩ := Prod.mk.inj hheld
    exact ⟨[], text, rfl, rfl, hroot⟩

theorem longest?_of_get? {trie : Trie α} {key : List Char} {value : α}
    (h : trie.get? key = some value) (back : List Char) :
    ∃ length found, trie.longest? (key ++ back) = some (length, found) ∧
      Text.byteLength key ≤ length := by
  unfold longest?
  cases key with
  | nil =>
    have hroot : trie.root = some value := h
    cases hbranches : trie.branches.longest? ([] ++ back) with
    | some longer => exact ⟨_, longer.2, rfl, Nat.zero_le _⟩
    | none => exact ⟨0, value, by rw [hroot]; rfl, Nat.le_refl _⟩
  | cons c cs =>
    obtain ⟨length, found, hlongest, hlength⟩ := Branches.longest?_of_get? h back
    exact ⟨length, found, by rw [hlongest, Option.some_or], hlength⟩

@[simp] theorem put_alphabet (trie : Trie α) (key : List Char) (value : α) :
    (trie.put key value).alphabet = trie.alphabet := by
  cases key <;> rfl

/-- The trie with all entries stored, the later ones over the earlier. -/
def putAll (trie : Trie α) (entries : List (String × α)) : Trie α :=
  entries.foldl (fun trie entry ↦ trie.put entry.1.toList entry.2) trie

/-- No look-up depends on the alphabet. -/
theorem putAll_congr (entries : List (String × α)) {trie other : Trie α}
    (root : trie.root = other.root) (branches : trie.branches = other.branches) :
    (trie.putAll entries).root = (other.putAll entries).root ∧
      (trie.putAll entries).branches = (other.putAll entries).branches := by
  induction entries generalizing trie other with
  | nil => exact ⟨root, branches⟩
  | cons entry entries ih =>
    refine @ih (trie.put entry.1.toList entry.2) (other.put entry.1.toList entry.2) ?_ ?_
    · cases entry.1.toList <;> simp [put, root]
    · cases entry.1.toList <;> simp [put, branches]

theorem foldlM_insert {entries : List (String × α)} {trie : Trie α}
    (within : ∀ entry ∈ entries, ∀ c ∈ entry.1.toList, c ∈ trie.alphabet) :
    entries.foldlM (fun trie entry ↦ (·.2) <$> trie.insert entry.1 entry.2) trie =
      (.ok (trie.putAll entries) : Except AlphabetError (Trie α)) := by
  induction entries generalizing trie with
  | nil => rfl
  | cons entry entries ih =>
    obtain ⟨first, others⟩ := List.forall_mem_cons.1 within
    have known : entry.1.toList.find? (fun c ↦ !trie.containsChar c) = none := by
      rw [List.find?_eq_none]
      intro c hc
      simp [containsChar, first c hc]
    have step := @ih (trie.put entry.1.toList entry.2) (by simpa using others)
    rw [List.foldlM_cons, insert, known]
    exact step

theorem mem_foldr_insert {c : Char} {characters : List Char} :
    c ∈ characters.foldr List.insert [] ↔ c ∈ characters := by
  induction characters with
  | nil => simp
  | cons d characters ih => simp [ih]

theorem mapM_onlyChar (characters : List Char) :
    (characters.map (·.toString)).mapM onlyChar = .ok characters := by
  induction characters with
  | nil => rfl
  | cons c characters ih =>
    have hc : onlyChar c.toString = .ok c := by simp [onlyChar, Char.toString]
    rw [List.map_cons, List.mapM_cons, hc, ih]
    rfl

/-- Entries always make a trie. -/
theorem ofEntries_eq_ok (entries : List (String × α)) :
    ∃ alphabet, ofEntries entries = .ok ((empty alphabet).putAll entries) := by
  let characters := entries.flatMap fun entry ↦ entry.1.toList
  refine ⟨(' ' :: characters).foldr List.insert [], ?_⟩
  have alphabet : (" " :: entries.flatMap fun entry ↦ entry.1.toList.map (·.toString)) =
      (' ' :: characters).map (·.toString) := by
    simp [characters, List.map_flatMap]
  rw [ofEntries, alphabet, ofAlphabet, mapM_onlyChar]
  refine foldlM_insert ?_
  intro entry hentry c hc
  refine mem_foldr_insert.2 (List.mem_cons_of_mem _ ?_)
  exact List.mem_flatMap.2 ⟨entry, hentry, hc⟩

theorem get?_putAll (trie : Trie α) (entries : List (String × α)) (key : String) :
    (trie.putAll entries).get? key.toList =
      (entries.reverse.lookup key).or (trie.get? key.toList) := by
  induction entries generalizing trie with
  | nil => rfl
  | cons entry entries ih =>
    have step := ih (trie.put entry.1.toList entry.2)
    rw [putAll, List.foldl_cons, ← putAll, step, get?_put, List.reverse_cons,
      List.lookup_append, Option.or_assoc]
    congr 1
    by_cases same : key = entry.1
    · subst same
      rw [if_pos rfl, List.lookup_cons_self, Option.some_or]
    · have other : (key == entry.1) = false := beq_eq_false_iff_ne.2 same
      rw [if_neg fun h ↦ same (String.toList_inj.1 h), List.lookup_cons, other]
      rfl

/-- A key has the value of the last of its entries. -/
theorem get?_ofEntries {entries : List (String × α)} {trie : Trie α}
    (built : ofEntries entries = .ok trie) (key : String) :
    trie.get? key.toList = entries.reverse.lookup key := by
  obtain ⟨alphabet, hbuilt⟩ := ofEntries_eq_ok entries
  obtain rfl := Except.ok.inj (built.symm.trans hbuilt)
  rw [get?_putAll, get?_empty, Option.or_none]

theorem get?_ofEntries_isSome {entries : List (String × α)} {trie : Trie α}
    (built : ofEntries entries = .ok trie) {entry : String × α} (h : entry ∈ entries) :
    (trie.get? entry.1.toList).isSome := by
  rw [get?_ofEntries built, List.lookup_isSome_iff]
  exact ⟨entry, List.mem_reverse.2 h, by simp⟩

end Trie

end AsciiMath
