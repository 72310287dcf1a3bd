import AsciiMath.Proofs.Keyword.Growth
import Mathlib.Data.List.Dedup
import Mathlib.Data.List.Perm.Basic

/-!
# Tries refine finite maps

Whatever is inserted into a trie, in whatever order and with refused keys in between, it answers as
the finite map of the inserts that it took. The trie of numbered nodes never looks at what is not
there, and it answers as the trie of branches does.
-/

namespace AsciiMath

variable {α : Type}

/-- All characters of the key are entries of the alphabet. -/
def KnownKey (entries : List String) (key : String) : Prop := ∀ c ∈ key.toList, c.toString ∈ entries

instance (entries : List String) (key : String) : Decidable (KnownKey entries key) :=
  inferInstanceAs (Decidable (∀ c ∈ key.toList, c.toString ∈ entries))

/-- The value of the last of the inserts under a key that have a known key. -/
def lastStored (entries : List String) (inserts : List (String × α)) (key : String) : Option α :=
  (inserts.filter fun insert ↦ KnownKey entries insert.1).reverse.lookup key

/-- The trie after some inserts, the refused ones included. -/
def LinkedTrie.insertAll (trie : LinkedTrie α) (inserts : List (String × α)) :
    Except IndexFault (LinkedTrie α) :=
  inserts.foldlM (fun trie insert ↦ (·.2) <$> trie.insert insert.1 insert.2) trie

/-- The trie after some inserts, of which those that are refused change nothing. -/
def Trie.insertAll (trie : Trie α) (inserts : List (String × α)) : Trie α :=
  inserts.foldl (fun trie insert ↦ ((trie.insert insert.1 insert.2).map (·.2)).toOption.getD trie)
    trie

/-- The answers of a trie are those of the finite map of the inserts that it took. -/
structure RefinesMap (entries : List String) (inserts : List (String × α)) (trie : LinkedTrie α) :
    Prop where
  alphabetSize : trie.alphabetSize = entries.dedup.length
  containsChar : ∀ c, trie.containsChar c ↔ c.toString ∈ entries
  get? : ∀ key, trie.get? key = .ok (lastStored entries inserts key)
  insert_known : ∀ key value, KnownKey entries key →
    ∃ after, trie.insert key value = .ok (.ok (lastStored entries inserts key), after)
  /-- The first character that is not known is named, and the trie stays as it is. -/
  insert_unknown : ∀ key value, ¬ KnownKey entries key →
    ∃ front c back, key.toList = front ++ c :: back ∧ (∀ d ∈ front, d.toString ∈ entries) ∧
      c.toString ∉ entries ∧ trie.insert key value = .ok (.error (.outside c key), trie)

structure AnswersAlike (trie : LinkedTrie α) (tree : Trie α) : Prop where
  alphabetSize : trie.alphabetSize = tree.alphabetSize
  containsChar : ∀ c, trie.containsChar c = tree.containsChar c
  get? : ∀ key, trie.get? key = .ok (tree.get? key.toList)
  longest? : ∀ text, trie.longest? text = .ok (tree.longest? text)
  startsKeyword : ∀ text, trie.startsKeyword text = .ok (KeywordMap.startsKeyword tree text)
  insert : ∀ key value, (·.1) <$> trie.insert key value = .ok ((·.1) <$> tree.insert key value)

/-- What comes of an alphabet: a refusal of the empty list or of its first entry that is not one
character, or else two tries that answer alike and as a finite map after all inserts. -/
inductive AlphabetOutcome (entries : List String) :
    Except AlphabetError (LinkedTrie α) → Except AlphabetError (Trie α) → Prop where
  | empty (nothing : entries = []) : AlphabetOutcome entries (.error .empty) (.error .empty)
  | notOneCharacter {characters : List Char} {entry : String} {back : List String}
      (parts : entries = characters.map (·.toString) ++ entry :: back)
      (other : ∀ c : Char, entry ≠ c.toString) :
      AlphabetOutcome entries (.error (.notOneCharacter entry)) (.error (.notOneCharacter entry))
  | ok {characters : List Char} {start : LinkedTrie α} {tree : Trie α} (nonempty : entries ≠ [])
      (parts : entries = characters.map (·.toString))
      (refines : ∀ inserts, ∃ trie, start.insertAll inserts = .ok trie ∧
        RefinesMap entries inserts trie ∧ AnswersAlike trie (tree.insertAll inserts)) :
      AlphabetOutcome entries (.ok start) (.ok tree)

theorem Text.charToString_injective : Function.Injective Char.toString := fun c d h ↦ by
  simpa [Char.toString] using h

theorem lastStored_append (entries : List String) (inserts : List (String × α)) (key other : String)
    (value : α) : lastStored entries (inserts ++ [(key, value)]) other =
      if KnownKey entries key ∧ other = key then some value
      else lastStored entries inserts other := by
  rw [lastStored, List.filter_append, List.reverse_append, List.lookup_append]
  by_cases known : KnownKey entries key
  · by_cases same : other = key
    · simp [known, same]
    · have differs : (other == key) = false := beq_eq_false_iff_ne.2 same
      simp [known, same, differs, lastStored, List.lookup_cons]
  · simp [known, lastStored]

/-- Two tries over one alphabet that hold what the inserts stored. -/
structure HoldsStored (entries : List String) (inserts : List (String × α)) (trie : LinkedTrie α)
    (tree : Trie α) : Prop where
  well : trie.WellLinked
  distinct : trie.alphabet.Nodup
  tree_distinct : tree.alphabet.Nodup
  mem_alphabet : ∀ c, c ∈ trie.alphabet ↔ c.toString ∈ entries
  tree_mem_alphabet : ∀ c, c ∈ tree.alphabet ↔ c.toString ∈ entries
  held : ∀ key : String, trie.held key.toList = lastStored entries inserts key
  tree_held : ∀ key : String, tree.get? key.toList = lastStored entries inserts key

namespace HoldsStored

variable {entries : List String} {inserts : List (String × α)} {trie : LinkedTrie α} {tree : Trie α}
  (h : HoldsStored entries inserts trie tree)

include h

theorem find?_eq (key : String) : key.toList.find? (fun c ↦ !trie.containsChar c) =
    key.toList.find? (fun c ↦ !tree.containsChar c) := by
  congr 1
  funext c
  simp only [LinkedTrie.containsChar, Trie.containsChar, h.mem_alphabet, h.tree_mem_alphabet]

theorem insert_known {key : String} (known : KnownKey entries key) (value : α) :
    ∃ after grown, trie.insert key value = .ok (.ok (lastStored entries inserts key), after) ∧
      tree.insert key value = .ok (lastStored entries inserts key, grown) ∧
      HoldsStored entries (inserts ++ [(key, value)]) after grown := by
  have known_trie : ∀ c ∈ key.toList, c ∈ trie.alphabet := fun c hc ↦
    (h.mem_alphabet c).2 (known c hc)
  have allowed : key.toList.find? (fun c ↦ !trie.containsChar c) = none := by
    simpa [LinkedTrie.containsChar] using known_trie
  obtain ⟨after, hinsert, well, alphabet, held⟩ := h.well.exists_insert known_trie value
  refine ⟨after, tree.put key.toList value, by rw [hinsert, h.held], ?_, well, ?_, ?_, ?_, ?_,
    fun other ↦ ?_, fun other ↦ ?_⟩
  · rw [Trie.insert, ← h.find?_eq, allowed, h.tree_held]
  · rw [alphabet]
    exact h.distinct
  · rw [Trie.put_alphabet]
    exact h.tree_distinct
  · rw [alphabet]
    exact h.mem_alphabet
  · rw [Trie.put_alphabet]
    exact h.tree_mem_alphabet
  · rw [held, lastStored_append, h.held]
    simp [known, String.toList_inj]
  · rw [Trie.get?_put, lastStored_append, h.tree_held]
    simp [known, String.toList_inj]

theorem insert_unknown {key : String} (unknown : ¬ KnownKey entries key) (value : α) :
    ∃ front c back, key.toList = front ++ c :: back ∧ (∀ d ∈ front, d.toString ∈ entries) ∧
      c.toString ∉ entries ∧ trie.insert key value = .ok (.error (.outside c key), trie) ∧
      tree.insert key value = .error (.outside c key) := by
  have refused : (key.toList.find? fun c ↦ !trie.containsChar c).isSome := by
    simpa [LinkedTrie.containsChar, h.mem_alphabet, KnownKey] using unknown
  obtain ⟨c, hc⟩ := Option.isSome_iff_exists.1 refused
  obtain ⟨stops, front, back, hkey, passes⟩ := List.find?_eq_some_iff_append.1 hc
  refine ⟨front, c, back, hkey, fun d hd ↦ ?_, ?_, LinkedTrie.insert_refused hc value, ?_⟩
  · simpa [LinkedTrie.containsChar, h.mem_alphabet] using passes d hd
  · simpa [LinkedTrie.containsChar, h.mem_alphabet] using stops
  · rw [Trie.insert, ← h.find?_eq, hc]

/-- A refused insert stores nothing. -/
theorem append_unknown {key : String} (unknown : ¬ KnownKey entries key) (value : α) :
    HoldsStored entries (inserts ++ [(key, value)]) trie tree := by
  have same (other : String) : lastStored entries (inserts ++ [(key, value)]) other =
      lastStored entries inserts other := by
    rw [lastStored_append, if_neg fun both ↦ unknown both.1]
  exact { h with
    held := fun other ↦ (h.held other).trans (same other).symm
    tree_held := fun other ↦ (h.tree_held other).trans (same other).symm }

/-- Each insert is answered alike, and both tries hold what it stores. -/
theorem insert (key : String) (value : α) : ∃ answer after,
    trie.insert key value = .ok (answer, after) ∧ (·.1) <$> tree.insert key value = answer ∧
      HoldsStored entries (inserts ++ [(key, value)]) after
        (((tree.insert key value).map (·.2)).toOption.getD tree) := by
  by_cases known : KnownKey entries key
  · obtain ⟨after, grown, hinsert, htree, more⟩ := h.insert_known known value
    rw [htree]
    exact ⟨_, after, hinsert, rfl, more⟩
  · obtain ⟨front, c, back, -, -, -, hinsert, htree⟩ := h.insert_unknown known value
    rw [htree]
    exact ⟨_, trie, hinsert, rfl, h.append_unknown known value⟩

theorem held_eq : trie.held = tree.get? := by
  funext key
  rw [← String.toList_ofList (l := key), h.held, h.tree_held]

theorem longest?_eq (text : List Char) : trie.longest? text = .ok (tree.longest? text) := by
  obtain ⟨found, hlongest, isLongest⟩ := h.well.longest?_isLongestKey text
  rw [h.held_eq] at isLongest
  rw [hlongest, isLongest.unique (tree.longest?_isLongestKey text)]

theorem alike : AnswersAlike trie tree := by
  refine ⟨?_, fun c ↦ ?_, fun key ↦ ?_, h.longest?_eq, fun text ↦ ?_, fun key value ↦ ?_⟩
  · have same := (List.perm_ext_iff_of_nodup h.distinct h.tree_distinct).2 fun c ↦
      (h.mem_alphabet c).trans (h.tree_mem_alphabet c).symm
    exact same.length_eq
  · simp only [LinkedTrie.containsChar, Trie.containsChar, h.mem_alphabet, h.tree_mem_alphabet]
  · rw [h.well.get?_eq, h.held_eq]
  · have found : KeywordMap.longest? tree text = tree.longest? text := rfl
    rw [LinkedTrie.startsKeyword, h.longest?_eq, KeywordMap.startsKeyword, found]
    cases tree.longest? text <;> rfl
  · obtain ⟨answer, after, hinsert, htree, -⟩ := h.insert key value
    rw [hinsert, htree]
    rfl

theorem refines {characters : List Char} (parts : entries = characters.map (·.toString)) :
    RefinesMap entries inserts trie := by
  refine ⟨?_, fun c ↦ ?_, fun key ↦ ?_, fun key value known ↦ ?_, fun key value unknown ↦ ?_⟩
  · have distinct : (trie.alphabet.map (·.toString)).Nodup :=
      h.distinct.map Text.charToString_injective
    have same := (List.perm_ext_iff_of_nodup distinct entries.nodup_dedup).2 fun entry ↦ by
      rw [List.mem_dedup, List.mem_map]
      constructor
      · rintro ⟨c, hc, rfl⟩
        exact (h.mem_alphabet c).1 hc
      · intro mem
        obtain ⟨c, -, rfl⟩ := List.mem_map.1 (parts ▸ mem)
        exact ⟨c, (h.mem_alphabet c).2 mem, rfl⟩
    rw [← same.length_eq, List.length_map]
    rfl
  · simp [LinkedTrie.containsChar, h.mem_alphabet]
  · rw [h.well.get?_eq, h.held]
  · obtain ⟨after, -, hinsert, -⟩ := h.insert_known known value
    exact ⟨after, hinsert⟩
  · obtain ⟨front, c, back, hkey, before, stops, hinsert, -⟩ := h.insert_unknown unknown value
    exact ⟨front, c, back, hkey, before, stops, hinsert⟩

end HoldsStored

/-- All inserts can be made one after the other. -/
theorem HoldsStored.insertAll {entries : List String} {start : LinkedTrie α} {tree : Trie α}
    (h : HoldsStored entries [] start tree) (inserts : List (String × α)) :
    ∃ trie, start.insertAll inserts = .ok trie ∧
      HoldsStored entries inserts trie (tree.insertAll inserts) := by
  induction inserts using List.reverseRecOn with
  | nil => exact ⟨start, rfl, h⟩
  | append_singleton inserts insert ih =>
    obtain ⟨trie, hall, holds⟩ := ih
    obtain ⟨answer, after, hinsert, -, more⟩ := holds.insert insert.1 insert.2
    refine ⟨after, ?_, ?_⟩
    · rw [LinkedTrie.insertAll, List.foldlM_append, ← LinkedTrie.insertAll, hall]
      simp only [bind, Except.bind, List.foldlM, hinsert]
      rfl
    · rw [Trie.insertAll, List.foldl_append, ← Trie.insertAll]
      exact more

namespace LinkedTrie

theorem mem_foldl_enter {c : Char} {alphabet characters : List Char} :
    c ∈ characters.foldl enter alphabet ↔ c ∈ alphabet ∨ c ∈ characters := by
  induction characters generalizing alphabet with
  | nil => simp
  | cons d characters ih =>
    rw [List.foldl_cons, ih, enter]
    split
    · next known =>
      rw [List.mem_cons]
      constructor
      · exact Or.imp_right .inr
      · rintro (h | rfl | h)
        exacts [.inl h, .inl known, .inr h]
    · rw [List.mem_append, List.mem_singleton, List.mem_cons, or_assoc]

theorem nodup_foldl_enter {alphabet : List Char} (distinct : alphabet.Nodup)
    (characters : List Char) : (characters.foldl enter alphabet).Nodup := by
  induction characters generalizing alphabet with
  | nil => exact distinct
  | cons d characters ih =>
    refine ih ?_
    rw [enter]
    split
    · exact distinct
    · next unknown => exact List.concat_eq_append .. ▸ distinct.concat unknown

theorem well_empty (alphabet : List Char) : (empty alphabet : LinkedTrie α).WellLinked := by
  have unlinked (i s : Nat) : (empty alphabet : LinkedTrie α).linked i s = none := by
    cases i with
    | zero =>
      simp only [linked, empty, TrieNode.empty, List.getElem?_toArray, List.getElem?_cons_zero,
        Option.bind_some, Array.getElem?_replicate]
      split <;> rfl
    | succ i => exact linked_of_size_le (Nat.le_add_left 1 i) s
  refine ⟨Nat.one_pos, fun i node hi ↦ ?_, fun i s child h ↦ ?_, fun i s i' s' child h ↦ ?_⟩
  · obtain ⟨hlt, rfl⟩ := Array.getElem?_eq_some_iff.1 hi
    obtain rfl := Nat.lt_one_iff.1 hlt
    simp [empty, TrieNode.empty]
  · rw [unlinked] at h
    cases h
  · rw [unlinked] at h
    cases h

theorem held_empty (alphabet key : List Char) :
    (empty alphabet : LinkedTrie α).held key = none := by
  have bare (i : Nat) : (empty alphabet : LinkedTrie α).valueAt i = none := by
    cases i with
    | zero => rfl
    | succ i => exact valueAt_of_size_le (Nat.le_add_left 1 i)
  rw [held, funext bare, Option.bind_eq_none_iff]
  exact fun _ _ ↦ rfl

end LinkedTrie

theorem Trie.nodup_foldr_insert (characters : List Char) :
    (characters.foldr List.insert []).Nodup := by
  induction characters with
  | nil => exact List.nodup_nil
  | cons c characters ih => exact ih.insert

theorem HoldsStored.empty (characters : List Char) :
    HoldsStored (α := α) (characters.map (·.toString)) []
    (.empty (characters.foldl LinkedTrie.enter [])) (.empty (characters.foldr List.insert [])) := by
  have mem (c : Char) : c ∈ characters ↔ c.toString ∈ characters.map (·.toString) :=
    (List.mem_map_of_injective Text.charToString_injective).symm
  refine ⟨LinkedTrie.well_empty _, LinkedTrie.nodup_foldl_enter List.nodup_nil characters, ?_,
    fun c ↦ ?_, fun c ↦ ?_, fun key ↦ LinkedTrie.held_empty _ _, fun key ↦ Trie.get?_empty _ _⟩
  · exact Trie.nodup_foldr_insert characters
  · rw [← mem]
    exact LinkedTrie.mem_foldl_enter.trans (by simp)
  · rw [← mem]
    exact Trie.mem_foldr_insert

/-- Each entry is one character, or there is a first one that is not. -/
theorem characters_or_other (entries : List String) :
    (∃ characters : List Char, entries = characters.map (·.toString)) ∨
      ∃ (characters : List Char) (entry : String) (back : List String),
        entries = characters.map (·.toString) ++ entry :: back ∧
          ∀ c : Char, entry ≠ c.toString := by
  induction entries with
  | nil => exact .inl ⟨[], rfl⟩
  | cons entry entries ih =>
    by_cases single : ∃ c : Char, entry = c.toString
    · obtain ⟨c, rfl⟩ := single
      rcases ih with ⟨characters, rfl⟩ | ⟨characters, entry, back, rfl, other⟩
      · exact .inl ⟨c :: characters, rfl⟩
      · exact .inr ⟨c :: characters, entry, back, rfl, other⟩
    · exact .inr ⟨[], entry, entries, rfl, not_exists.1 single⟩

theorem Trie.mapM_onlyChar_error (characters : List Char) {entry : String} (back : List String)
    (other : ∀ c : Char, entry ≠ c.toString) :
    (characters.map (·.toString) ++ entry :: back).mapM onlyChar =
      .error (.notOneCharacter entry) := by
  have refused : onlyChar entry = .error (.notOneCharacter entry) := by
    unfold onlyChar
    split
    · next c hc => exact absurd (String.toList_inj.1 (hc.trans (by simp [Char.toString]))) (other c)
    · rfl
  rw [List.mapM_append, mapM_onlyChar, List.mapM_cons, refused]
  rfl

theorem LinkedTrie.ofAlphabet_map {characters : List Char} (nonempty : characters ≠ []) :
    (ofAlphabet (characters.map (·.toString)) : Except AlphabetError (LinkedTrie α)) =
      .ok (empty (characters.foldl enter [])) := by
  obtain ⟨c, hc⟩ := List.exists_mem_of_ne_nil characters nonempty
  have filled : (characters.foldl enter []).isEmpty = false :=
    List.isEmpty_eq_false_iff.2 (List.ne_nil_of_mem (mem_foldl_enter.2 (.inr hc)))
  rw [ofAlphabet, Trie.mapM_onlyChar]
  simp only [bind, Except.bind, filled]
  rfl

theorem Trie.ofAlphabet_map {characters : List Char} (nonempty : characters ≠ []) :
    (ofAlphabet (characters.map (·.toString)) : Except AlphabetError (Trie α)) =
      .ok (empty (characters.foldr List.insert [])) := by
  rw [ofAlphabet, mapM_onlyChar]
  simp only [bind, Except.bind, List.isEmpty_eq_false_iff.2 nonempty]
  rfl

theorem LinkedTrie.ofAlphabet_outcome (entries : List String) :
    AlphabetOutcome (α := α) entries (LinkedTrie.ofAlphabet entries) (Trie.ofAlphabet entries) := by
  rcases characters_or_other entries with ⟨characters, rfl⟩ | ⟨characters, entry, back, rfl, other⟩
  · by_cases nothing : characters = []
    · subst nothing
      exact .empty rfl
    · rw [LinkedTrie.ofAlphabet_map nothing, Trie.ofAlphabet_map nothing]
      refine .ok (by simpa using nothing) rfl fun inserts ↦ ?_
      obtain ⟨trie, hall, holds⟩ := (HoldsStored.empty characters).insertAll inserts
      exact ⟨trie, hall, holds.refines rfl, holds.alike⟩
  · rw [LinkedTrie.ofAlphabet, Trie.ofAlphabet, Trie.mapM_onlyChar_error characters back other]
    exact .notOneCharacter rfl other

/-- Entries whose keys are known are all taken. -/
theorem HoldsStored.insertEntries {entries : List String} {inserts : List (String × α)}
    {start : LinkedTrie α} {tree : Trie α} (h : HoldsStored entries inserts start tree)
    {keyed : List (String × α)} (known : ∀ entry ∈ keyed, KnownKey entries entry.1) :
    start.insertEntries keyed = .ok <$> start.insertAll keyed ∧
      keyed.foldlM (fun tree entry ↦ (·.2) <$> tree.insert entry.1 entry.2) tree =
        .ok (tree.insertAll keyed) := by
  induction keyed generalizing inserts start tree with
  | nil => exact ⟨rfl, rfl⟩
  | cons entry keyed ih =>
    obtain ⟨first, others⟩ := List.forall_mem_cons.1 known
    obtain ⟨after, grown, hinsert, htree, more⟩ := h.insert_known first entry.2
    obtain ⟨hrest, htrees⟩ := ih more others
    refine ⟨?_, ?_⟩
    · rw [LinkedTrie.insertEntries, LinkedTrie.insertAll, List.foldlM_cons, hinsert]
      exact hrest
    · rw [List.foldlM_cons, Trie.insertAll, List.foldl_cons, ← Trie.insertAll, htree]
      exact htrees

theorem lastStored_of_known {entries : List String} {keyed : List (String × α)}
    (known : ∀ entry ∈ keyed, KnownKey entries entry.1) (key : String) :
    lastStored entries keyed key = keyed.reverse.lookup key := by
  rw [lastStored, List.filter_eq_self.2 fun entry mem ↦ decide_eq_true (known entry mem)]

theorem LinkedTrie.alphabetOf_eq (keyed : List (String × α)) : LinkedTrie.alphabetOf keyed =
    (' ' :: keyed.flatMap fun entry ↦ entry.1.toList).map (·.toString) := by
  simp [LinkedTrie.alphabetOf, List.map_flatMap]

theorem LinkedTrie.known_alphabetOf (keyed : List (String × α)) :
    ∀ entry ∈ keyed, KnownKey (LinkedTrie.alphabetOf keyed) entry.1 := by
  intro entry mem c hc
  rw [LinkedTrie.alphabetOf_eq, List.mem_map_of_injective Text.charToString_injective]
  exact List.mem_cons_of_mem _ (List.mem_flatMap.2 ⟨entry, mem, hc⟩)

/-- What comes of any entries: both tries, with all of the entries inserted in their order over an
alphabet of the space and the characters of the keys. -/
structure EntriesOutcome (keyed : List (String × α)) (start trie : LinkedTrie α) (tree : Trie α) :
    Prop where
  ofAlphabet : LinkedTrie.ofAlphabet (LinkedTrie.alphabetOf keyed) = .ok start
  ofEntries : LinkedTrie.ofEntries keyed = .ok (.ok trie)
  insertAll : start.insertAll keyed = .ok trie
  tree_ofEntries : Trie.ofEntries keyed = .ok tree
  alike : AnswersAlike trie tree
  containsChar : ∀ c, trie.containsChar c ↔ c = ' ' ∨ ∃ entry ∈ keyed, c ∈ entry.1.toList
  get? : ∀ key, trie.get? key = .ok (keyed.reverse.lookup key)

theorem exists_entriesOutcome (keyed : List (String × α)) :
    ∃ start trie tree, EntriesOutcome keyed start trie tree := by
  have alphabet := LinkedTrie.alphabetOf_eq keyed
  have known := LinkedTrie.known_alphabetOf keyed
  let characters := ' ' :: keyed.flatMap fun entry ↦ entry.1.toList
  have start := HoldsStored.empty (α := α) characters
  rw [← alphabet] at start
  obtain ⟨trie, hall, holds⟩ := start.insertAll keyed
  obtain ⟨hentries, htree⟩ := start.insertEntries known
  have linked := LinkedTrie.ofAlphabet_map (α := α) (List.cons_ne_nil ' ' _ : characters ≠ [])
  have branches := Trie.ofAlphabet_map (α := α) (List.cons_ne_nil ' ' _ : characters ≠ [])
  rw [← alphabet] at linked branches
  refine ⟨_, trie, _, linked, ?_, hall, ?_, holds.alike, fun c ↦ ?_, fun key ↦ ?_⟩
  · rw [LinkedTrie.ofEntries, linked]
    dsimp only
    rw [hentries, hall]
    rfl
  · change (Trie.ofAlphabet (LinkedTrie.alphabetOf keyed) >>= fun start ↦ _) = _
    rw [branches]
    exact htree
  · rw [LinkedTrie.containsChar, decide_eq_true_iff, holds.mem_alphabet, alphabet,
      List.mem_map_of_injective Text.charToString_injective, List.mem_cons, List.mem_flatMap]
  · rw [holds.well.get?_eq, holds.held, lastStored_of_known known]

/-- A trie of numbered nodes answers as a finite map, whatever its alphabet and the inserts are, and
no look at it fails. -/
theorem LinkedTrie.refines_map (entries : List String) (keyed : List (String × α)) :
    AlphabetOutcome (α := α) entries (ofAlphabet entries) (Trie.ofAlphabet entries) ∧
      ∃ start trie tree, EntriesOutcome keyed start trie tree :=
  ⟨LinkedTrie.ofAlphabet_outcome entries, exists_entriesOutcome keyed⟩

end AsciiMath
