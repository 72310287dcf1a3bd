import AsciiMath.Proofs.Keyword.Refinement
import AsciiMath.Proofs.Symbol.Table
import AsciiMath.Symbol.EntryRow
import Mathlib.Logic.Function.Basic

/-!
# Merging extra symbols

A table with extra symbols answers as the finite map in which the entries are stored one after the
other and then the extra symbols are merged. What an extra keyword means can be put behind all
entries or into the entry that counted so far: in both cases it is in the last entry for the
keyword, and only that one counts.
-/

namespace AsciiMath

def storeEntry (known : String → Option Symbol) (entry : String × Symbol) :
    String → Option Symbol :=
  Function.update known entry.1 (some entry.2)

/-- A known keyword keeps its category and its flag. -/
def extraMeaning (known : Option Symbol) (template : String) : Symbol :=
  match known with
  | some symbol => { symbol with template }
  | none => .ofTemplate template

def mergeExtra (known : String → Option Symbol) (extra : String × String) :
    String → Option Symbol :=
  storeEntry known (extra.1, extraMeaning (known extra.1) extra.2)

/-- What each keyword means after all entries and then all extra symbols. -/
def merged (entries : List (String × Symbol)) (extras : List (String × String)) :
    String → Option Symbol :=
  extras.foldl mergeExtra (entries.foldl storeEntry fun _ ↦ none)

/-- The symbol of the last entry for a keyword. -/
def lastMeaning (entries : List (String × Symbol)) (keyword : String) : Option Symbol :=
  entries.reverse.lookup keyword

theorem lastMeaning_append (earlier later : List (String × Symbol)) (keyword : String) :
    lastMeaning (earlier ++ later) keyword =
      (lastMeaning later keyword).or (lastMeaning earlier keyword) := by
  rw [lastMeaning, List.reverse_append, List.lookup_append, lastMeaning, lastMeaning]

theorem lastMeaning_singleton (entry : String × Symbol) (keyword : String) :
    lastMeaning [entry] keyword = if keyword = entry.1 then some entry.2 else none := by
  rw [lastMeaning, List.reverse_singleton]
  by_cases same : keyword = entry.1
  · rw [same, List.lookup_cons_self, if_pos rfl]
  · rw [List.lookup_cons, beq_eq_false_iff_ne.2 same, if_neg same]
    rfl

theorem lastMeaning_eq_none {entries : List (String × Symbol)} {keyword : String}
    (absent : keyword ∉ entries.map Prod.fst) : lastMeaning entries keyword = none := by
  rw [lastMeaning, List.lookup_eq_none_iff]
  intro entry mem
  rw [bne_iff_ne]
  rintro rfl
  exact absent (List.mem_map_of_mem (List.mem_reverse.1 mem))

theorem lastMeaning_isSome {entries : List (String × Symbol)} {keyword : String}
    (known : keyword ∈ entries.map Prod.fst) : (lastMeaning entries keyword).isSome := by
  rw [lastMeaning, List.lookup_isSome_iff]
  obtain ⟨entry, mem, rfl⟩ := List.mem_map.1 known
  exact ⟨entry, List.mem_reverse.2 mem, beq_self_eq_true _⟩

theorem lastMeaning_concat (entries : List (String × Symbol)) (entry : String × Symbol) :
    lastMeaning (entries ++ [entry]) = storeEntry (lastMeaning entries) entry := by
  ext1 keyword
  rw [lastMeaning_append, lastMeaning_singleton, storeEntry, Function.update_apply]
  split <;> rfl

/-- Another symbol in the last entry for a keyword is the keyword's meaning. -/
theorem lastMeaning_set {earlier later : List (String × Symbol)} {keyword : String}
    (last : keyword ∉ later.map Prod.fst) (symbol other : Symbol) :
    lastMeaning (earlier ++ (keyword, other) :: later) =
      storeEntry (lastMeaning (earlier ++ (keyword, symbol) :: later)) (keyword, other) := by
  have parts (symbol : Symbol) (asked : String) :
      lastMeaning (earlier ++ (keyword, symbol) :: later) asked =
        ((lastMeaning later asked).or (if asked = keyword then some symbol else none)).or
          (lastMeaning earlier asked) := by
    rw [lastMeaning_append, ← List.singleton_append, lastMeaning_append, lastMeaning_singleton]
  ext1 asked
  rw [storeEntry, Function.update_apply, parts, parts]
  split
  · next same =>
    rw [same, lastMeaning_eq_none last]
    rfl
  · rfl

theorem foldl_storeEntry (entries : List (String × Symbol)) :
    entries.foldl storeEntry (fun _ ↦ none) = lastMeaning entries := by
  induction entries using List.reverseRecOn with
  | nil => rfl
  | append_singleton entries entry ih =>
    rw [List.foldl_append, ih, lastMeaning_concat]
    rfl

/-- Behind all entries stands what the merge of the extra symbols says. -/
theorem lastMeaning_extendAll (entries : List (String × Symbol))
    (extras : List (String × String)) :
    lastMeaning (extras.foldl
        (fun known extra ↦ known ++ [SymbolTable.extraEntry known extra]) entries) =
      extras.foldl mergeExtra (lastMeaning entries) := by
  have entry (known : List (String × Symbol)) (extra : String × String) :
      SymbolTable.extraEntry known extra =
        (extra.1, extraMeaning (lastMeaning known extra.1) extra.2) := by
    unfold SymbolTable.extraEntry extraMeaning lastMeaning
    cases known.reverse.lookup extra.1 <;> rfl
  induction extras generalizing entries with
  | nil => rfl
  | cons extra extras ih =>
    rw [List.foldl_cons, ih, lastMeaning_concat, entry]
    rfl

/-- Each key has the place where it occurs last. -/
structure LastPlaces (keys : List String) (places : List (String × Nat)) : Prop where
  present : ∀ key place, places.lookup key = some place →
    ∃ earlier later, keys = earlier ++ key :: later ∧ earlier.length = place ∧ key ∉ later
  absent : ∀ key, places.lookup key = none → key ∉ keys

theorem LastPlaces.nil : LastPlaces [] [] :=
  ⟨fun key place h ↦ absurd h (by simp), fun key _ ↦ List.not_mem_nil⟩

theorem LastPlaces.concat {keys : List String} {places : List (String × Nat)}
    (h : LastPlaces keys places) (key : String) :
    LastPlaces (keys ++ [key]) ((key, keys.length) :: places) := by
  constructor
  · intro asked place found
    rw [List.lookup_cons] at found
    by_cases same : asked = key
    · subst same
      rw [beq_self_eq_true] at found
      exact ⟨keys, [], rfl, Option.some.inj found, List.not_mem_nil⟩
    · rw [beq_eq_false_iff_ne.2 same] at found
      obtain ⟨earlier, later, rfl, hlength, last⟩ := h.present asked place found
      refine ⟨earlier, later ++ [key], by simp, hlength, ?_⟩
      simp [last, same]
  · intro asked missing
    rw [List.lookup_cons] at missing
    by_cases same : asked = key
    · simp [same] at missing
    · rw [beq_eq_false_iff_ne.2 same] at missing
      simp [h.absent asked missing, same]

namespace EntryRow

def WellPlaced (row : EntryRow) : Prop := LastPlaces (row.entries.map Prod.fst) row.places

theorem WellPlaced.push {row : EntryRow} (h : row.WellPlaced) (entry : String × Symbol) :
    (row.push entry).WellPlaced := by
  have step := LastPlaces.concat h entry.1
  rw [List.length_map] at step
  unfold WellPlaced EntryRow.push
  rw [List.map_append]
  exact step

theorem ofEntries_wellPlaced (entries : List (String × Symbol)) :
    (ofEntries entries).WellPlaced ∧ (ofEntries entries).entries = entries := by
  induction entries using List.reverseRecOn with
  | nil => exact ⟨LastPlaces.nil, rfl⟩
  | append_singleton entries entry ih =>
    rw [ofEntries, List.foldl_append, ← ofEntries]
    exact ⟨ih.1.push entry, congrArg (· ++ [entry]) ih.2⟩

/-- One extra symbol is merged, whether its keyword has a place or not. -/
theorem WellPlaced.exists_add {row : EntryRow} (h : row.WellPlaced) (extra : String × String) :
    ∃ after, row.add? extra = some after ∧ after.WellPlaced ∧
      lastMeaning after.entries = mergeExtra (lastMeaning row.entries) extra := by
  unfold add? mergeExtra
  cases hplace : row.places.lookup extra.1 with
  | none =>
    have unknown := lastMeaning_eq_none (h.absent extra.1 hplace)
    refine ⟨_, rfl, h.push _, ?_⟩
    rw [unknown]
    exact lastMeaning_concat row.entries _
  | some place =>
    obtain ⟨front, back, hkeys, hlength, last⟩ := h.present extra.1 place hplace
    obtain ⟨earlier, rest, hentries, rfl, hrest⟩ := List.map_eq_append_iff.1 hkeys
    obtain ⟨⟨keyword, symbol⟩, later, rfl, hkeyword, rfl⟩ := List.map_eq_cons_iff.1 hrest
    obtain rfl : keyword = extra.1 := hkeyword
    obtain rfl : earlier.length = place := by simpa using hlength
    have meaning : lastMeaning row.entries extra.1 = some symbol := by
      rw [hentries, lastMeaning_append, ← List.singleton_append, lastMeaning_append,
        lastMeaning_eq_none last, lastMeaning_singleton, if_pos rfl]
      rfl
    have restyled (template : String) : row.restyle? earlier.length template = some { row with
        entries := earlier ++ (extra.1, { symbol with template }) :: later } := by
      simp [restyle?, hentries]
    refine ⟨_, restyled extra.2, ?_, ?_⟩
    · unfold WellPlaced
      simpa [WellPlaced, hentries] using h
    · rw [meaning, hentries]
      exact lastMeaning_set last symbol _

/-- A step for each extra symbol, from the first to the last. -/
theorem WellPlaced.exists_addAll {row : EntryRow} (h : row.WellPlaced)
    (extras : List (String × String)) :
    ∃ after, extras.foldlM add? row = some after ∧
      lastMeaning after.entries = extras.foldl mergeExtra (lastMeaning row.entries) := by
  induction extras generalizing row with
  | nil => exact ⟨row, rfl, rfl⟩
  | cons extra extras ih =>
    obtain ⟨middle, hadd, placed, hmiddle⟩ := h.exists_add extra
    obtain ⟨after, hall, hafter⟩ := ih placed
    refine ⟨after, ?_, ?_⟩
    · rw [List.foldlM_cons, hadd]
      exact hall
    · rw [hafter, hmiddle, List.foldl_cons]

end EntryRow

/-- The row that holds what the merge of the extra symbols says. -/
theorem EntryRow.exists_withExtras (entries : List (String × Symbol))
    (extras : List (String × String)) :
    ∃ row, withExtras? entries extras = some row ∧
      lastMeaning row.entries = merged entries extras := by
  obtain ⟨placed, hentries⟩ := ofEntries_wellPlaced entries
  obtain ⟨row, hrow, hmeaning⟩ := placed.exists_addAll extras
  refine ⟨row, hrow, ?_⟩
  rw [hmeaning, hentries, merged, foldl_storeEntry]

/-- A trie of any entries finds the longest keyword by the last entries for all of them. -/
theorem EntriesOutcome.exists_longest? {entries : List (String × Symbol)}
    {start trie : LinkedTrie Symbol} {tree : Trie Symbol}
    (outcome : EntriesOutcome entries start trie tree) (text : List Char) :
    ∃ found, trie.longest? text = .ok found ∧
      IsLongestKey (fun key ↦ lastMeaning entries (String.ofList key)) text found := by
  have held : tree.get? = fun key ↦ lastMeaning entries (String.ofList key) := by
    ext1 key
    have get := Trie.get?_ofEntries outcome.tree_ofEntries (String.ofList key)
    rwa [String.toList_ofList] at get
  refine ⟨tree.longest? text, outcome.alike.longest? text, ?_⟩
  rw [← held]
  exact tree.longest?_isLongestKey text

namespace SymbolTable

variable {entries : List (String × Symbol)} {extras : List (String × String)}
  {table : SymbolTable} (built : withExtras entries extras = .ok table)

include built

theorem get?_withExtras (keyword : String) :
    table.get? keyword = merged entries extras keyword := by
  rw [merged, foldl_storeEntry, ← lastMeaning_extendAll]
  exact Trie.get?_ofEntries (trie_of_ofEntries built) keyword

theorem longest?_withExtras (text : List Char) :
    IsLongestKey (fun key ↦ merged entries extras (String.ofList key)) text
      (KeywordMap.longest? table text) := by
  have held : table.trie.get? = fun key ↦ merged entries extras (String.ofList key) := by
    ext1 key
    rw [← get?_withExtras built, get?, String.toList_ofList]
  rw [← held]
  exact table.trie.longest?_isLongestKey text

end SymbolTable

/-- Whatever the entries and the extra symbols are, the table that is made of them answers as the
map in which they are merged one after the other. So does the trie of numbered nodes that is made
of the entries in a row with their places, and no place or node in it is missing. -/
theorem SymbolTable.withExtras_merges (entries : List (String × Symbol))
    (extras : List (String × String)) :
    ∃ table row trie, withExtras entries extras = .ok table ∧
      EntryRow.withExtras? entries extras = some row ∧
      LinkedTrie.ofEntries row.entries = .ok (.ok trie) ∧
      (∀ keyword, table.get? keyword = merged entries extras keyword ∧
        trie.get? keyword = .ok (merged entries extras keyword)) ∧
      ∀ text, ∃ found, KeywordMap.longest? table text = found ∧ trie.longest? text = .ok found ∧
        IsLongestKey (fun key ↦ merged entries extras (String.ofList key)) text found := by
  obtain ⟨table, built⟩ := withExtras_eq_ok entries extras
  obtain ⟨row, hrow, hmeaning⟩ := EntryRow.exists_withExtras entries extras
  obtain ⟨start, trie, tree, outcome⟩ := exists_entriesOutcome row.entries
  refine ⟨table, row, trie, built, hrow, outcome.ofEntries, fun keyword ↦ ⟨?_, ?_⟩, fun text ↦ ?_⟩
  · exact get?_withExtras built keyword
  · rw [outcome.get?, ← hmeaning]
    rfl
  · have longest := longest?_withExtras built text
    obtain ⟨found, hfound, isLongest⟩ := outcome.exists_longest? text
    rw [hmeaning] at isLongest
    exact ⟨found, longest.unique isLongest, hfound, isLongest⟩

/-- The first extra symbol finds the category of the last entry, and the third one that of the
second. -/
example : merged [("a", ⟨"x", .constant, none⟩), ("a", ⟨"y", .sign, none⟩)]
      [("a", "$1"), ("b", "$1"), ("b", "z")] "a" = some ⟨"$1", .sign, none⟩ ∧
    merged [("a", ⟨"x", .constant, none⟩), ("a", ⟨"y", .sign, none⟩)]
      [("a", "$1"), ("b", "$1"), ("b", "z")] "b" = some ⟨"z", .prefixUnary, none⟩ := by
  decide

end AsciiMath
