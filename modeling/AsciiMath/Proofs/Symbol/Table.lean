import AsciiMath.Proofs.Keyword.Trie
import AsciiMath.Proofs.Token.Lookup
import AsciiMath.Proofs.Token.Scan
import AsciiMath.Symbol.Table

/-!
# Symbols that a table finds

A table can be made from any entries. What it finds at the start of a text is the symbol of an entry
whose keyword stands there, and it finds something wherever a keyword stands. Extra keywords have a
use, whatever they are.
-/

namespace AsciiMath

theorem Standard.category_ne_unused : ∀ entry ∈ symbols, entry.2.category ≠ .unused := by
  decide +kernel

namespace SymbolTable

theorem ofEntries_eq_ok (entries : List (String × Symbol)) :
    ∃ table, ofEntries entries = .ok table := by
  obtain ⟨alphabet, hbuilt⟩ := Trie.ofEntries_eq_ok entries
  exact ⟨⟨_⟩, by rw [ofEntries, hbuilt]; rfl⟩

theorem withExtras_eq_ok (entries : List (String × Symbol)) (extras : List (String × String)) :
    ∃ table, withExtras entries extras = .ok table := ofEntries_eq_ok _

theorem trie_of_ofEntries {entries : List (String × Symbol)} {table : SymbolTable}
    (built : ofEntries entries = .ok table) : Trie.ofEntries entries = .ok table.trie := by
  unfold ofEntries at built
  cases htrie : Trie.ofEntries entries with
  | error cause =>
    rw [htrie] at built
    cases built
  | ok trie =>
    rw [htrie] at built
    cases built
    rfl

theorem withExtras_nil (entries : List (String × Symbol)) :
    withExtras entries [] = ofEntries entries := rfl

theorem fits (table : SymbolTable) : KeywordMap.Fits table := by
  intro text length symbol h
  obtain ⟨front, back, htext, hlength, -⟩ := Trie.get?_of_longest? h
  exact ⟨front, back, htext, hlength⟩

/-- What is found at the start of a text is the symbol of its keyword. -/
theorem get?_of_longest? {table : SymbolTable} {front back : List Char} {symbol : Symbol}
    (h : KeywordMap.longest? table (front ++ back) = some (Text.byteLength front, symbol)) :
    table.get? (String.ofList front) = some symbol := by
  obtain ⟨key, rest, htext, hlength, hget⟩ := Trie.get?_of_longest? h
  have hsplit := Text.splitBytes?_append front back
  rw [hlength, htext, Text.splitBytes?_append] at hsplit
  obtain ⟨rfl, -⟩ := Prod.mk.inj (Option.some.inj hsplit)
  rw [get?, String.toList_ofList, hget]

/-- The symbol that is found is that of the last entry for its keyword. -/
theorem lookup_of_longest? {entries : List (String × Symbol)} {table : SymbolTable}
    (built : ofEntries entries = .ok table) {front back : List Char} {symbol : Symbol}
    (h : KeywordMap.longest? table (front ++ back) = some (Text.byteLength front, symbol)) :
    entries.reverse.lookup (String.ofList front) = some symbol := by
  rw [← Trie.get?_ofEntries (trie_of_ofEntries built)]
  exact get?_of_longest? h

/-- A symbol is that of an entry for its keyword. -/
theorem mem_of_get? {entries : List (String × Symbol)} {table : SymbolTable}
    (built : ofEntries entries = .ok table) {keyword : String} {symbol : Symbol}
    (h : table.get? keyword = some symbol) : (keyword, symbol) ∈ entries := by
  rw [get?, Trie.get?_ofEntries (trie_of_ofEntries built)] at h
  obtain ⟨earlier, later, hentries, -⟩ := List.lookup_eq_some_iff.1 h
  rw [← List.mem_reverse, hentries]
  simp

theorem mem_of_longest? {entries : List (String × Symbol)} {table : SymbolTable}
    (built : ofEntries entries = .ok table) {front back : List Char} {symbol : Symbol}
    (h : KeywordMap.longest? table (front ++ back) = some (Text.byteLength front, symbol)) :
    (String.ofList front, symbol) ∈ entries :=
  mem_of_get? built (get?_of_longest? h)

/-- Where a keyword of the entries stands, it is found, or a longer one. -/
theorem longest?_of_mem {entries : List (String × Symbol)} {table : SymbolTable}
    (built : ofEntries entries = .ok table) {entry : String × Symbol} (h : entry ∈ entries)
    (back : List Char) :
    ∃ length symbol, KeywordMap.longest? table (entry.1.toList ++ back) = some (length, symbol) ∧
      Text.byteLength entry.1.toList ≤ length := by
  have hsome := Trie.get?_ofEntries_isSome (trie_of_ofEntries built) h
  obtain ⟨symbol, hget⟩ := Option.isSome_iff_exists.1 hsome
  exact Trie.longest?_of_get? hget back

/-- A keyword of the entries starts a keyword wherever it stands. -/
theorem startsKeyword_of_mem {entries : List (String × Symbol)} {table : SymbolTable}
    (built : ofEntries entries = .ok table) {entry : String × Symbol} (h : entry ∈ entries)
    {c : Char} {cs : List Char} (hkey : entry.1.toList = c :: cs) (back : List Char) :
    KeywordMap.startsKeyword table (c :: cs ++ back) := by
  obtain ⟨length, found, hfound, hlength⟩ := longest?_of_mem built h back
  rw [hkey] at hfound hlength
  rw [KeywordMap.startsKeyword, hfound]
  exact decide_eq_true (Nat.lt_of_lt_of_le (Text.byteLength_pos (by simp)) hlength)

/-- A keyword of one character cannot stand where no keyword starts. -/
theorem ne_of_not_startsKeyword {entries : List (String × Symbol)} {table : SymbolTable}
    (built : ofEntries entries = .ok table) {entry : String × Symbol} (h : entry ∈ entries)
    {c d : Char} (hkey : entry.1.toList = [d]) {back : List Char}
    (plain : KeywordMap.startsKeyword table (c :: back) = false) : c ≠ d := by
  rintro rfl
  have starts := startsKeyword_of_mem built h hkey back
  rw [List.singleton_append, plain] at starts
  exact Bool.false_ne_true starts

/-- All entries are for keywords that have a use. -/
def Used (entries : List (String × Symbol)) : Prop :=
  ∀ entry ∈ entries, entry.2.category ≠ .unused

theorem category_ofTemplate_ne_unused (template : String) :
    (Symbol.ofTemplate template).category ≠ .unused := by
  unfold Symbol.ofTemplate
  dsimp only
  split
  · simp
  · split <;> simp

theorem Used.extend {entries : List (String × Symbol)} (used : Used entries)
    (extra : String × String) : Used (entries ++ [extraEntry entries extra]) := by
  refine List.forall_mem_append.2 ⟨used, List.forall_mem_singleton.2 ?_⟩
  unfold extraEntry
  split
  · next known hknown =>
    obtain ⟨front, back, hentries, -⟩ := List.lookup_eq_some_iff.1 hknown
    have hmem : (extra.1, known) ∈ entries := by
      rw [← List.mem_reverse, hentries]
      simp
    exact used (extra.1, known) hmem
  · exact category_ofTemplate_ne_unused extra.2

theorem Used.extendAll {entries : List (String × Symbol)} (used : Used entries)
    (extras : List (String × String)) :
    Used (extras.foldl (fun known extra ↦ known ++ [extraEntry known extra]) entries) := by
  induction extras generalizing entries with
  | nil => exact used
  | cons extra extras ih => exact ih (used.extend extra)

/-- Whatever the extra keywords are, there is a table with them, and it finds no unused keyword. -/
theorem withExtras_standard (extras : List (String × String)) :
    ∃ table, withExtras Standard.symbols extras = .ok table ∧
      ∀ text token, Scanned table text token → token.category ≠ .unused := by
  have used : Used Standard.symbols := Standard.category_ne_unused
  obtain ⟨table, built⟩ := ofEntries_eq_ok
    (extras.foldl (fun known extra ↦ known ++ [extraEntry known extra]) Standard.symbols)
  refine ⟨table, built, fun text token scanned ↦ ?_⟩
  cases scanned with
  | keyword front back symbol position found =>
    exact used.extendAll extras _ (mem_of_longest? built found)
  | _ => simp [Token.literal]

end SymbolTable

/-- The standard symbols, without the alphabet of their keywords. -/
def Standard.table : SymbolTable := ⟨(Trie.empty []).putAll symbols⟩

theorem tokenize_standard {table : SymbolTable} (built : SymbolTable.standard = .ok table)
    (text : String) : tokenize table text = tokenize Standard.table text := by
  obtain ⟨alphabet, hbuilt⟩ := Trie.ofEntries_eq_ok Standard.symbols
  rw [SymbolTable.standard, SymbolTable.ofEntries, hbuilt] at built
  obtain rfl := Except.ok.inj built
  refine tokenize_congr (fun text ↦ ?_) text
  obtain ⟨root, branches⟩ := @Trie.putAll_congr _ Standard.symbols (.empty alphabet) (.empty [])
    rfl rfl
  change Trie.longest? _ text = Trie.longest? _ text
  rw [Trie.longest?, Trie.longest?, root, branches]
  rfl

end AsciiMath
