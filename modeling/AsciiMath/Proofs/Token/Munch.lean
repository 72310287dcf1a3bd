import AsciiMath.Proofs.Symbol.Table
import AsciiMath.Proofs.Token.Layout

/-!
# The longest keyword is read

At each place of a text where a token starts, the longest of the keywords that stand there is read,
with the symbol of the last entry for it. Where none stands the longest numeral is read, or a text
in quotes, or a run that goes on up to a blank or the next keyword. All this is said about the
entries that a table is made from, and not about what the table finds.
-/

namespace AsciiMath

/-- A keyword other than the empty one stands at the start of the text. -/
def StartsWithKeyword (entries : List (String × Symbol)) (text : List Char) : Prop :=
  ∃ entry ∈ entries, entry.1 ≠ "" ∧ entry.1.toList <+: text

structure IsLongestKeyword (entries : List (String × Symbol)) (keyword : String)
    (text : List Char) : Prop where
  nonempty : keyword ≠ ""
  starts : keyword.toList <+: text
  longest : ∀ entry ∈ entries, entry.1.toList <+: text → entry.1.length ≤ keyword.length

/-- No later entry is for the same keyword. -/
def IsLastEntry (entries : List (String × Symbol)) (keyword : String) (symbol : Symbol) : Prop :=
  ∃ earlier later, entries = earlier ++ (keyword, symbol) :: later ∧
    ∀ entry ∈ later, entry.1 ≠ keyword

/-- What is read at the start of a text where no keyword stands. -/
inductive ReadsLiteral (entries : List (String × Symbol)) :
    Category → List Char → List Char → Prop where
  | number {value back : List Char} (numeral : IsNumeral value)
      (longest : ∀ longer, longer <+: value ++ back → IsNumeral longer →
        longer.length ≤ value.length) :
      ReadsLiteral entries .number value (value ++ back)
  /-- The text inside goes on to the next quote, or to the end. -/
  | quotation {inside back : List Char} (inner : '\x22' ∉ inside)
      (ends : ∀ c cs, back = c :: cs → c = '\x22') :
      ReadsLiteral entries .text inside ('\x22' :: inside ++ back)
  | run {value back : List Char} (nonempty : value ≠ [])
      (solid : ∀ c ∈ value, ¬ Text.isBlank c)
      (plain : ∀ past ahead, value = past ++ ahead → ahead ≠ [] →
        ¬ StartsWithKeyword entries (ahead ++ back))
      (ends : ∀ c cs, back = c :: cs → Text.isBlank c ∨ StartsWithKeyword entries back) :
      ReadsLiteral entries .run value (value ++ back)

/-- A token with the text from its start on, behind a token that asks for what the flag says. -/
structure Munched (entries : List (String × Symbol)) (asking : Option Flag) (token : Token)
    (text : List Char) : Prop where
  keyword : token.keyword → IsLongestKeyword entries token.value text ∧
    IsLastEntry entries token.value ⟨token.template, token.category, token.flag⟩
  plain : token.keyword = false → ¬ token.IsRowBreak → asking = none →
    ¬ StartsWithKeyword entries text
  literal : token.keyword = false → ¬ token.IsRowBreak → asking = none →
    ReadsLiteral entries token.category token.value.toList text

theorem isLastEntry_of_lookup {entries : List (String × Symbol)} {keyword : String}
    {symbol : Symbol} (h : entries.reverse.lookup keyword = some symbol) :
    IsLastEntry entries keyword symbol := by
  obtain ⟨later, earlier, hentries, others⟩ := List.lookup_eq_some_iff.1 h
  refine ⟨earlier.reverse, later.reverse, ?_, fun entry mem same ↦ ?_⟩
  · rw [← List.reverse_reverse entries, hentries]
    simp
  · have other := others entry (List.mem_reverse.1 mem)
    simp [same] at other

theorem offers_iff {μ : Type} [KeywordMap μ Symbol] {keywords : μ}
    (fits : KeywordMap.Fits keywords) (text : List Char) :
    Offers keywords text ↔ KeywordMap.startsKeyword keywords text := by
  constructor
  · rintro ⟨value, back, symbol, -, nonempty, found⟩
    rw [KeywordMap.startsKeyword, found]
    exact decide_eq_true (Text.byteLength_pos nonempty)
  · intro starts
    unfold KeywordMap.startsKeyword at starts
    split at starts
    · next length symbol found =>
      obtain ⟨front, back, rfl, rfl⟩ := fits text length symbol found
      refine ⟨front, back, symbol, rfl, ?_, found⟩
      rintro rfl
      exact absurd (of_decide_eq_true starts) (by simp)
    · cases starts

namespace SymbolTable

variable {entries : List (String × Symbol)} {table : SymbolTable}
  (built : ofEntries entries = .ok table)

include built

theorem startsKeyword_iff (text : List Char) :
    KeywordMap.startsKeyword table text ↔ StartsWithKeyword entries text := by
  constructor
  · rw [← offers_iff table.fits]
    rintro ⟨value, back, symbol, rfl, nonempty, found⟩
    refine ⟨_, mem_of_longest? built found, fun empty ↦ nonempty ?_, ?_⟩
    · simpa using empty
    · simp
  · rintro ⟨entry, mem, nonempty, back, rfl⟩
    have filled : entry.1.toList ≠ [] := fun h ↦ nonempty (String.toList_eq_nil_iff.1 h)
    obtain ⟨c, cs, hkey⟩ := List.exists_cons_of_ne_nil filled
    rw [hkey]
    exact startsKeyword_of_mem built mem hkey back

theorem isLongestKeyword {value back : List Char} {symbol : Symbol} (nonempty : value ≠ [])
    (found : KeywordMap.longest? table (value ++ back) = some (Text.byteLength value, symbol)) :
    IsLongestKeyword entries (String.ofList value) (value ++ back) := by
  refine ⟨fun empty ↦ nonempty (by simpa using empty), by simp, ?_⟩
  rintro entry mem ⟨rest, hrest⟩
  obtain ⟨length, other, hfound, hlength⟩ := longest?_of_mem built mem rest
  rw [hrest, found] at hfound
  obtain ⟨rfl, -⟩ := Prod.mk.inj (Option.some.inj hfound)
  have within := Text.length_le_of_byteLength_le (List.prefix_append value back) ⟨rest, hrest⟩
    hlength
  rwa [String.length_toList, ← String.length_ofList] at within

end SymbolTable

theorem Spelled.munched {entries : List (String × Symbol)} {table : SymbolTable}
    (built : SymbolTable.ofEntries entries = .ok table) {position : Position}
    {opening closing back : List Char} {token : Token}
    (spelled : Spelled table position opening token closing back) :
    Munched entries none token (opening ++ token.value.toList ++ closing ++ back) := by
  have bare {text : List Char} (plain : ¬ Offers table text) :
      ¬ StartsWithKeyword entries text := by
    rwa [offers_iff table.fits, SymbolTable.startsKeyword_iff built] at plain
  cases spelled with
  | keyword nonempty found =>
    have longest := SymbolTable.isLongestKeyword built nonempty found
    have last := isLastEntry_of_lookup (SymbolTable.lookup_of_longest? built found)
    exact ⟨fun _ ↦ ⟨by simpa using longest, last⟩, by simp, by simp⟩
  | number plain numeral longest =>
    refine ⟨by simp [Token.literal], fun _ _ _ ↦ ?_, fun _ _ _ ↦ ?_⟩
    · simpa [Token.literal] using bare plain
    · simpa [Token.literal] using .number numeral longest
  | @quotation inside closing back plain inner closed =>
    have reads : ReadsLiteral entries .text inside ('\x22' :: inside ++ (closing ++ back)) := by
      refine .quotation inner fun c cs hback ↦ ?_
      rcases closed with rfl | ⟨rfl, rfl⟩
      · exact (List.cons.inj hback).1.symm
      · cases hback
    refine ⟨by simp, fun _ _ _ ↦ ?_, fun _ _ _ ↦ ?_⟩
    · simpa using bare plain
    · simpa using reads
  | @run value back nonempty plain solid ends =>
    have free {past ahead : List Char} (parts : value = past ++ ahead) (more : ahead ≠ []) :
        ¬ StartsWithKeyword entries (ahead ++ back) := by
      rw [← SymbolTable.startsKeyword_iff built, plain past ahead parts more]
      exact Bool.false_ne_true
    have reads : ReadsLiteral entries .run value (value ++ back) := by
      refine .run nonempty solid (fun past ahead ↦ free) fun c cs hback ↦ ?_
      rw [← SymbolTable.startsKeyword_iff built]
      exact ends c cs hback
    refine ⟨by simp [Token.literal], fun _ _ _ ↦ ?_, fun _ _ _ ↦ ?_⟩
    · simpa [Token.literal] using free (List.nil_append value).symm nonempty
    · simpa [Token.literal] using reads

theorem Segment.Stands.munched {entries : List (String × Symbol)} {table : SymbolTable}
    (built : SymbolTable.ofEntries entries = .ok table) {front back : List Char}
    {asking : Option Flag} {segment : Segment}
    (stands : segment.Stands table front asking back) :
    ∃ passed rest, front ++ (segment.text ++ back) = passed ++ rest ∧
      segment.token.position = .behind passed ∧ Munched entries asking segment.token rest := by
  cases stands with
  | @rowBreak blank c cs isBlank broken solid =>
    have isRowBreak : Token.IsRowBreak ⟨String.ofList blank, AsciiMath.rowBreak, .alignMark, false,
        none, .behind front⟩ := ⟨rfl, rfl, rfl⟩
    exact ⟨front, _, rfl, rfl, by simp, fun _ other ↦ absurd isRowBreak other,
      fun _ other ↦ absurd isRowBreak other⟩
  | @lexeme gap opening closing back token skipped spelled =>
    refine ⟨front ++ gap, opening ++ token.value.toList ++ closing ++ back, ?_, ?_,
      spelled.munched built⟩
    · simp [Segment.text]
    · cases spelled <;> rfl
  | @argument flag gap opening inside closing back inline delimited =>
    refine ⟨front ++ gap ++ if flag = .colorSpec then opening else [],
      (if flag = .colorSpec then [] else opening) ++ inside ++ closing ++ back, ?_, rfl, ?_⟩
    · split <;> simp [Segment.text, Token.literal]
    · exact ⟨by simp [Token.literal], by simp, by simp⟩

/-- Whatever the entries are, each token of a text is read as they say. -/
theorem tokenize_munched (entries : List (String × Symbol)) (text : String) :
    ∃ table tokens, SymbolTable.ofEntries entries = .ok table ∧
      tokenize table text = .ok tokens ∧
      ∀ before token after, tokens = before ++ token :: after →
        ∃ front back, text.toList = front ++ back ∧ token.position = .behind front ∧
          Munched entries (before.getLast?.bind Token.asks) token back := by
  obtain ⟨table, built⟩ := SymbolTable.ofEntries_eq_ok entries
  obtain ⟨segments, htokens, laid⟩ := tokenize_laid table.fits text
  refine ⟨table, _, built, htokens, fun before token after parts ↦ ?_⟩
  obtain ⟨earlier, others, rfl, rfl, hothers⟩ := List.map_eq_append_iff.1 parts
  obtain ⟨segment, later, rfl, rfl, rfl⟩ := List.map_eq_cons_iff.1 hothers
  obtain ⟨back, htext, stands⟩ := laid.stands
  have asks : (earlier.map Segment.token).getLast?.bind Token.asks = Segment.asked earlier := by
    rw [List.getLast?_map, Option.bind_map]
    rfl
  rw [htext, asks]
  exact stands.munched built

end AsciiMath
