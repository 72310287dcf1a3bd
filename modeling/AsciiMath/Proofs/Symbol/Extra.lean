import AsciiMath.Proofs.Keyword.Fronts
import AsciiMath.Proofs.Symbol.Merge

/-!
# What an extra symbol changes

A text in which no token can start with the keyword of an extra symbol is split into the same tokens
with and without it. Where the keyword is known, every place of it in a text has the given TeX, and
nothing else changes, since the keyword is found where it was found before.
-/

namespace AsciiMath

theorem KeywordMap.keywordAt?_of_longest? {μ α : Type} [KeywordMap μ α] {keywords : μ}
    {front back : List Char} {value : α} (nonempty : front ≠ [])
    (h : longest? keywords (front ++ back) = some (Text.byteLength front, value)) :
    keywordAt? keywords (front ++ back) = some ((front, back), value) := by
  have split := Text.splitBytes?_append front back
  obtain ⟨length, hlength⟩ :=
    Nat.exists_eq_succ_of_ne_zero (Nat.ne_of_gt (Text.byteLength_pos nonempty))
  rw [hlength] at h split
  rw [keywordAt?, h]
  exact congrArg (Option.map (·, value)) split

/-- A keyword is found at the start of a text if it is the longest that stands there. -/
theorem IsLongestKey.keywordAt?_eq_some {μ α : Type} [KeywordMap μ α] {keywords : μ}
    {held : List Char → Option α} {text : List Char}
    (h : IsLongestKey held text (KeywordMap.longest? keywords text)) {front back : List Char}
    {value : α} :
    KeywordMap.keywordAt? keywords text = some ((front, back), value) ↔
      front ≠ [] ∧ front ++ back = text ∧ held front = some value ∧
        ∀ longer, longer <+: text → (held longer).isSome → longer.length ≤ front.length := by
  constructor
  · intro read
    generalize hlongest : KeywordMap.longest? keywords text = answer at h
    cases h with
    | missing absent => simp [KeywordMap.keywordAt?, hlongest] at read
    | @present key _ starts found longest =>
      obtain ⟨rest, rfl⟩ := starts
      by_cases empty : key = []
      · rw [KeywordMap.keywordAt?, hlongest, empty] at read
        cases read
      · rw [KeywordMap.keywordAt?_of_longest? empty hlongest] at read
        cases read
        exact ⟨empty, rfl, found, longest⟩
  · rintro ⟨nonempty, rfl, found, longest⟩
    apply KeywordMap.keywordAt?_of_longest? nonempty
    exact h.unique (.present (List.prefix_append front back) found longest)

/-- Keys with the same symbols up to their TeX are found alike. Of the empty key nothing is asked,
since it starts no keyword. -/
theorem IsLongestKey.foundAlike {μ ν : Type} [KeywordMap μ Symbol] [KeywordMap ν Symbol]
    {keywords : μ} {others : ν} {templates : String → String → String}
    {held other : List Char → Option Symbol} {text : List Char}
    (h : IsLongestKey held text (KeywordMap.longest? keywords text))
    (h' : IsLongestKey other text (KeywordMap.longest? others text))
    (same : ∀ key, key <+: text → key ≠ [] →
      other key = (held key).map (Symbol.restyle templates key)) :
    FoundAlike templates keywords others text := by
  have known (key : List Char) (starts : key <+: text) (nonempty : key ≠ []) :
      (other key).isSome = (held key).isSome := by
    rw [same key starts nonempty, Option.isSome_map]
  have longest (front : List Char) :
      (∀ longer, longer <+: text → (other longer).isSome → longer.length ≤ front.length) ↔
        ∀ longer, longer <+: text → (held longer).isSome → longer.length ≤ front.length := by
    refine forall₂_congr fun longer starts ↦ ?_
    -- The empty key is no longer than any other, whatever it stands for.
    cases longer with
    | nil => simp
    | cons c cs => rw [known (c :: cs) starts (List.cons_ne_nil c cs)]
  constructor
  · rw [Bool.eq_iff_iff, KeywordMap.startsKeyword_iff, KeywordMap.startsKeyword_iff, h.pos_iff,
      h'.pos_iff]
    refine exists_congr fun front ↦ and_congr_right fun starts ↦ and_congr_right fun nonempty ↦ ?_
    rw [known front starts nonempty]
  · ext ⟨⟨front, back⟩, symbol⟩
    rw [h'.keywordAt?_eq_some, longest, Option.map_eq_some_iff]
    constructor
    · rintro ⟨nonempty, rfl, found, greatest⟩
      rw [same front (List.prefix_append front back) nonempty] at found
      obtain ⟨known, hknown, rfl⟩ := Option.map_eq_some_iff.1 found
      refine ⟨((front, back), known), ?_, rfl⟩
      exact h.keywordAt?_eq_some.2 ⟨nonempty, rfl, hknown, greatest⟩
    · rintro ⟨⟨parts, known⟩, found, hparts⟩
      obtain ⟨rfl, rfl⟩ := Prod.mk.inj hparts
      obtain ⟨nonempty, rfl, hknown, greatest⟩ := h.keywordAt?_eq_some.1 found
      refine ⟨nonempty, rfl, ?_, greatest⟩
      rw [same front (List.prefix_append front back) nonempty, hknown]
      rfl

/-- A keyword with which no token of a text can start. -/
inductive OutOfSight (keyword text : String) : Prop where
  | empty (h : keyword = "")
  | blank {c : Char} {cs : List Char} (starts : keyword.toList = c :: cs) (blank : Text.isBlank c)
  | absent (h : ¬ keyword.toList <:+: text.toList)

/-- A scanner never looks at a place where such a keyword stands. -/
theorem OutOfSight.ne {keyword text : String} (h : OutOfSight keyword text)
    {rest key : List Char} (suffix : rest <:+ text.toList)
    (solid : ∀ c cs, rest = c :: cs → ¬ Text.isBlank c) (starts : key <+: rest)
    (nonempty : key ≠ []) : String.ofList key ≠ keyword := by
  rintro rfl
  cases h with
  | empty h => exact nonempty (String.ofList_eq_empty_iff.1 h)
  | @blank c cs begins blank =>
    obtain ⟨more, rfl⟩ := starts
    rw [String.toList_ofList] at begins
    exact solid c (cs ++ more) (by rw [begins, List.cons_append]) blank
  | absent h =>
    apply h
    rw [String.toList_ofList]
    exact starts.isInfix.trans suffix.isInfix

/-- The TeX of an extra symbol, where it takes the place of another one for its keyword. -/
def overriding (extra : String × String) (keyword template : String) : String :=
  if keyword = extra.1 then extra.2 else template

namespace SymbolTable

variable {entries : List (String × Symbol)} {extra : String × String} {base extended : SymbolTable}
  (built : ofEntries entries = .ok base) (built' : withExtras entries [extra] = .ok extended)

include built built'

/-- Tables scan a text alike if this holds for what is known with and without the extra symbol. -/
theorem scansAlike_withExtra {templates : String → String → String} {text : List Char}
    (same : ∀ rest, rest <:+ text → (∀ c cs, rest = c :: cs → ¬ Text.isBlank c) →
      ∀ key, key <+: rest → key ≠ [] →
        mergeExtra (lastMeaning entries) extra (String.ofList key) =
          (lastMeaning entries (String.ofList key)).map (Symbol.restyle templates key)) :
    ScansAlike templates base extended text := by
  rw [← withExtras_nil] at built
  intro rest suffix solid
  have held := longest?_withExtras built rest
  have other := longest?_withExtras built' rest
  simp only [merged, foldl_storeEntry, List.foldl_cons, List.foldl_nil] at held other
  exact held.foundAlike other (same rest suffix solid)

theorem tokenize_withExtra_of_outOfSight {text : String} (h : OutOfSight extra.1 text) :
    tokenize extended text = tokenize base text := by
  have alike : ScansAlike (fun _ ↦ id) base extended text.toList := by
    apply scansAlike_withExtra built built'
    intro rest suffix solid key starts nonempty
    rw [mergeExtra, storeEntry, Function.update_of_ne (h.ne suffix solid starts nonempty)]
    exact Option.map_id'.symm
  rw [tokenize_restyle alike, funext Token.restyle_id, List.map_id_fun', id_map]

theorem tokenize_withExtra_of_mem (known : extra.1 ∈ entries.map Prod.fst) (text : String) :
    tokenize extended text =
      List.map (Token.restyle (overriding extra)) <$> tokenize base text := by
  apply tokenize_restyle
  apply scansAlike_withExtra built built'
  intro rest _ _ key _ _
  obtain ⟨symbol, hsymbol⟩ := Option.isSome_iff_exists.1 (lastMeaning_isSome known)
  rw [mergeExtra, storeEntry, Function.update_apply]
  by_cases own : String.ofList key = extra.1
  · simp [own, hsymbol, extraMeaning, Symbol.restyle, overriding]
  · have kept (symbol : Symbol) : symbol.restyle (overriding extra) key = symbol := by
      rw [Symbol.restyle, overriding, if_neg own]
    rw [if_neg own, funext kept]
    exact Option.map_id'.symm

end SymbolTable

/-- One extra symbol changes no token of a text in which none can start with its keyword. If there
is an entry for the keyword, the tokens that are this keyword have its TeX, and nothing else
changes. -/
theorem SymbolTable.tokenize_withExtra (entries : List (String × Symbol))
    (extra : String × String) (text : String) :
    ∃ base extended tokens, ofEntries entries = .ok base ∧
      withExtras entries [extra] = .ok extended ∧ tokenize base text = .ok tokens ∧
      (OutOfSight extra.1 text → tokenize extended text = .ok tokens) ∧
      (extra.1 ∈ entries.map Prod.fst →
        tokenize extended text = .ok (tokens.map (Token.restyle (overriding extra)))) := by
  obtain ⟨base, built⟩ := ofEntries_eq_ok entries
  obtain ⟨extended, built'⟩ := withExtras_eq_ok entries [extra]
  obtain ⟨tokens, htokens, -⟩ := tokenize_eq_ok base.fits text
  refine ⟨base, extended, tokens, built, built', htokens, fun h ↦ ?_, fun known ↦ ?_⟩
  · rw [tokenize_withExtra_of_outOfSight built built' h, htokens]
  · rw [tokenize_withExtra_of_mem built built' known, htokens]
    rfl

/-- The keyword is overridden where it is a token, and not in the argument of another. -/
theorem SymbolTable.tokenize_withExtra_argument :
    ∃ extended, withExtras [("a", ⟨"x", .constant, none⟩),
        ("t", ⟨"$1", .prefixUnary, some .rawText⟩)] [("a", "y")] = .ok extended ∧
      tokenize extended "a t(a)" = .ok
        [⟨"a", "y", .constant, true, none, ⟨1, 1⟩⟩,
          ⟨"t", "$1", .prefixUnary, true, some .rawText, ⟨1, 3⟩⟩,
          .literal ['a'] .text ⟨1, 4⟩] := by
  obtain ⟨base, extended, tokens, built, built', htokens, -, known⟩ := tokenize_withExtra
    [("a", ⟨"x", .constant, none⟩), ("t", ⟨"$1", .prefixUnary, some .rawText⟩)] ("a", "y") "a t(a)"
  refine ⟨extended, built', ?_⟩
  rw [known (by simp)]
  cases built
  cases htokens
  rfl

end AsciiMath
