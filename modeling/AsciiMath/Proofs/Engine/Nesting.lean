import AsciiMath.Proofs.Engine.Outcome
import AsciiMath.Proofs.Formula.Nesting

/-!
# The standard engine writes nested TeX

Every standard symbol opens, closes and takes arguments as its category asks, and so does every
other token of an input without backslashes, if there are no braces in the texts that are written as
they stand. The braces of the input itself are keywords. So whatever is unmatched or missing in the
input, its TeX is well nested.
-/

namespace AsciiMath

open Formula Tex

theorem Standard.tokenNests : ∀ entry ∈ symbols, Formula.tokenNests
    ⟨entry.1, entry.2.template, entry.2.category, true, entry.2.flag, .start⟩ := by
  decide +kernel

theorem ne_brace_of_not_startsKeyword {table : SymbolTable}
    (built : SymbolTable.standard = .ok table) {c : Char} {back : List Char}
    (plain : KeywordMap.startsKeyword table (c :: back) = false) : c ≠ '\x7b' ∧ c ≠ '\x7d' := by
  have opener : ("\x7b", ⟨"\\left\\lbrace", .opener, none⟩) ∈ Standard.symbols := by decide
  have closer : ("\x7d", ⟨"\\right\\rbrace", .closer, none⟩) ∈ Standard.symbols := by decide
  exact ⟨SymbolTable.ne_of_not_startsKeyword built opener (by decide) plain,
    SymbolTable.ne_of_not_startsKeyword built closer (by decide) plain⟩

theorem tokenNests_literal {characters : List Char} (inert : ∀ c ∈ characters, isInert c)
    {category : Category} (leaf : category.isLeaf) (position : Position) :
    tokenNests (.literal characters category position) := by
  have nested : Nested (String.ofList characters).toList := by
    rw [String.toList_ofList]
    exact (nested_of_isInert inert).1
  have nests := decide_eq_true nested
  cases category <;> first | exact nests | simp [Category.isLeaf] at leaf

theorem nested_text {characters : List Char} (inert : ∀ c ∈ characters, isInert c) :
    Nested ("\\text\x7b" ++ String.ofList characters ++ "\x7d").toList := by
  have opens : Turns [] [.braces] "\\text\x7b".toList := by decide
  have closes : Turns [.braces] [] "\x7d".toList := by decide
  obtain ⟨nested, settled⟩ := nested_of_isInert inert
  have shown : (String.ofList characters).toList = characters := String.toList_ofList
  rw [String.toList_append, String.toList_append, shown]
  have inside := opens.append_of_settled (nested.turns [.braces]) (by decide)
  have head : "\x7d".toList.head? = some '\x7d' := by decide
  exact inside.append_of_starts closes (starts_of_head? head (by decide))

theorem tokenNests_of_scanned {table : SymbolTable} (built : SymbolTable.standard = .ok table)
    {text : List Char} (slashes : '\\' ∉ text) {token : Token} (scanned : Scanned table text token)
    (texts : token.category = .text → ∀ c ∈ token.value.toList, c ≠ '\x7b' ∧ c ≠ '\x7d') :
    tokenNests token := by
  have inert {characters : List Char} (within : characters ⊆ text)
      (braces : ∀ c ∈ characters, c ≠ '\x7b' ∧ c ≠ '\x7d') : ∀ c ∈ characters, isInert c := by
    intro c hc
    have slash : c ≠ '\\' := fun h ↦ slashes (h ▸ within hc)
    simp [isInert, slash, braces c hc]
  cases scanned with
  | keyword front back symbol position found =>
    exact Standard.tokenNests _ (SymbolTable.mem_of_longest? built found)
  | argument inside position within =>
    have braces := texts rfl
    rw [Token.literal, String.toList_ofList] at braces
    exact tokenNests_literal (inert within braces) rfl position
  | number digits position within numeric =>
    refine tokenNests_literal (inert within fun c hc ↦ ?_) rfl position
    rcases numeric c hc with hc | rfl
    · exact ⟨fun h ↦ absurd (h ▸ hc) (by decide), fun h ↦ absurd (h ▸ hc) (by decide)⟩
    · decide
  | quotation inside position within =>
    have braces := texts rfl
    rw [String.toList_ofList] at braces
    exact decide_eq_true (nested_text (inert within braces))
  | run characters position within plain =>
    refine tokenNests_literal (inert within fun c hc ↦ ?_) rfl position
    obtain ⟨back, hback⟩ := plain c hc
    exact ne_brace_of_not_startsKeyword built hback
  | rowBreak => exact decide_eq_true (by decide : Nested rowBreak.toList)

theorem Engine.standard_eq {table : SymbolTable} (built : SymbolTable.standard = .ok table) :
    standard = .ok ⟨false, table, []⟩ := by
  rw [SymbolTable.standard, ← SymbolTable.withExtras_nil] at built
  rw [standard, @ofConfig_eq _ _ .default table built]
  rfl

theorem convert_eq {table : SymbolTable} (built : SymbolTable.standard = .ok table)
    {input : String} {tokens : List Token} (scanned : tokenize table input = .ok tokens) :
    convert input = match Formula.ofTokens tokens with
      | .ok formula => formula.tex
      | .error cause => Text.texText cause.message := by
  rw [convert, Engine.standard_eq built, Engine.convertWith]
  exact Engine.convert_eq scanned

theorem convert_of_table {input tex : String}
    (h : (tokenize Standard.table input >>= ofTokens).map Formula.tex = .ok tex) :
    convert input = tex := by
  obtain ⟨table, built⟩ := SymbolTable.ofEntries_eq_ok Standard.symbols
  obtain ⟨tokens, scanned, -⟩ := tokenize_eq_ok table.fits input
  rw [← tokenize_standard built, scanned] at h
  rw [convert_eq built scanned]
  change (ofTokens tokens).map Formula.tex = .ok tex at h
  cases hread : ofTokens tokens with
  | ok formula =>
    rw [hread] at h
    exact Except.ok.inj h
  | error cause =>
    rw [hread] at h
    cases h

theorem nested_of_nestingTooDeep (position : Position) :
    Nested (Text.texText (ConversionError.nestingTooDeep position).message).toList := by
  have plain := isPlain_of_mem_message position
  have inert : ∀ c ∈ (ConversionError.nestingTooDeep position).message.toList, isInert c := by
    intro c hc
    have hplain := plain c hc
    simp only [Text.isPlain, decide_eq_true_eq, List.mem_cons, not_or] at hplain
    simp [isInert, hplain]
  rw [Text.texText, Text.texEscaped_eq_self plain]
  simpa only [String.ofList_toList] using nested_text inert

/-- Whatever is unmatched or missing in an input without backslashes, its TeX is well nested if the
texts among its tokens have no braces. -/
theorem convert_wellNested (input : String) (slashes : '\\' ∉ input.toList) :
    ∃ engine tokens, Engine.standard = .ok engine ∧ tokenize engine.symbols input = .ok tokens ∧
      ((∀ token ∈ tokens, token.category = .text →
        '\x7b' ∉ token.value.toList ∧ '\x7d' ∉ token.value.toList) →
        WellNested (convert input)) := by
  obtain ⟨table, built, used⟩ := SymbolTable.withExtras_standard []
  rw [SymbolTable.withExtras_nil, ← SymbolTable.standard] at built
  obtain ⟨tokens, scanned, -, kinds⟩ := tokenize_eq_ok table.fits input
  refine ⟨_, tokens, Engine.standard_eq built, scanned, fun texts ↦ ?_⟩
  have nests : ∀ token ∈ tokens, tokenNests token := by
    intro token hmem
    refine tokenNests_of_scanned built slashes (kinds token hmem) fun category c hc ↦ ?_
    obtain ⟨opener, closer⟩ := texts token hmem category
    exact ⟨fun h ↦ opener (h ▸ hc), fun h ↦ closer (h ▸ hc)⟩
  suffices nested : Nested (convert input).toList from nested.2
  rw [convert_eq built scanned]
  cases hread : Formula.ofTokens tokens with
  | ok formula => exact nested_of_ofTokens hread nests
  | error cause =>
    obtain ⟨token, -, rfl⟩ := nestingTooDeep_of_error used kinds hread
    exact nested_of_nestingTooDeep token.position

theorem convert_wellNested_unmatched :
    convert "[|x, text(a b)^ (: sqrt /) ||" = "\\left[ \\mid x , \\text\x7ba b\x7d ^\x7b " ++
        "\\left\\langle \\sqrt\x7b / \x7d \\right) \x7d \\parallel \\right." ∧
      WellNested (convert "[|x, text(a b)^ (: sqrt /) ||") := by
  obtain ⟨engine, tokens, -, scanned, nested⟩ :=
    convert_wellNested "[|x, text(a b)^ (: sqrt /) ||" (by decide +kernel)
  refine ⟨convert_of_table (by decide +kernel), nested fun token hmem _ ↦ ?_⟩
  obtain ⟨found, hfound, -, kinds⟩ :=
    tokenize_eq_ok engine.symbols.fits "[|x, text(a b)^ (: sqrt /) ||"
  obtain rfl := Except.ok.inj (hfound.symm.trans scanned)
  have within := (kinds token hmem).value_subset
  have opener : '\x7b' ∉ "[|x, text(a b)^ (: sqrt /) ||".toList := by decide +kernel
  have closer : '\x7d' ∉ "[|x, text(a b)^ (: sqrt /) ||".toList := by decide +kernel
  exact ⟨fun h ↦ opener (within h), fun h ↦ closer (within h)⟩

end AsciiMath
