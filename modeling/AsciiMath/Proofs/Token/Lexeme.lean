import AsciiMath.Proofs.Token.Scan

/-!
# The lexemes of a text

The tokens of a text come lexeme by lexeme, and the argument that a keyword asks for comes right
behind its keyword. All of this depends on the keywords that are found and on nothing else, so two
ways to look them up that find the same ones scan the same tokens.
-/

namespace AsciiMath

variable {μ : Type} [KeywordMap μ Symbol]

/-- What a token and the argument that is read with it can be. -/
inductive Lexed (keywords : μ) : Token → Option Token → Prop where
  | keyword {front back : List Char} {symbol : Symbol} {position : Position}
      {argument : Option Token}
      (found : KeywordMap.longest? keywords (front ++ back) =
        some (Text.byteLength front, symbol))
      (asked : argument.isSome → ∃ flag, symbol.flag = some flag ∧ flag ≠ .rowRule)
      (text : ∀ token ∈ argument, ∃ inside position, token = .literal inside .text position) :
      Lexed keywords ⟨String.ofList front, symbol.template, symbol.category, true, symbol.flag,
        position⟩ argument
  | number {digits : List Char} {position : Position}
      (numeric : ∀ c ∈ digits, c.isDigit ∨ c = '.') :
      Lexed keywords (.literal digits .number position) none
  | quotation {inside : List Char} {position : Position} :
      Lexed keywords ⟨String.ofList inside, "\\text\x7b" ++ String.ofList inside ++ "\x7d", .text,
        false, none, position⟩ none
  | run {characters back : List Char} {position : Position}
      (plain : KeywordMap.startsKeyword keywords (characters ++ back) = false) :
      Lexed keywords (.literal characters .run position) none
  | rowBreak {blank : List Char} {position : Position} :
      Lexed keywords ⟨String.ofList blank, rowBreak, .alignMark, false, none, position⟩ none

namespace Cursor

theorem argument_eq_some {cursor : Cursor} {flag : Flag} {token : Token}
    (h : (cursor.argument flag).1 = some token) :
    flag ≠ .rowRule ∧ ∃ inside position, token = .literal inside .text position := by
  have read {found : Token × Cursor} (argument : Argument cursor.rest found)
      (same : some found.1 = some token) :
      ∃ inside position, token = .literal inside .text position := by
    obtain ⟨⟨inside, position, -, hfound⟩, -⟩ := argument
    obtain rfl := Option.some.inj same
    exact ⟨inside, position, hfound⟩
  have all := List.suffix_refl cursor.rest
  cases flag with
  | rawText => exact ⟨by simp, read (rawText_argument all) h⟩
  | texLiteral | lengthLiteral => exact ⟨by simp, read (quotedLiteral_argument all) h⟩
  | colorSpec => exact ⟨by simp, read (colorSpec_argument all) h⟩
  | rowRule => simp [argument] at h

theorem keyword?_lexed {keywords : μ} (fits : KeywordMap.Fits keywords) {cursor : Cursor}
    {lexeme : Lexeme} (read : cursor.keyword? keywords = some lexeme) :
    Lexed keywords lexeme.token lexeme.argument := by
  unfold keyword? at read
  split at read
  · next length symbol hlongest =>
    obtain ⟨front, back, hsplit, hrest, hlength⟩ := fits.split hlongest
    rw [hsplit, Option.map_some] at read
    obtain rfl := Option.some.inj read
    rw [hrest, hlength] at hlongest
    dsimp only
    split
    · next flag hflag =>
      refine .keyword hlongest (fun asked ↦ ?_) fun token htoken ↦ (argument_eq_some htoken).2
      obtain ⟨token, htoken⟩ := Option.isSome_iff_exists.1 asked
      exact ⟨flag, hflag, (argument_eq_some htoken).1⟩
    · exact .keyword hlongest (by simp) (by simp)
  · simp at read

theorem numeral?_lexed (keywords : μ) {cursor : Cursor} {lexeme : Lexeme}
    (read : cursor.numeral? = some lexeme) : Lexed keywords lexeme.token lexeme.argument := by
  have numeric := @numeric_of_mem_numeral cursor.rest
  unfold numeral? at read
  split at read
  · simp at read
  · next hnumeral =>
    rw [hnumeral] at numeric
    obtain rfl := Option.some.inj read
    exact .number numeric

theorem quotation?_lexed (keywords : μ) {cursor : Cursor} {lexeme : Lexeme}
    (read : cursor.quotation? = some lexeme) : Lexed keywords lexeme.token lexeme.argument := by
  unfold quotation? at read
  split at read
  · obtain rfl := Option.some.inj read
    exact .quotation
  · simp at read

theorem startsKeyword_of_splitRun {keywords : μ} {text : List Char}
    (h : (splitRun keywords text).1 ≠ []) : KeywordMap.startsKeyword keywords text = false := by
  cases text with
  | nil => simp [splitRun] at h
  | cons c cs =>
    rw [splitRun] at h
    split at h
    · simp at h
    · next plain =>
      rw [Bool.not_eq_true, Bool.or_eq_false_iff] at plain
      exact plain.2

theorem run?_lexed {keywords : μ} {cursor : Cursor} {lexeme : Lexeme}
    (read : cursor.run? keywords = some lexeme) : Lexed keywords lexeme.token lexeme.argument := by
  have parts := splitRun_append keywords cursor.rest
  have plain := @startsKeyword_of_splitRun _ _ keywords cursor.rest
  unfold run? at read
  split at read
  · simp at read
  · next front back nonempty hrun =>
    rw [hrun] at parts plain
    obtain rfl := Option.some.inj read
    rw [← parts] at plain
    exact .run (plain nonempty)

theorem lexeme?_lexed {keywords : μ} (fits : KeywordMap.Fits keywords) {cursor : Cursor}
    {lexeme : Lexeme} (read : cursor.lexeme? keywords = some lexeme) :
    Lexed keywords lexeme.token lexeme.argument := by
  simp only [lexeme?, Option.orElse_eq_orElse, Option.orElse_eq_or, Option.or_eq_some_iff] at read
  rcases read with read | ⟨-, read | ⟨-, read | ⟨-, read⟩⟩⟩
  · exact keyword?_lexed fits read
  · exact numeral?_lexed keywords read
  · exact quotation?_lexed keywords read
  · exact run?_lexed read

theorem attempt_lexed {keywords : μ} (fits : KeywordMap.Fits keywords) {cursor : Cursor}
    {lexeme : Lexeme} (read : (cursor.attempt keywords).1 = some lexeme) :
    Lexed keywords lexeme.token lexeme.argument := by
  unfold attempt at read
  split at read
  · next broken hbreak =>
    obtain rfl := Option.some.inj read
    unfold rowBreak? at hbreak
    dsimp only at hbreak
    split at hbreak
    · simp at hbreak
    · obtain rfl := Option.some.inj hbreak
      exact .rowBreak
  · exact lexeme?_lexed fits read

end Cursor

namespace Scanner

/-- Tokens that come in lexemes, the first one of which may have begun. -/
inductive Lexemes (keywords : μ) : List Token → Prop where
  | nil : Lexemes keywords []
  | cons {token : Token} {argument : Option Token} {tokens : List Token}
      (lexed : Lexed keywords token argument) (more : Lexemes keywords tokens) :
      Lexemes keywords (token :: (argument.toList ++ tokens))

theorem Yields.lexemes {keywords : μ} (fits : KeywordMap.Fits keywords) {scanner : Scanner}
    {tokens : List Token} (h : Yields keywords scanner tokens) :
    ∃ others, tokens = scanner.pending.toList ++ others ∧ Lexemes keywords others := by
  induction h with
  | @stop scanner _ last =>
    unfold next at last
    split at last
    · simp at last
    · next hpending => exact ⟨[], by simp [hpending], .nil⟩
  | @token scanner after token tokens first more ih =>
    obtain ⟨others, rfl, lexemes⟩ := ih
    unfold next at first
    split at first
    · next pending hpending =>
      obtain ⟨htoken, rfl⟩ := Prod.mk.inj first
      obtain rfl := Except.ok.inj (Option.some.inj htoken)
      exact ⟨_, by simp [hpending], lexemes⟩
    · next hpending =>
      rw [Cursor.retry_eq fits] at first
      split at first
      · next lexeme _ _ hattempt =>
        obtain ⟨read, rfl⟩ := Prod.mk.inj hattempt
        have lexed := Cursor.attempt_lexed fits (congrArg Prod.fst read)
        obtain ⟨htoken, rfl⟩ := Prod.mk.inj first
        obtain rfl := Except.ok.inj (Option.some.inj htoken)
        exact ⟨_, by simp [hpending], .cons lexed lexemes⟩
      · split at first <;> simp at first

end Scanner

end AsciiMath
