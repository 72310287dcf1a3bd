import AsciiMath.Proofs.Token.Lexeme
import AsciiMath.Proofs.Token.Place

/-!
# Scanning depends on the keywords that are found

Two ways to look up keywords that find the same ones split every text into the same tokens. If the
symbols that they find differ in their TeX and in nothing else, so do the tokens. The two need to
agree only where a scanner looks for keywords, which is never where a blank stands.
-/

namespace AsciiMath

/-- The keyword of at least one byte at the start of a text, the text behind it and its symbol. -/
def KeywordMap.keywordAt? {μ α : Type} [KeywordMap μ α] (keywords : μ) (text : List Char) :
    Option ((List Char × List Char) × α) :=
  match longest? keywords text with
  | some (length + 1, value) => (Text.splitBytes? (length + 1) text).map (·, value)
  | _ => none

/-- Other TeX for a symbol that stands for the given keyword. -/
def Symbol.restyle (templates : String → String → String) (keyword : List Char) (symbol : Symbol) :
    Symbol :=
  { symbol with template := templates (String.ofList keyword) symbol.template }

/-- Other TeX for a keyword. What is no keyword stays as it is. -/
def Token.restyle (templates : String → String → String) (token : Token) : Token :=
  if token.keyword then { token with template := templates token.value token.template } else token

section

variable (templates : String → String → String)

/-- The same keyword at the start of a text, with the same symbol up to its TeX. -/
structure FoundAlike {μ ν : Type} [KeywordMap μ Symbol] [KeywordMap ν Symbol] (keywords : μ)
    (others : ν) (text : List Char) : Prop where
  starts : KeywordMap.startsKeyword others text = KeywordMap.startsKeyword keywords text
  found : KeywordMap.keywordAt? others text = (KeywordMap.keywordAt? keywords text).map
    fun (parts, symbol) ↦ (parts, symbol.restyle templates parts.1)

/-- The same keywords wherever a scanner of the text may look for them. -/
def ScansAlike {μ ν : Type} [KeywordMap μ Symbol] [KeywordMap ν Symbol] (keywords : μ)
    (others : ν) (text : List Char) : Prop :=
  ∀ rest, rest <:+ text → (∀ c cs, rest = c :: cs → ¬ Text.isBlank c) →
    FoundAlike templates keywords others rest

end

variable {μ ν : Type} [KeywordMap μ Symbol] [KeywordMap ν Symbol] {keywords : μ} {others : ν}
  {templates : String → String → String}

theorem ScansAlike.suffix {rest text : List Char}
    (alike : ScansAlike templates keywords others text) (h : rest <:+ text) :
    ScansAlike templates keywords others rest :=
  fun more hmore solid ↦ alike more (hmore.trans h) solid

namespace Cursor

def Lexeme.restyle (templates : String → String → String) (lexeme : Lexeme) : Lexeme :=
  { lexeme with
    token := lexeme.token.restyle templates
    argument := lexeme.argument.map (Token.restyle templates) }

/-- The argument of a keyword is no keyword. -/
theorem argument_restyle (templates : String → String → String) (cursor : Cursor) (flag : Flag) :
    (cursor.argument flag).1.map (Token.restyle templates) = (cursor.argument flag).1 := by
  cases h : (cursor.argument flag).1 with
  | none => rfl
  | some token =>
    obtain ⟨-, inside, position, rfl⟩ := argument_eq_some h
    rfl

/-- The lexeme of a keyword that was found at a cursor. -/
def keywordLexeme (cursor : Cursor) (found : (List Char × List Char) × Symbol) : Lexeme :=
  let ((front, back), symbol) := found
  let token : Token :=
    ⟨String.ofList front, symbol.template, symbol.category, true, symbol.flag, cursor.position⟩
  let after := cursor.between front back
  match symbol.flag with
  | some flag => let (argument, after) := after.argument flag; ⟨token, argument, after⟩
  | none => ⟨token, none, after⟩

theorem keyword?_eq_map (keywords : μ) (cursor : Cursor) : cursor.keyword? keywords =
    (KeywordMap.keywordAt? keywords cursor.rest).map cursor.keywordLexeme := by
  unfold keyword? KeywordMap.keywordAt?
  cases KeywordMap.longest? keywords cursor.rest with
  | none => rfl
  | some found =>
    obtain ⟨length, symbol⟩ := found
    cases length with
    | zero => rfl
    | succ length =>
      change Option.map _ _ = Option.map _ (Option.map _ _)
      rw [Option.map_map]
      rfl

theorem keywordLexeme_restyle (cursor : Cursor) (parts : List Char × List Char)
    (symbol : Symbol) :
    cursor.keywordLexeme (parts, symbol.restyle templates parts.1) =
      (cursor.keywordLexeme (parts, symbol)).restyle templates := by
  obtain ⟨template, category, flag⟩ := symbol
  cases flag with
  | none => rfl
  | some flag =>
    have plain := argument_restyle templates (cursor.between parts.1 parts.2) flag
    simp [keywordLexeme, Lexeme.restyle, Symbol.restyle, Token.restyle, plain]

theorem keyword?_restyle {cursor : Cursor}
    (alike : FoundAlike templates keywords others cursor.rest) :
    cursor.keyword? others = (cursor.keyword? keywords).map (Lexeme.restyle templates) := by
  rw [keyword?_eq_map, keyword?_eq_map, alike.found, Option.map_map, Option.map_map]
  congr 1
  ext1 found
  exact keywordLexeme_restyle cursor found.1 found.2

theorem numeral?_restyle (templates : String → String → String) (cursor : Cursor) :
    cursor.numeral?.map (Lexeme.restyle templates) = cursor.numeral? := by
  unfold numeral?
  split <;> rfl

theorem quotation?_restyle (templates : String → String → String) (cursor : Cursor) :
    cursor.quotation?.map (Lexeme.restyle templates) = cursor.quotation? := by
  unfold quotation?
  split <;> rfl

theorem rowBreak?_restyle (templates : String → String → String) (cursor : Cursor) :
    cursor.rowBreak?.map (Lexeme.restyle templates) = cursor.rowBreak? := by
  unfold rowBreak?
  dsimp only
  split <;> rfl

theorem splitRun_alike {text : List Char} (alike : ScansAlike templates keywords others text) :
    splitRun others text = splitRun keywords text := by
  induction text with
  | nil => rfl
  | cons c cs ih =>
    rw [splitRun, splitRun, ih (alike.suffix (List.suffix_cons c cs))]
    by_cases blank : Text.isBlank c
    · simp [blank]
    · have solid : ∀ d ds, c :: cs = d :: ds → ¬ Text.isBlank d := by
        rintro d ds ⟨⟩
        exact blank
      rw [(alike (c :: cs) (List.suffix_refl _) solid).starts]

theorem run?_restyle {cursor : Cursor} (alike : ScansAlike templates keywords others cursor.rest) :
    cursor.run? others = (cursor.run? keywords).map (Lexeme.restyle templates) := by
  unfold run?
  rw [splitRun_alike alike]
  split <;> rfl

theorem lexeme?_restyle {cursor : Cursor}
    (alike : ScansAlike templates keywords others cursor.rest)
    (solid : ∀ c cs, cursor.rest = c :: cs → ¬ Text.isBlank c) :
    cursor.lexeme? others = (cursor.lexeme? keywords).map (Lexeme.restyle templates) := by
  have keyword := keyword?_restyle (alike cursor.rest (List.suffix_refl _) solid)
  simp only [lexeme?, Option.orElse_eq_orElse, Option.orElse_eq_or, Option.map_or, keyword,
    numeral?_restyle, quotation?_restyle, run?_restyle alike]

theorem attempt_restyle {cursor : Cursor}
    (alike : ScansAlike templates keywords others cursor.rest) :
    cursor.attempt others =
      (cursor.attempt keywords).map (Option.map (Lexeme.restyle templates)) id := by
  have lexeme := lexeme?_restyle (alike.suffix (rest_skip_suffix cursor Text.isBlank))
    fun c cs hrest ↦ by simp [Text.eq_false_of_dropWhile hrest]
  have broken := rowBreak?_restyle templates cursor
  unfold attempt
  split
  · next found hbreak =>
    rw [hbreak] at broken
    exact congrArg (·, cursor) broken.symm
  · exact congrArg (·, cursor.skip Text.isBlank) lexeme

theorem attempt_suffix (keywords : μ) (cursor : Cursor) :
    (cursor.attempt keywords).2.rest <:+ cursor.rest := by
  unfold attempt
  split
  · exact List.suffix_refl _
  · exact rest_skip_suffix cursor Text.isBlank

theorem retry_restyle {cursor : Cursor}
    (alike : ScansAlike templates keywords others cursor.rest) (patience : Nat) :
    retry others patience cursor =
      (retry keywords patience cursor).map
        (Prod.map (Option.map (Lexeme.restyle templates)) id) id := by
  induction patience generalizing cursor with
  | zero => exact congrArg (·, 0) (attempt_restyle alike)
  | succ patience ih =>
    have again := ih (alike.suffix (attempt_suffix keywords cursor))
    rw [retry, retry, attempt_restyle alike]
    simp only [Prod.map_fst, Prod.map_snd, Option.isSome_map, id_eq]
    split
    · rfl
    · exact again

/-- A lexeme that is read after some attempts is one of the text. -/
theorem retry_suffix {cursor : Cursor} {lexeme : Lexeme} {patience : Nat}
    (read : (retry keywords patience cursor).1.1 = some lexeme) :
    lexeme.after.rest <:+ cursor.rest := by
  induction patience generalizing cursor with
  | zero => exact (in_of_attempt (List.suffix_refl _) read).after
  | succ patience ih =>
    rw [retry] at read
    split at read
    · exact (in_of_attempt (List.suffix_refl _) read).after
    · exact (ih read).trans (attempt_suffix keywords cursor)

end Cursor

namespace Scanner

def restyle (templates : String → String → String) (scanner : Scanner) : Scanner :=
  { scanner with pending := scanner.pending.map (Token.restyle templates) }

theorem next_restyle {scanner : Scanner}
    (alike : ScansAlike templates keywords others scanner.cursor.rest) :
    (scanner.restyle templates).next others =
      (scanner.next keywords).map (Option.map (Except.map (Token.restyle templates)))
        (restyle templates) := by
  have retried := Cursor.retry_restyle alike scanner.patience
  unfold next restyle
  cases scanner.pending with
  | some token => rfl
  | none =>
    simp only [Option.map_none, retried]
    obtain ⟨⟨read, place⟩, patience⟩ := Cursor.retry keywords scanner.patience scanner.cursor
    cases read with
    | some lexeme => rfl
    | none =>
      by_cases last : place.rest.isEmpty
      · simp [last]
      · simp [last, Except.map]

theorem next_suffix {scanner after : Scanner} {token : Token}
    (h : scanner.next keywords = (some (.ok token), after)) :
    after.cursor.rest <:+ scanner.cursor.rest := by
  have suffix := @Cursor.retry_suffix _ _ keywords scanner.cursor
  unfold next at h
  split at h
  · obtain ⟨-, rfl⟩ := Prod.mk.inj h
    exact List.suffix_refl _
  · split at h
    · next lexeme _ _ hretry =>
      obtain ⟨-, rfl⟩ := Prod.mk.inj h
      exact suffix (by rw [hretry])
    · split at h <;> cases h

theorem collect_restyle {scanner : Scanner}
    (alike : ScansAlike templates keywords others scanner.cursor.rest) (fuel : Nat) :
    collect others fuel (scanner.restyle templates) =
      List.map (Token.restyle templates) <$> collect keywords fuel scanner := by
  induction fuel generalizing scanner with
  | zero => rfl
  | succ fuel ih =>
    rw [collect, collect, next_restyle alike]
    obtain ⟨given, after, hnext⟩ : ∃ given after, scanner.next keywords = (given, after) :=
      ⟨_, _, rfl⟩
    rw [hnext]
    rcases given with _ | cause | token
    · rfl
    · rfl
    · -- What is left is a suffix of the text, so that the look-ups agree there too.
      have more := ih (alike.suffix (next_suffix hnext))
      change (_ :: ·) <$> collect others fuel (after.restyle templates) =
        List.map _ <$> (token :: ·) <$> collect keywords fuel after
      rw [more]
      cases collect keywords fuel after <;> rfl

end Scanner

/-- Other TeX for the keywords of a text is other TeX for its tokens. -/
theorem tokenize_restyle {text : String}
    (alike : ScansAlike templates keywords others text.toList) :
    tokenize others text = List.map (Token.restyle templates) <$> tokenize keywords text := by
  have start : ScansAlike templates keywords others (Scanner.ofText text.toList).cursor.rest :=
    alike
  exact Scanner.collect_restyle start _

theorem Token.restyle_id (token : Token) : token.restyle (fun _ ↦ id) = token := by
  unfold restyle
  split <;> rfl

theorem tokenize_congr
    (same : ∀ text, KeywordMap.longest? keywords text = KeywordMap.longest? others text)
    (text : String) : tokenize keywords text = tokenize others text := by
  have alike : ScansAlike (fun _ ↦ id) keywords others text.toList := by
    intro rest _ _
    constructor
    · rw [KeywordMap.startsKeyword, KeywordMap.startsKeyword, same]
    · rw [KeywordMap.keywordAt?, KeywordMap.keywordAt?, same]
      exact Option.map_id'.symm
  rw [tokenize_restyle alike, funext Token.restyle_id, List.map_id_fun', id_map]

end AsciiMath
