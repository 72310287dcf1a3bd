import AsciiMath.Token.Scanner
import Mathlib.Data.List.Basic

/-!
# What is scanned

If keywords end where characters end, a scanner always gets on: where text is left that is not
blank, a keyword is read or a run, and no attempt is made in vain. Every token is of one of a few
kinds, and its characters are characters of the input.
-/

namespace AsciiMath

/-- Each keyword that is found is the front of the text, measured in bytes. -/
def KeywordMap.Fits {μ α : Type} [KeywordMap μ α] (keywords : μ) : Prop :=
  ∀ text length value, longest? keywords text = some (length, value) →
    ∃ front back, text = front ++ back ∧ length = Text.byteLength front

theorem KeywordMap.Fits.split {μ α : Type} [KeywordMap μ α] {keywords : μ} (fits : Fits keywords)
    {text : List Char} {length : Nat} {value : α}
    (h : longest? keywords text = some (length, value)) :
    ∃ front back, Text.splitBytes? length text = some (front, back) ∧ text = front ++ back ∧
      length = Text.byteLength front := by
  obtain ⟨front, back, rfl, rfl⟩ := fits text length value h
  exact ⟨front, back, Text.splitBytes?_append front back, rfl, rfl⟩

namespace Cursor

theorem rest_step_suffix (cursor : Cursor) : cursor.step.rest <:+ cursor.rest := by
  rw [step]
  split
  · exact List.suffix_refl _
  · next c cs hrest =>
    rw [hrest]
    exact List.suffix_cons c cs

theorem rest_skip_suffix (cursor : Cursor) (p : Char → Bool) :
    (cursor.skip p).rest <:+ cursor.rest := List.dropWhile_suffix p

theorem length_step_lt {cursor : Cursor} {characters : List Char}
    (h : cursor.startsWith characters) : cursor.step.rest.length < cursor.rest.length := by
  unfold startsWith at h
  unfold step
  split at h
  · simp at h
  · next c cs hrest =>
    rw [hrest]
    exact Nat.lt_succ_self cs.length

theorem length_between_lt {cursor : Cursor} {front back : List Char}
    (parts : front ++ back = cursor.rest) (h : front ≠ []) :
    (cursor.between front back).rest.length < cursor.rest.length := by
  have := List.length_pos_of_ne_nil h
  rw [← parts, List.length_append]
  change back.length < front.length + back.length
  omega

theorem subset_of_append_suffix {front back text : List Char} (h : front ++ back <:+ text) :
    front ⊆ text :=
  List.Subset.trans (List.subset_append_left front back) h.subset

theorem takeWhile_subset {p : Char → Bool} {rest text : List Char} (h : rest <:+ text) :
    rest.takeWhile p ⊆ text :=
  List.Subset.trans (List.takeWhile_sublist p).subset h.subset

theorem splitGroup_append (depth : Nat) (text : List Char) :
    (splitGroup depth text).1 ++ (splitGroup depth text).2 = text := by
  induction text generalizing depth with
  | nil => rfl
  | cons c cs ih =>
    unfold splitGroup
    split
    · cases depth with
      | zero => rfl
      | succ depth => exact congrArg (c :: ·) (ih depth)
    · exact congrArg (c :: ·) (ih _)

theorem rest_quotation_suffix (cursor : Cursor) :
    cursor.quotation.2.rest <:+ cursor.step.rest :=
  (rest_step_suffix _).trans (rest_skip_suffix cursor.step (· != '\x22'))

theorem quotation_within {cursor : Cursor} {text : List Char} (h : cursor.rest <:+ text) :
    cursor.quotation.1 ⊆ text ∧ cursor.quotation.2.rest <:+ text := by
  have opened := (rest_step_suffix cursor).trans h
  exact ⟨takeWhile_subset opened, (rest_quotation_suffix cursor).trans opened⟩

/-- A token that was read in a text as it stands there, before the place that was reached. -/
def Argument (text : List Char) (found : Token × Cursor) : Prop :=
  (∃ inside position, inside ⊆ text ∧ found.1 = .literal inside .text position) ∧
    found.2.rest <:+ text

theorem rawText_argument {cursor : Cursor} {text : List Char} (h : cursor.rest <:+ text) :
    Argument text cursor.rawText := by
  have skipped := (rest_skip_suffix cursor Text.isInlineBlank).trans h
  unfold rawText
  dsimp only
  split
  · have opened := (rest_step_suffix _).trans skipped
    have parts := splitGroup_append 0 (cursor.skip Text.isInlineBlank).step.rest
    rw [← parts] at opened
    have back := (List.suffix_append _ _).trans opened
    exact ⟨⟨_, _, subset_of_append_suffix opened, rfl⟩, (rest_step_suffix _).trans back⟩
  · exact ⟨⟨_, _, takeWhile_subset skipped, rfl⟩, (rest_skip_suffix _ _).trans skipped⟩

theorem quotedLiteral_argument {cursor : Cursor} {text : List Char} (h : cursor.rest <:+ text) :
    Argument text cursor.quotedLiteral := by
  have skipped := (rest_skip_suffix cursor Text.isInlineBlank).trans h
  unfold quotedLiteral
  dsimp only
  split
  · obtain ⟨inside, after⟩ := quotation_within skipped
    exact ⟨⟨_, _, inside, rfl⟩, after⟩
  · exact rawText_argument skipped

theorem rest_step_if_suffix {cursor : Cursor} {text : List Char} (h : cursor.rest <:+ text)
    (moves : Bool) : (if moves then cursor.step else cursor).rest <:+ text := by
  cases moves with
  | false => exact h
  | true => exact (rest_step_suffix cursor).trans h

theorem colorSpec_argument {cursor : Cursor} {text : List Char} (h : cursor.rest <:+ text) :
    Argument text cursor.colorSpec := by
  have skipped := (rest_skip_suffix cursor Text.isInlineBlank).trans h
  unfold colorSpec
  dsimp only
  have opened := rest_step_if_suffix skipped
    ((cursor.skip Text.isInlineBlank).startsWith ['(', '[', '\x7b'])
  have after := (rest_skip_suffix _ isColorChar).trans opened
  exact ⟨⟨_, _, takeWhile_subset opened, rfl⟩, rest_step_if_suffix after _⟩

end Cursor

variable {μ : Type} [KeywordMap μ Symbol]

/-- The tokens that a text can be split into. -/
inductive Scanned (keywords : μ) (text : List Char) : Token → Prop where
  | keyword (front back : List Char) (symbol : Symbol) (position : Position)
      (found : KeywordMap.longest? keywords (front ++ back) =
        some (Text.byteLength front, symbol)) (within : front ⊆ text) :
      Scanned keywords text ⟨String.ofList front, symbol.template, symbol.category, true,
        symbol.flag, position⟩
  | argument (inside : List Char) (position : Position) (within : inside ⊆ text) :
      Scanned keywords text (.literal inside .text position)
  | number (digits : List Char) (position : Position) (within : digits ⊆ text)
      (numeric : ∀ c ∈ digits, c.isDigit ∨ c = '.') :
      Scanned keywords text (.literal digits .number position)
  | quotation (inside : List Char) (position : Position) (within : inside ⊆ text) :
      Scanned keywords text ⟨String.ofList inside,
        "\\text\x7b" ++ String.ofList inside ++ "\x7d", .text, false, none, position⟩
  | run (characters : List Char) (position : Position) (within : characters ⊆ text)
      (plain : ∀ c ∈ characters, ∃ back, KeywordMap.startsKeyword keywords (c :: back) = false) :
      Scanned keywords text (.literal characters .run position)
  | rowBreak (blank : List Char) (position : Position) (within : blank ⊆ text) :
      Scanned keywords text ⟨String.ofList blank, rowBreak, .alignMark, false, none, position⟩

theorem Scanned.value_subset {keywords : μ} {text : List Char} {token : Token}
    (h : Scanned keywords text token) : token.value.toList ⊆ text := by
  cases h <;> simpa [Token.literal] using ‹_ ⊆ text›

namespace Cursor

/-- A lexeme that was read in a text, at a place from which it gets on. -/
structure Lexeme.In (keywords : μ) (text : List Char) (cursor : Cursor) (lexeme : Lexeme) :
    Prop where
  token : Scanned keywords text lexeme.token
  argument : ∀ token ∈ lexeme.argument, Scanned keywords text token
  after : lexeme.after.rest <:+ text
  shorter : lexeme.after.rest.length < cursor.rest.length

theorem argument_scanned (keywords : μ) {cursor : Cursor} {text : List Char}
    (h : cursor.rest <:+ text) (flag : Flag) :
    (∀ token ∈ (cursor.argument flag).1, Scanned keywords text token) ∧
      (cursor.argument flag).2.rest <:+ text := by
  have read {found : Token × Cursor} (h : Argument text found) :
      (∀ token ∈ some found.1, Scanned keywords text token) ∧ found.2.rest <:+ text := by
    obtain ⟨⟨inside, position, within, hfound⟩, after⟩ := h
    refine ⟨?_, after⟩
    rintro token ⟨⟩
    rw [hfound]
    exact .argument inside position within
  cases flag with
  | rawText => exact read (rawText_argument h)
  | texLiteral | lengthLiteral => exact read (quotedLiteral_argument h)
  | colorSpec => exact read (colorSpec_argument h)
  | rowRule => exact ⟨by simp [argument], h⟩

/-- A token without an argument, made of the front of the text that is left. -/
theorem in_of_parts {keywords : μ} {cursor : Cursor} {text : List Char}
    (h : cursor.rest <:+ text) {front back : List Char} (parts : front ++ back = cursor.rest)
    (nonempty : front ≠ []) {token : Token}
    (scanned : front ⊆ text → Scanned keywords text token) :
    Lexeme.In keywords text cursor ⟨token, none, cursor.between front back⟩ := by
  have shorter := length_between_lt parts nonempty
  rw [← parts] at h
  exact ⟨scanned (subset_of_append_suffix h), by simp, (List.suffix_append front back).trans h,
    shorter⟩

theorem keyword?_isSome {keywords : μ} (fits : KeywordMap.Fits keywords) {cursor : Cursor}
    (h : KeywordMap.startsKeyword keywords cursor.rest) : (cursor.keyword? keywords).isSome := by
  unfold KeywordMap.startsKeyword at h
  cases hlongest : KeywordMap.longest? keywords cursor.rest with
  | none => simp [hlongest] at h
  | some found =>
    obtain ⟨length, symbol⟩ := found
    rw [hlongest] at h
    obtain ⟨length, rfl⟩ := Nat.exists_eq_succ_of_ne_zero (Nat.ne_of_gt (of_decide_eq_true h))
    obtain ⟨front, back, hsplit, -, -⟩ := fits.split hlongest
    simp only [keyword?, hlongest]
    rw [hsplit]
    rfl

theorem keyword?_in {keywords : μ} {cursor : Cursor} {text : List Char}
    (h : cursor.rest <:+ text) {lexeme : Lexeme}
    (read : cursor.keyword? keywords = some lexeme) : lexeme.In keywords text cursor := by
  unfold keyword? at read
  split at read
  · next length symbol hlongest =>
    obtain ⟨⟨front, back⟩, hsplit, hlexeme⟩ := Option.map_eq_some_iff.1 read
    obtain ⟨hrest, hlength⟩ := Text.splitBytes?_eq_some hsplit
    subst hlexeme
    have nonempty : front ≠ [] := by
      rintro rfl
      exact Nat.succ_ne_zero length hlength.symm
    have shorter := length_between_lt hrest.symm nonempty
    have found : KeywordMap.longest? keywords (front ++ back) =
        some (Text.byteLength front, symbol) := by
      rw [← hrest, hlongest, hlength]
    rw [hrest] at h
    have token := Scanned.keyword front back symbol cursor.position found
      (subset_of_append_suffix h)
    have after : (cursor.between front back).rest <:+ text :=
      (List.suffix_append front back).trans h
    dsimp only
    split
    · next flag hflag =>
      obtain ⟨argument, after⟩ := argument_scanned keywords after flag
      obtain ⟨-, onward⟩ := argument_scanned keywords (List.suffix_refl _) flag
      exact ⟨hflag ▸ token, argument, after, Nat.lt_of_le_of_lt onward.length_le shorter⟩
    · next hflag => exact ⟨hflag ▸ token, by simp, after, shorter⟩
  · simp at read

theorem numeral_append (text : List Char) : (numeral text).1 ++ (numeral text).2 = text := by
  have whole := List.takeWhile_append_dropWhile (p := Char.isDigit) (l := text)
  unfold numeral
  dsimp only
  split
  · next back hback =>
    rw [hback] at whole
    split
    · rfl
    · simpa using whole
  · exact whole

theorem isDigit_of_mem_takeWhile {text : List Char} {c : Char}
    (h : c ∈ text.takeWhile Char.isDigit) : c.isDigit := by
  have := List.all_takeWhile (p := Char.isDigit) (l := text)
  exact List.all_eq_true.1 this c h

theorem numeric_of_mem_numeral {text : List Char} :
    ∀ c ∈ (numeral text).1, c.isDigit ∨ c = '.' := by
  unfold numeral
  dsimp only
  split
  · split
    · simp
    · intro c hc
      simp only [List.mem_append, List.mem_cons] at hc
      rcases hc with hc | rfl | hc
      · exact .inl (isDigit_of_mem_takeWhile hc)
      · exact .inr rfl
      · exact .inl (isDigit_of_mem_takeWhile hc)
  · exact fun c hc ↦ .inl (isDigit_of_mem_takeWhile hc)

theorem numeral?_in (keywords : μ) {cursor : Cursor} {text : List Char} (h : cursor.rest <:+ text)
    {lexeme : Lexeme} (read : cursor.numeral? = some lexeme) :
    lexeme.In keywords text cursor := by
  have parts := numeral_append cursor.rest
  have numeric := @numeric_of_mem_numeral cursor.rest
  unfold numeral? at read
  split at read
  · simp at read
  · next front back nonempty hnumeral =>
    rw [hnumeral] at parts numeric
    obtain rfl := Option.some.inj read
    exact in_of_parts h parts nonempty fun within ↦ .number front cursor.position within numeric

theorem quotation?_in (keywords : μ) {cursor : Cursor} {text : List Char}
    (h : cursor.rest <:+ text) {lexeme : Lexeme} (read : cursor.quotation? = some lexeme) :
    lexeme.In keywords text cursor := by
  unfold quotation? at read
  split at read
  · next starts =>
    obtain ⟨inside, after⟩ := quotation_within h
    obtain rfl := Option.some.inj read
    have onward := (rest_quotation_suffix cursor).length_le
    exact ⟨.quotation _ cursor.position inside, by simp, after,
      Nat.lt_of_le_of_lt onward (length_step_lt starts)⟩
  · simp at read

theorem splitRun_append (keywords : μ) (text : List Char) :
    (splitRun keywords text).1 ++ (splitRun keywords text).2 = text := by
  induction text with
  | nil => rfl
  | cons c cs ih =>
    rw [splitRun]
    split
    · rfl
    · exact congrArg (c :: ·) ih

theorem plain_of_mem_splitRun (keywords : μ) (text : List Char) :
    ∀ c ∈ (splitRun keywords text).1,
      ∃ back, KeywordMap.startsKeyword keywords (c :: back) = false := by
  induction text with
  | nil => simp [splitRun]
  | cons c cs ih =>
    rw [splitRun]
    split
    · simp
    · next plain =>
      rw [Bool.not_eq_true, Bool.or_eq_false_iff] at plain
      exact List.forall_mem_cons.2 ⟨⟨cs, plain.2⟩, ih⟩

theorem run?_in {keywords : μ} {cursor : Cursor} {text : List Char} (h : cursor.rest <:+ text)
    {lexeme : Lexeme} (read : cursor.run? keywords = some lexeme) :
    lexeme.In keywords text cursor := by
  have parts := splitRun_append keywords cursor.rest
  have plain := plain_of_mem_splitRun keywords cursor.rest
  unfold run? at read
  split at read
  · simp at read
  · next front back nonempty hrun =>
    rw [hrun] at parts plain
    obtain rfl := Option.some.inj read
    exact in_of_parts h parts nonempty fun within ↦ .run front cursor.position within plain

theorem run?_isSome {keywords : μ} {cursor : Cursor} {c : Char} {cs : List Char}
    (hrest : cursor.rest = c :: cs) (blank : ¬ Text.isBlank c)
    (plain : ¬ KeywordMap.startsKeyword keywords (c :: cs)) :
    (cursor.run? keywords).isSome := by
  have hrun : splitRun keywords cursor.rest =
      (c :: (splitRun keywords cs).1, (splitRun keywords cs).2) := by
    rw [hrest, splitRun, if_neg (by simp [blank, plain])]
  rw [run?, hrun]
  rfl

theorem lexeme?_in {keywords : μ} {cursor : Cursor} {text : List Char}
    (h : cursor.rest <:+ text) {lexeme : Lexeme}
    (read : cursor.lexeme? keywords = some lexeme) : lexeme.In keywords text cursor := by
  simp only [lexeme?, Option.orElse_eq_orElse, Option.orElse_eq_or, Option.or_eq_some_iff] at read
  rcases read with read | ⟨-, read | ⟨-, read | ⟨-, read⟩⟩⟩
  · exact keyword?_in h read
  · exact numeral?_in keywords h read
  · exact quotation?_in keywords h read
  · exact run?_in h read

theorem lexeme?_isSome {keywords : μ} (fits : KeywordMap.Fits keywords) {cursor : Cursor}
    {c : Char} {cs : List Char} (hrest : cursor.rest = c :: cs) (blank : ¬ Text.isBlank c) :
    (cursor.lexeme? keywords).isSome := by
  simp only [lexeme?, Option.orElse_eq_orElse, Option.orElse_eq_or, Option.isSome_or,
    Bool.or_eq_true]
  by_cases starts : KeywordMap.startsKeyword keywords (c :: cs)
  · exact .inl (keyword?_isSome fits (hrest ▸ starts))
  · exact .inr (.inr (.inr (run?_isSome hrest blank starts)))

theorem rowBreak?_in (keywords : μ) {cursor : Cursor} {text : List Char}
    (h : cursor.rest <:+ text) {lexeme : Lexeme} (read : cursor.rowBreak? = some lexeme) :
    lexeme.In keywords text cursor := by
  unfold rowBreak? at read
  dsimp only at read
  split at read
  · simp at read
  · next broken =>
    obtain rfl := Option.some.inj read
    have nonempty : cursor.rest.takeWhile Text.isBlank ≠ [] := by
      intro empty
      simp [empty] at broken
    exact in_of_parts h List.takeWhile_append_dropWhile nonempty fun within ↦
      .rowBreak _ cursor.position within

/-- Whatever the keywords are, a lexeme that is read is one of the text. -/
theorem in_of_attempt {keywords : μ} {cursor : Cursor} {text : List Char}
    (h : cursor.rest <:+ text) {lexeme : Lexeme}
    (read : (cursor.attempt keywords).1 = some lexeme) : lexeme.In keywords text cursor := by
  unfold attempt at read
  split at read
  · next hbreak =>
    obtain rfl := Option.some.inj read
    exact rowBreak?_in keywords h hbreak
  · have skipped := (rest_skip_suffix cursor Text.isBlank).trans h
    have onward := (rest_skip_suffix cursor Text.isBlank).length_le
    obtain ⟨token, argument, after, shorter⟩ := lexeme?_in skipped read
    exact ⟨token, argument, after, Nat.lt_of_lt_of_le shorter onward⟩

/-- An attempt reads a lexeme, or nothing is left. -/
theorem attempt_in {keywords : μ} (fits : KeywordMap.Fits keywords) {cursor : Cursor}
    {text : List Char} (h : cursor.rest <:+ text) :
    match cursor.attempt keywords with
    | (some lexeme, _) => lexeme.In keywords text cursor
    | (none, place) => place.rest = [] := by
  have read := @in_of_attempt _ _ keywords cursor text h
  split
  · next lexeme _ hattempt => exact read (by rw [hattempt])
  · next place hattempt =>
    unfold attempt at hattempt
    split at hattempt
    · cases hattempt
    · obtain ⟨hlexeme, rfl⟩ := Prod.mk.inj hattempt
      cases hrest : (cursor.skip Text.isBlank).rest with
      | nil => rfl
      | cons c cs =>
        have blank : ¬ Text.isBlank c := by
          have := List.head?_dropWhile_not Text.isBlank cursor.rest
          rw [show cursor.rest.dropWhile Text.isBlank = c :: cs from hrest] at this
          simpa using this
        have some := lexeme?_isSome fits hrest blank
        rw [hlexeme] at some
        exact absurd some (by simp)

/-- The first attempt decides. -/
theorem retry_eq {keywords : μ} (fits : KeywordMap.Fits keywords) (patience : Nat)
    (cursor : Cursor) : retry keywords patience cursor = (cursor.attempt keywords, patience) := by
  cases patience with
  | zero => rfl
  | succ patience =>
    have attempted := attempt_in fits (List.suffix_refl cursor.rest)
    have decided : (cursor.attempt keywords).1.isSome ∨
        (cursor.attempt keywords).2.rest.isEmpty := by
      split at attempted
      · next hattempt => exact .inl (by rw [hattempt]; rfl)
      · next hattempt => exact .inr (by rw [hattempt]; exact List.isEmpty_iff.2 attempted)
    rw [retry]
    rw [if_pos (by simpa using decided)]

end Cursor

namespace Scanner

/-- A scanner in a text, with an argument from it. -/
structure In (keywords : μ) (text : List Char) (scanner : Scanner) : Prop where
  cursor : scanner.cursor.rest <:+ text
  pending : ∀ token ∈ scanner.pending, Scanned keywords text token

/-- Whatever comes next, less can come behind it. -/
theorem next_in {keywords : μ} (fits : KeywordMap.Fits keywords) {text : List Char}
    {scanner : Scanner} (h : scanner.In keywords text) :
    match scanner.next keywords with
    | (none, _) => True
    | (some (.ok token), after) =>
      Scanned keywords text token ∧ after.In keywords text ∧ after.size < scanner.size
    | (some (.error _), _) => False := by
  unfold next
  cases hpending : scanner.pending with
  | some token =>
    have smaller : Scanner.size { scanner with pending := none } < scanner.size := by
      simp [size, hpending]
    exact ⟨h.pending token hpending, ⟨h.cursor, by simp⟩, smaller⟩
  | none =>
    have attempted := Cursor.attempt_in fits h.cursor
    rw [Cursor.retry_eq fits]
    dsimp only
    split at attempted
    · next lexeme _ hattempt =>
      rw [hattempt]
      refine ⟨attempted.token, ⟨attempted.after, attempted.argument⟩, ?_⟩
      have shorter := attempted.shorter
      simp only [size, hpending]
      split <;> omega
    · next place hattempt =>
      rw [hattempt]
      dsimp only
      rw [attempted]
      trivial

/-- The tokens that come until a scanner is at its end. -/
inductive Yields (keywords : μ) : Scanner → List Token → Prop where
  | stop {scanner after : Scanner} (last : scanner.next keywords = (none, after)) :
      Yields keywords scanner []
  | token {scanner after : Scanner} {token : Token} {tokens : List Token}
      (first : scanner.next keywords = (some (.ok token), after))
      (more : Yields keywords after tokens) : Yields keywords scanner (token :: tokens)

theorem exists_yields {keywords : μ} (fits : KeywordMap.Fits keywords) {text : List Char}
    {scanner : Scanner} (h : scanner.In keywords text) :
    ∃ tokens, Yields keywords scanner tokens ∧ tokens.length ≤ scanner.size ∧
      ∀ token ∈ tokens, Scanned keywords text token := by
  induction hsize : scanner.size using Nat.strongRecOn generalizing scanner with
  | _ size ih =>
    have read := next_in fits h
    split at read
    · next after hnext => exact ⟨[], .stop hnext, Nat.zero_le _, by simp⟩
    · next token after hnext =>
      obtain ⟨here, within, smaller⟩ := read
      obtain ⟨tokens, yields, hlength, htokens⟩ := ih after.size (hsize ▸ smaller) within rfl
      refine ⟨token :: tokens, .token hnext yields, ?_, List.forall_mem_cons.2 ⟨here, htokens⟩⟩
      rw [List.length_cons]
      omega
    · exact read.elim

theorem Yields.collect_eq {keywords : μ} {scanner : Scanner} {tokens : List Token}
    (h : Yields keywords scanner tokens) {fuel : Nat} (enough : tokens.length < fuel) :
    collect keywords fuel scanner = .ok tokens := by
  induction h generalizing fuel with
  | stop last =>
    obtain ⟨fuel, rfl⟩ := Nat.exists_eq_succ_of_ne_zero (Nat.ne_of_gt enough)
    rw [collect, last]
  | token first _ ih =>
    obtain ⟨fuel, rfl⟩ := Nat.exists_eq_succ_of_ne_zero (Nat.ne_of_gt (Nat.zero_lt_of_lt enough))
    rw [collect, first]
    dsimp only
    rw [ih (Nat.lt_of_succ_lt_succ enough)]
    rfl

/-- A scanner yields one list of tokens. -/
theorem Yields.unique {keywords : μ} {scanner : Scanner} {tokens others : List Token}
    (h : Yields keywords scanner tokens) (h' : Yields keywords scanner others) :
    tokens = others := by
  induction h generalizing others with
  | stop last =>
    cases h' with
    | stop => rfl
    | token first => simp [last] at first
  | token first _ ih =>
    cases h' with
    | stop last => simp [first] at last
    | token first' more' =>
      obtain ⟨htoken, rfl⟩ := Prod.mk.inj (first.symm.trans first')
      obtain rfl := Except.ok.inj (Option.some.inj htoken)
      rw [ih more']

theorem next_of_pending {keywords : μ} {scanner : Scanner} {token : Token}
    (pending : scanner.pending = some token) :
    scanner.next keywords = (some (.ok token), { scanner with pending := none }) := by
  rw [next, pending]

theorem next_of_attempt {keywords : μ} (fits : KeywordMap.Fits keywords) {scanner : Scanner}
    {lexeme : Cursor.Lexeme} (pending : scanner.pending = none)
    (read : (scanner.cursor.attempt keywords).1 = some lexeme) :
    scanner.next keywords = (some (.ok lexeme.token),
      { scanner with cursor := lexeme.after, pending := lexeme.argument }) := by
  have attempted : scanner.cursor.attempt keywords =
      (some lexeme, (scanner.cursor.attempt keywords).2) := Prod.ext read rfl
  rw [next, pending, Cursor.retry_eq fits, attempted]

end Scanner

/-- Scanning never gets stuck and goes on to the end of the text. -/
theorem tokenize_eq_ok {keywords : μ} (fits : KeywordMap.Fits keywords) (text : String) :
    ∃ tokens, tokenize keywords text = .ok tokens ∧
      Scanner.Yields keywords (.ofText text.toList) tokens ∧
      ∀ token ∈ tokens, Scanned keywords text.toList token := by
  have start : (Scanner.ofText text.toList).In keywords text.toList :=
    ⟨List.suffix_refl _, by simp [Scanner.ofText]⟩
  obtain ⟨tokens, yields, hlength, scanned⟩ := Scanner.exists_yields fits start
  exact ⟨tokens, yields.collect_eq (Nat.lt_succ_of_le hlength), yields, scanned⟩

theorem Scanner.Yields.tokenize_eq {keywords : μ} (fits : KeywordMap.Fits keywords) {text : String}
    {tokens : List Token} (yields : Yields keywords (.ofText text.toList) tokens) :
    tokenize keywords text = .ok tokens := by
  obtain ⟨others, hothers, yields', -⟩ := tokenize_eq_ok fits text
  rw [hothers, yields.unique yields']

end AsciiMath
