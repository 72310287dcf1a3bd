import AsciiMath.Proofs.Symbol.Table
import AsciiMath.Proofs.Token.Bytes

/-!
# Scanning stops

Whatever a keyword map answers, a scanner that works with byte counts has an outcome in each call,
and it comes to its end: each token shortens what is left, and where no token can be read all later
attempts fail as the first one did. This happens only where a keyword is offered that does not end
where a character ends, and where neither a number nor a quotation starts. The scanner then reports
the place, and nothing comes behind the report.
-/

namespace AsciiMath

variable {μ : Type} [KeywordMap μ Symbol]

/-- A text at which no token can be read. -/
structure Stuck (keywords : μ) (text : List Char) : Prop where
  nonempty : text ≠ []
  noNumeral : ∀ front, front <+: text → ¬ IsNumeral front
  noQuote : text.head? ≠ some '\x22'
  misfit : ∃ length symbol, KeywordMap.longest? keywords text = some (length, symbol) ∧
    0 < length ∧ ∀ front back, text = front ++ back → Text.byteLength front ≠ length

theorem KeywordMap.Fits.not_stuck {keywords : μ} (fits : Fits keywords) (text : List Char) :
    ¬ Stuck keywords text := by
  intro stuck
  obtain ⟨length, symbol, found, -, misfit⟩ := stuck.misfit
  obtain ⟨front, back, htext, hlength⟩ := fits text length symbol found
  exact misfit front back htext hlength.symm

theorem misfit_iff {keywords : μ} {text : List Char} :
    (∃ length symbol, KeywordMap.longest? keywords text = some (length, symbol) ∧
      0 < length ∧ ∀ front back, text = front ++ back → Text.byteLength front ≠ length) ↔
    KeywordMap.startsKeyword keywords text ∧ ¬ Offers keywords text := by
  constructor
  · rintro ⟨length, symbol, found, positive, misfit⟩
    refine ⟨by simpa [KeywordMap.startsKeyword, found] using positive, ?_⟩
    rintro ⟨value, back, other, htext, -, hfound⟩
    obtain ⟨hlength, -⟩ := Prod.mk.inj (Option.some.inj (found.symm.trans hfound))
    exact misfit value back htext hlength.symm
  · rintro ⟨starts, unfit⟩
    unfold KeywordMap.startsKeyword at starts
    split at starts
    · next length symbol found =>
      have positive : 0 < length := of_decide_eq_true starts
      refine ⟨length, symbol, found, positive, fun front back htext hlength ↦ unfit ?_⟩
      refine ⟨front, back, symbol, htext, ?_, by rw [found, hlength]⟩
      rintro rfl
      exact Nat.ne_of_lt positive hlength
    · cases starts

namespace Cursor

theorem quotation?_eq_none_iff {cursor : Cursor} :
    cursor.quotation? = none ↔ cursor.rest.head? ≠ some '\x22' := by
  cases hrest : cursor.rest <;> simp [quotation?, startsWith, hrest]

theorem run?_eq_none_iff {keywords : μ} {cursor : Cursor} {c : Char} {cs : List Char}
    (hrest : cursor.rest = c :: cs) (solid : ¬ Text.isBlank c) :
    cursor.run? keywords = none ↔ KeywordMap.startsKeyword keywords cursor.rest := by
  constructor
  · intro unread
    by_contra plain
    have read := run?_isSome hrest solid (hrest ▸ plain)
    rw [unread] at read
    cases read
  · intro starts
    have hrun : splitRun keywords cursor.rest = ([], cursor.rest) := by
      rw [hrest] at starts ⊢
      rw [splitRun, if_pos (by simp [starts])]
    rw [run?, hrun]

/-- Behind the blanks no token can be read exactly where a scanner is stuck. -/
theorem lexeme?_eq_none_iff {keywords : μ} {cursor : Cursor} {c : Char} {cs : List Char}
    (hrest : cursor.rest = c :: cs) (solid : ¬ Text.isBlank c) :
    cursor.lexeme? keywords = none ↔ Stuck keywords cursor.rest := by
  simp only [lexeme?, Option.orElse_eq_orElse, Option.orElse_eq_or, Option.or_eq_none_iff,
    keyword?_eq_none_iff, numeral?_eq_none_iff, quotation?_eq_none_iff,
    run?_eq_none_iff hrest solid]
  constructor
  · rintro ⟨unfit, noNumeral, noQuote, starts⟩
    exact ⟨by simp [hrest], noNumeral, noQuote, misfit_iff.2 ⟨starts, unfit⟩⟩
  · intro stuck
    obtain ⟨starts, unfit⟩ := misfit_iff.1 stuck.misfit
    exact ⟨unfit, stuck.noNumeral, stuck.noQuote, starts⟩

/-- An attempt in vain is made behind the blanks, at the end of the text or where a scanner is
stuck. -/
theorem of_attempt_eq_none {keywords : μ} {cursor place : Cursor}
    (h : cursor.attempt keywords = (none, place)) :
    place = cursor.skip Text.isBlank ∧ (place.rest ≠ [] → Stuck keywords place.rest) := by
  unfold attempt at h
  split at h
  · cases h
  · obtain ⟨unread, rfl⟩ := Prod.mk.inj h
    refine ⟨rfl, fun more ↦ ?_⟩
    obtain ⟨c, cs, hrest⟩ := List.exists_cons_of_ne_nil more
    exact (lexeme?_eq_none_iff hrest (by simp [Text.eq_false_of_dropWhile hrest])).1 unread

theorem rowBreak?_skip (cursor : Cursor) : (cursor.skip Text.isBlank).rowBreak? = none := by
  have none_left := Text.takeWhile_dropWhile Text.isBlank cursor.rest
  simp [rowBreak?, skip, between, none_left]

theorem attempt_of_solid (keywords : μ) {cursor : Cursor}
    (solid : ∀ c ∈ cursor.rest.head?, ¬ Text.isBlank c) :
    cursor.attempt keywords = (cursor.lexeme? keywords, cursor) := by
  have none_before : ∀ c ∈ [], Text.isBlank c := by simp
  have stays : cursor.skip Text.isBlank = cursor :=
    skip_of_parts none_before solid cursor.position
  have unbroken := rowBreak?_skip cursor
  rw [stays] at unbroken
  rw [attempt, unbroken, stays]

/-- Where a scanner is stuck every attempt is in vain. -/
theorem attempt_of_stuck {keywords : μ} {cursor : Cursor}
    (stuck : Stuck keywords (cursor.skip Text.isBlank).rest) :
    (cursor.skip Text.isBlank).attempt keywords = (none, cursor.skip Text.isBlank) := by
  obtain ⟨c, cs, hrest⟩ := List.exists_cons_of_ne_nil stuck.nonempty
  have solid : ¬ Text.isBlank c := by simp [Text.eq_false_of_dropWhile hrest]
  have unread := (lexeme?_eq_none_iff hrest solid).2 stuck
  simp only [attempt, rowBreak?_skip, skip_skip, unread]

/-- Before a place where a scanner is stuck only a row break can be read. -/
theorem after_of_stuck {keywords : μ} {cursor : Cursor} {lexeme : Lexeme}
    (stuck : Stuck keywords (cursor.skip Text.isBlank).rest)
    (read : (cursor.attempt keywords).1 = some lexeme) :
    lexeme.after = cursor.skip Text.isBlank ∧ lexeme.argument = none := by
  obtain ⟨c, cs, hrest⟩ := List.exists_cons_of_ne_nil stuck.nonempty
  have solid : ¬ Text.isBlank c := by simp [Text.eq_false_of_dropWhile hrest]
  have unread := (lexeme?_eq_none_iff hrest solid).2 stuck
  unfold attempt at read
  split at read
  · next broken hbreak =>
    obtain rfl := Option.some.inj read
    unfold rowBreak? at hbreak
    dsimp only at hbreak
    split at hbreak
    · cases hbreak
    · obtain rfl := Option.some.inj hbreak
      exact ⟨rfl, rfl⟩
  · exact absurd (unread.symm.trans read) (by simp)

/-- All later attempts end as the first one. -/
theorem retry_fst (keywords : μ) (patience : Nat) (cursor : Cursor) :
    (retry keywords patience cursor).1 = cursor.attempt keywords := by
  induction patience generalizing cursor with
  | zero => rfl
  | succ patience ih =>
    rw [retry]
    split
    · rfl
    · next undecided =>
      rw [Bool.not_eq_true, Bool.or_eq_false_iff, Option.isSome_eq_false_iff,
        Option.isNone_iff_eq_none, List.isEmpty_eq_false_iff] at undecided
      obtain ⟨unread, more⟩ := undecided
      have vain : cursor.attempt keywords = (none, (cursor.attempt keywords).2) :=
        Prod.ext unread rfl
      obtain ⟨place, stuck⟩ := of_attempt_eq_none vain
      rw [ih, vain, place]
      exact attempt_of_stuck (place ▸ stuck more)

end Cursor

namespace Scanner

/-- The scanner after a number of calls. -/
def afterCalls (keywords : μ) (scanner : Scanner) : Nat → Scanner
  | 0 => scanner
  | calls + 1 => afterCalls keywords (scanner.next keywords).2 calls

/-- What comes after a number of calls. -/
def item (keywords : μ) (scanner : Scanner) (calls : Nat) :
    Option (Except ConversionError Token) :=
  ((scanner.afterCalls keywords calls).next keywords).1

theorem item_zero (keywords : μ) (scanner : Scanner) :
    scanner.item keywords 0 = (scanner.next keywords).1 := rfl

theorem item_succ (keywords : μ) (scanner : Scanner) (calls : Nat) :
    scanner.item keywords (calls + 1) = (scanner.next keywords).2.item keywords calls := rfl

theorem afterCalls_succ (keywords : μ) (scanner : Scanner) (calls : Nat) :
    scanner.afterCalls keywords (calls + 1) =
      ((scanner.afterCalls keywords calls).next keywords).2 := by
  induction calls generalizing scanner with
  | zero => rfl
  | succ calls ih => exact ih (scanner.next keywords).2

theorem item_afterCalls (keywords : μ) (scanner : Scanner) (calls more : Nat) :
    (scanner.afterCalls keywords calls).item keywords more =
      scanner.item keywords (calls + more) := by
  induction calls generalizing scanner with
  | zero => rw [Nat.zero_add]; rfl
  | succ calls ih =>
    rw [Nat.succ_add, item_succ]
    exact ih (scanner.next keywords).2

/-- What a call gives and what it leaves behind. -/
inductive Calls (keywords : μ) (scanner : Scanner) :
    Option (Except ConversionError Token) → Scanner → Prop where
  | argument {token : Token} (pending : scanner.pending = some token) :
      Calls keywords scanner (some (.ok token)) { scanner with pending := none }
  | lexeme {lexeme : Cursor.Lexeme} {patience : Nat} (pending : scanner.pending = none)
      (read : (scanner.cursor.attempt keywords).1 = some lexeme) :
      Calls keywords scanner (some (.ok lexeme.token))
        { scanner with cursor := lexeme.after, pending := lexeme.argument, patience }
  | last {patience : Nat} (pending : scanner.pending = none)
      (vain : (scanner.cursor.attempt keywords).1 = none)
      (nothing : (scanner.cursor.skip Text.isBlank).rest = []) :
      Calls keywords scanner none
        { scanner with cursor := scanner.cursor.skip Text.isBlank, patience }
  | stuck {patience : Nat} (pending : scanner.pending = none)
      (vain : (scanner.cursor.attempt keywords).1 = none)
      (stuck : Stuck keywords (scanner.cursor.skip Text.isBlank).rest) :
      Calls keywords scanner
        (some (.error (.stalled (scanner.cursor.skip Text.isBlank).position scanner.budget)))
        { scanner with cursor := ⟨[], (scanner.cursor.skip Text.isBlank).position⟩, patience }

theorem calls_next (keywords : μ) (scanner : Scanner) :
    Calls keywords scanner (scanner.next keywords).1 (scanner.next keywords).2 := by
  have first := Cursor.retry_fst keywords scanner.patience scanner.cursor
  unfold next
  split
  · next token hpending => exact .argument hpending
  · next hpending =>
    split
    · next lexeme place patience hretry =>
      rw [hretry] at first
      exact .lexeme hpending (by rw [← first])
    · next place patience hretry =>
      rw [hretry] at first
      have vain := congrArg Prod.fst first.symm
      obtain ⟨rfl, stuck⟩ := Cursor.of_attempt_eq_none first.symm
      split
      · next nothing => exact .last hpending vain (List.isEmpty_iff.1 nothing)
      · next more => exact .stuck hpending vain (stuck (by simpa using more))

/-- No token comes from blanks. -/
theorem Yields.of_blank {keywords : μ} (fits : KeywordMap.Fits keywords) {scanner : Scanner}
    (pending : scanner.pending = none) (blank : ∀ c ∈ scanner.cursor.rest, Text.isBlank c) :
    Yields keywords scanner [] := by
  have vain : (scanner.cursor.attempt keywords).1 = none := by
    refine Option.eq_none_iff_forall_not_mem.2 fun lexeme read ↦ ?_
    exact Cursor.dropWhile_of_attempt read (List.dropWhile_eq_nil_iff.2 blank)
  have step := calls_next keywords scanner
  generalize hnext : scanner.next keywords = given at step
  obtain ⟨item, after⟩ := given
  cases step with
  | argument held => simp [pending] at held
  | lexeme _ read => simp [vain] at read
  | last => exact .stop hnext
  | stuck _ _ stuck => exact absurd stuck (fits.not_stuck _)

/-- A scanner that has taken a front part of the text. -/
structure Within (text : List Char) (scanner : Scanner) : Prop where
  cursor : ∃ front rest, text = front ++ rest ∧ scanner.cursor = .behind front rest
  budget : scanner.budget = 4 * (text.length + 1)

/-- A scanner to which nothing is left. -/
structure Spent (scanner : Scanner) : Prop where
  rest : scanner.cursor.rest = []
  pending : scanner.pending = none

theorem within_ofText (text : List Char) : Within text (ofText text) :=
  ⟨⟨[], text, rfl, rfl⟩, rfl⟩

/-- A scanner that is stuck behind a front part of the text, and the report it gives. -/
structure Fails (keywords : μ) (text : List Char) (scanner : Scanner)
    (cause : ConversionError) : Prop where
  pending : scanner.pending = none
  stuck : Stuck keywords (scanner.cursor.rest.dropWhile Text.isBlank)
  report : ∃ front, text = front ++ scanner.cursor.rest.dropWhile Text.isBlank ∧
    cause = .stalled (.behind front) (4 * (text.length + 1))

theorem Spent.next {scanner : Scanner} (spent : Spent scanner) (keywords : μ) :
    (scanner.next keywords).1 = none ∧ Spent (scanner.next keywords).2 := by
  have calls := calls_next keywords scanner
  have skipped : (scanner.cursor.skip Text.isBlank).rest = [] := by
    simp [Cursor.skip, Cursor.between, spent.rest]
  generalize (scanner.next keywords).1 = given at calls
  generalize (scanner.next keywords).2 = after at calls
  cases calls with
  | argument pending => simp [spent.pending] at pending
  | lexeme pending read =>
    have shorter := (Cursor.in_of_attempt (List.suffix_refl _) read).shorter
    simp [spent.rest] at shorter
  | last pending _ nothing => exact ⟨rfl, nothing, pending⟩
  | stuck pending _ stuck => exact absurd skipped stuck.nonempty

theorem Spent.item {scanner : Scanner} (spent : Spent scanner) (keywords : μ) (calls : Nat) :
    scanner.item keywords calls = none := by
  induction calls generalizing scanner with
  | zero => exact (spent.next keywords).1
  | succ calls ih => exact ih (spent.next keywords).2

end Scanner

theorem Cursor.Lexeme.Spans.after {keywords : μ} {front rest : List Char} {lexeme : Lexeme}
    (spans : Lexeme.Spans keywords front rest lexeme) :
    ∃ passed back, front ++ rest = passed ++ back ∧ lexeme.after = behind passed back := by
  cases spans with
  | @alone segment back => exact ⟨front ++ segment.text, back, by simp, rfl⟩
  | @led segment argument flag back =>
    exact ⟨front ++ segment.text ++ argument.text, back, by simp, rfl⟩

/-- A scanner that works with byte counts has an outcome in each call, and gives the same. -/
theorem ByteScanner.item?_eq (keywords : μ) (calls : Nat) (scanner : ByteScanner) :
    scanner.item? keywords calls = some (scanner.toScanner.item keywords calls) := by
  induction calls generalizing scanner with
  | zero =>
    obtain ⟨⟨given, after⟩, hnext, same⟩ := Option.map_eq_some_iff.1 (next_eq keywords scanner)
    rw [item?, hnext, Scanner.item_zero, ← same]
    rfl
  | succ calls ih =>
    obtain ⟨⟨given, after⟩, hnext, same⟩ := Option.map_eq_some_iff.1 (next_eq keywords scanner)
    rw [item?, hnext, Scanner.item_succ, ← same]
    exact ih after

namespace Scanner

/-- A token leaves less behind it. -/
theorem Within.after_token {keywords : μ} {text : List Char} {scanner after : Scanner}
    {token : Token} (within : Within text scanner)
    (calls : Calls keywords scanner (some (.ok token)) after) :
    Within text after ∧ after.size < scanner.size := by
  obtain ⟨front, rest, htext, hcursor⟩ := within.cursor
  cases calls with
  | argument pending => exact ⟨⟨within.cursor, within.budget⟩, by simp [size, pending]⟩
  | @lexeme lexeme patience pending read =>
    have shorter := (Cursor.in_of_attempt (List.suffix_refl _) read).shorter
    rw [hcursor] at read
    obtain ⟨passed, back, hpassed, hafter⟩ := (Cursor.attempt_spans read).after
    refine ⟨⟨⟨passed, back, htext.trans hpassed, hafter⟩, within.budget⟩, ?_⟩
    simp only [size, pending]
    split <;> omega

theorem Calls.spent {keywords : μ} {scanner after : Scanner}
    (calls : Calls keywords scanner none after) : Spent after := by
  cases calls with
  | last pending _ nothing => exact ⟨nothing, pending⟩

theorem Within.after_error {keywords : μ} {text : List Char} {scanner after : Scanner}
    {cause : ConversionError} (within : Within text scanner)
    (calls : Calls keywords scanner (some (.error cause)) after) :
    Spent after ∧ Fails keywords text scanner cause := by
  obtain ⟨front, rest, htext, hcursor⟩ := within.cursor
  cases calls with
  | stuck pending _ stuck =>
    refine ⟨⟨rfl, pending⟩, pending, stuck, front ++ rest.takeWhile Text.isBlank, ?_, ?_⟩
    · rw [htext, hcursor, Cursor.behind_rest, List.append_assoc, List.takeWhile_append_dropWhile]
    · rw [hcursor, Cursor.skip_behind, Cursor.behind_position, within.budget]

/-- The items end, and there are none behind the end. -/
theorem Within.exists_end (keywords : μ) {text : List Char} {scanner : Scanner}
    (within : Within text scanner) :
    ∃ count, ∀ calls, scanner.item keywords calls = none ↔ count ≤ calls := by
  induction hsize : scanner.size using Nat.strongRecOn generalizing scanner with
  | _ size ih =>
    have step := calls_next keywords scanner
    cases hitem : (scanner.next keywords).1 with
    | none =>
      rw [hitem] at step
      refine ⟨0, fun calls ↦ iff_of_true ?_ (Nat.zero_le calls)⟩
      cases calls with
      | zero => exact hitem
      | succ calls => exact step.spent.item keywords calls
    | some given =>
      rw [hitem] at step
      have begins {count : Nat} (more : ∀ calls,
          (scanner.next keywords).2.item keywords calls = none ↔ count ≤ calls) (calls : Nat) :
          scanner.item keywords calls = none ↔ count + 1 ≤ calls := by
        cases calls with
        | zero => simp [item_zero, hitem]
        | succ calls => rw [item_succ, more, Nat.succ_le_succ_iff]
      cases given with
      | error cause =>
        obtain ⟨spent, -⟩ := within.after_error step
        exact ⟨1, begins fun calls ↦ iff_of_true (spent.item keywords calls) (Nat.zero_le calls)⟩
      | ok token =>
        obtain ⟨onward, smaller⟩ := within.after_token step
        obtain ⟨count, more⟩ := ih _ (hsize ▸ smaller) onward rfl
        exact ⟨count + 1, begins more⟩

/-- At any point of a run a front part of the text has been taken, or nothing is left. -/
theorem within_afterCalls (keywords : μ) (text : List Char) (calls : Nat) :
    Within text ((ofText text).afterCalls keywords calls) ∨
      Spent ((ofText text).afterCalls keywords calls) := by
  induction calls with
  | zero => exact .inl (within_ofText text)
  | succ calls ih =>
    rw [afterCalls_succ]
    rcases ih with within | spent
    · have step := calls_next keywords ((ofText text).afterCalls keywords calls)
      cases hitem : (((ofText text).afterCalls keywords calls).next keywords).1 with
      | none =>
        rw [hitem] at step
        exact .inr step.spent
      | some given =>
        rw [hitem] at step
        cases given with
        | error cause => exact .inr (within.after_error step).1
        | ok token => exact .inl (within.after_token step).1
    · exact .inr (spent.next keywords).2

theorem fails_of_item {keywords : μ} {text : List Char} {calls : Nat} {cause : ConversionError}
    (h : (ofText text).item keywords calls = some (.error cause)) :
    Spent ((ofText text).afterCalls keywords (calls + 1)) ∧
      Fails keywords text ((ofText text).afterCalls keywords calls) cause := by
  have step := calls_next keywords ((ofText text).afterCalls keywords calls)
  rw [show (((ofText text).afterCalls keywords calls).next keywords).1 = some (.error cause) from h,
    ← afterCalls_succ] at step
  rcases within_afterCalls keywords text calls with within | spent
  · exact within.after_error step
  · have none_left : (ofText text).item keywords calls = none := spent.item keywords 0
    rw [none_left] at h
    cases h

theorem next_of_vain {keywords : μ} {scanner : Scanner} (pending : scanner.pending = none)
    (stuck : Stuck keywords (scanner.cursor.skip Text.isBlank).rest)
    (vain : (scanner.cursor.attempt keywords).1 = none) :
    (scanner.next keywords).1 =
      some (.error (.stalled (scanner.cursor.skip Text.isBlank).position scanner.budget)) := by
  have step := calls_next keywords scanner
  generalize (scanner.next keywords).1 = given at step ⊢
  generalize (scanner.next keywords).2 = after at step
  cases step with
  | argument held => simp [pending] at held
  | lexeme _ read => simp [vain] at read
  | last _ _ nothing => exact absurd nothing stuck.nonempty
  | stuck => rfl

/-- A stuck scanner reports it, behind a row break at the latest. -/
theorem exists_item_of_stuck {keywords : μ} {scanner : Scanner}
    (pending : scanner.pending = none)
    (stuck : Stuck keywords (scanner.cursor.skip Text.isBlank).rest) :
    ∃ calls, scanner.item keywords calls =
      some (.error (.stalled (scanner.cursor.skip Text.isBlank).position scanner.budget)) := by
  cases hread : (scanner.cursor.attempt keywords).1 with
  | none => exact ⟨0, next_of_vain pending stuck hread⟩
  | some lexeme =>
    obtain ⟨hafter, hargument⟩ := Cursor.after_of_stuck stuck hread
    have step := calls_next keywords scanner
    refine ⟨1, ?_⟩
    rw [item_succ, item_zero]
    generalize (scanner.next keywords).1 = given at step
    generalize (scanner.next keywords).2 = behind at step ⊢
    cases step with
    | argument held => simp [pending] at held
    | lexeme _ read =>
      obtain rfl := Option.some.inj (hread.symm.trans read)
      have vain := congrArg Prod.fst (Cursor.attempt_of_stuck stuck)
      rw [← Cursor.skip_skip, ← hafter] at stuck
      rw [← hafter] at vain
      rw [next_of_vain hargument stuck vain, hafter, Cursor.skip_skip]
    | last _ _ nothing => exact absurd nothing stuck.nonempty
    | stuck _ vain => simp [hread] at vain

/-- After some calls a text is left, apart from blanks and a row break before it. -/
def Reaches (keywords : μ) (text back : List Char) : Prop :=
  ∃ calls, ((ofText text).afterCalls keywords calls).pending = none ∧
    ((ofText text).afterCalls keywords calls).cursor.rest.dropWhile Text.isBlank = back

/-- What becomes of every run of a scanner over a text. -/
structure Stops (keywords : μ) (text : List Char) : Prop where
  /-- Each call has an outcome when the text is cut by byte counts: no count falls inside of a
  character, past the end or below zero. The items are the same. -/
  cuts : ∀ calls, (ByteScanner.ofText text).item? keywords calls =
    some ((ofText text).item keywords calls)
  /-- There are finitely many items, and nothing comes behind the last of them. -/
  ends : ∃ count, ∀ calls, (ofText text).item keywords calls = none ↔ count ≤ calls
  /-- An error is the last item. -/
  error_last : ∀ calls cause, (ofText text).item keywords calls = some (.error cause) →
    (ofText text).item keywords (calls + 1) = none
  /-- What is left begins between two characters of the text. -/
  rest_suffix : ∀ calls, ((ofText text).afterCalls keywords calls).cursor.rest <:+ text
  /-- An error comes exactly where the scanner is stuck, and tells the place and the budget. -/
  error_iff : ∀ cause, (∃ calls, (ofText text).item keywords calls = some (.error cause)) ↔
    ∃ front back, text = front ++ back ∧ Reaches keywords text back ∧ Stuck keywords back ∧
      cause = .stalled (.behind front) (4 * (text.length + 1))

theorem error_of_reaches {keywords : μ} {front back : List Char}
    (reaches : Reaches keywords (front ++ back) back) (stuck : Stuck keywords back) :
    ∃ calls, (ofText (front ++ back)).item keywords calls =
      some (.error (.stalled (.behind front) (4 * ((front ++ back).length + 1)))) := by
  obtain ⟨calls, pending, hback⟩ := reaches
  rcases within_afterCalls keywords (front ++ back) calls with within | spent
  · obtain ⟨passed, rest, hpassed, hcursor⟩ := within.cursor
    rw [hcursor, Cursor.behind_rest] at hback
    have hrest : rest.takeWhile Text.isBlank ++ back = rest := by
      rw [← hback, List.takeWhile_append_dropWhile]
    have hfront : passed ++ rest.takeWhile Text.isBlank = front :=
      List.append_cancel_right (by rw [List.append_assoc, hrest, hpassed])
    have hskip : ((ofText (front ++ back)).afterCalls keywords calls).cursor.skip Text.isBlank =
        .behind front back := by
      rw [hcursor, Cursor.skip_behind, hfront, hback]
    obtain ⟨more, hitem⟩ := exists_item_of_stuck pending (by rw [hskip]; exact stuck)
    rw [item_afterCalls, hskip, within.budget] at hitem
    exact ⟨_, hitem⟩
  · rw [spent.rest] at hback
    exact absurd hback.symm stuck.nonempty

theorem stops (keywords : μ) (text : List Char) : Stops keywords text where
  cuts calls := (ByteScanner.ofText text).item?_eq keywords calls
  ends := (within_ofText text).exists_end keywords
  error_last calls cause h := (fails_of_item h).1.item keywords 0
  rest_suffix calls := by
    rcases within_afterCalls keywords text calls with within | spent
    · obtain ⟨front, rest, htext, hcursor⟩ := within.cursor
      rw [hcursor, htext]
      exact List.suffix_append front rest
    · rw [spent.rest]
      exact List.nil_suffix
  error_iff cause := by
    constructor
    · rintro ⟨calls, h⟩
      obtain ⟨-, fails⟩ := fails_of_item h
      obtain ⟨front, htext, hcause⟩ := fails.report
      exact ⟨front, _, htext, ⟨calls, fails.pending, rfl⟩, fails.stuck, hcause⟩
    · rintro ⟨front, back, rfl, reaches, stuck, rfl⟩
      exact error_of_reaches reaches stuck

/-- A scanner stops on every text, whatever its keywords are, and with a table of symbols it never
reports an error. -/
theorem scanning_stops (text : List Char) :
    (∀ (μ : Type) [KeywordMap μ Symbol] (keywords : μ), Stops keywords text) ∧
      ∀ (table : SymbolTable) (calls : Nat) (cause : ConversionError),
        (ofText text).item table calls ≠ some (.error cause) := by
  refine ⟨fun _ _ keywords ↦ stops keywords text, fun table calls cause h ↦ ?_⟩
  obtain ⟨-, back, -, -, stuck, -⟩ := ((stops table text).error_iff cause).1 ⟨calls, h⟩
  exact table.fits.not_stuck back stuck

end Scanner

/-- A keyword that is one byte longer than any text it is looked for in. -/
structure Overlong where
  symbol : Symbol

instance : KeywordMap Overlong Symbol :=
  ⟨fun keyword text ↦ some (Text.byteLength text + 1, keyword.symbol)⟩

example : tokenize (Overlong.mk ⟨"x", .constant, none⟩) " ab" =
    .error (.stalled ⟨1, 2⟩ 16) := by
  decide

end AsciiMath
