import AsciiMath.Proofs.Token.Progress

/-!
# The layout of a text

The segments of the tokens stand one behind the other from the start of a text to the blanks at its
end, so nothing is lost between two tokens but blanks and delimiters. A row break takes the blanks
at a place exactly if they hold two line ends before more text, and each position counts the lines
and the characters before the place where its token starts.
-/

namespace AsciiMath

variable {μ : Type} [KeywordMap μ Symbol]

/-- Segments from a place in a text to the blanks at its end, the first of them behind a token that
asks for what the flag says. -/
inductive Laid (keywords : μ) : List Char → Option Flag → List Segment → List Char → Prop where
  | nil {front back : List Char} (blank : ∀ c ∈ back, Text.isBlank c) :
      Laid keywords front none [] back
  | cons {front back : List Char} {asking : Option Flag} {segment : Segment}
      {segments : List Segment} (stands : segment.Stands keywords front asking back)
      (more : Laid keywords (front ++ segment.text) segment.token.asks segments back) :
      Laid keywords front asking (segment :: segments) (segment.text ++ back)

theorem Segment.Stands.asks_argument {keywords : μ} {front back : List Char} {flag : Flag}
    {segment : Segment} (stands : segment.Stands keywords front (some flag) back) :
    segment.token.asks = none := by
  cases stands with
  | argument => rfl

theorem Scanner.Yields.laid {keywords : μ} {scanner : Scanner} {tokens : List Token}
    (yields : Scanner.Yields keywords scanner tokens) {front rest : List Char}
    (place : scanner.cursor = .behind front rest) :
    ∃ segments : List Segment,
      tokens = scanner.pending.toList ++ segments.map Segment.token ∧
        Laid keywords front none segments rest := by
  induction yields generalizing front rest with
  | @stop scanner after last =>
    have step := Scanner.calls_next keywords scanner
    rw [last] at step
    cases step with
    | last pending _ nothing =>
      rw [place, Cursor.skip_behind, Cursor.behind_rest, List.dropWhile_eq_nil_iff] at nothing
      exact ⟨[], by simp [pending], .nil nothing⟩
  | @token scanner after token tokens first more ih =>
    have step := Scanner.calls_next keywords scanner
    rw [first] at step
    cases step with
    | argument pending =>
      obtain ⟨segments, rfl, laid⟩ := ih place
      exact ⟨segments, by simp [pending], laid⟩
    | lexeme pending read =>
      rw [place] at read
      cases Cursor.attempt_spans read with
      | @alone segment back asks stands =>
        obtain ⟨segments, rfl, laid⟩ := ih rfl
        exact ⟨segment :: segments, by simp [pending], .cons stands (asks ▸ laid)⟩
      | @led segment argument flag back asks stands follows =>
        obtain ⟨segments, rfl, laid⟩ := ih rfl
        have behind : Laid keywords (front ++ segment.text) (some flag) (argument :: segments)
            (argument.text ++ back) := .cons follows (follows.asks_argument ▸ laid)
        exact ⟨segment :: argument :: segments, by simp [pending], .cons stands (asks ▸ behind)⟩

theorem tokenize_laid {keywords : μ} (fits : KeywordMap.Fits keywords) (text : String) :
    ∃ segments : List Segment, tokenize keywords text = .ok (segments.map Segment.token) ∧
      Laid keywords [] none segments text.toList := by
  obtain ⟨tokens, htokens, yields, -⟩ := tokenize_eq_ok fits text
  obtain ⟨segments, rfl, laid⟩ := yields.laid (Cursor.ofText_eq_behind text.toList)
  exact ⟨segments, htokens, laid⟩

namespace Segment

/-- The text of some segments, one behind the other. -/
def textOf (segments : List Segment) : List Char := segments.flatMap text

@[simp] theorem textOf_nil : textOf [] = [] := rfl

@[simp] theorem textOf_cons (segment : Segment) (segments : List Segment) :
    textOf (segment :: segments) = segment.text ++ textOf segments := rfl

@[simp] theorem textOf_append (before after : List Segment) :
    textOf (before ++ after) = textOf before ++ textOf after := List.flatMap_append

/-- What the last of some segments asks for. -/
def asked (before : List Segment) : Option Flag := before.getLast?.bind (·.token.asks)

end Segment

open Segment

/-- What stands behind some of the segments. -/
theorem Laid.split {keywords : μ} {front rest : List Char} {asking : Option Flag}
    {before after : List Segment} (laid : Laid keywords front asking (before ++ after) rest) :
    ∃ back, rest = textOf before ++ back ∧ Laid keywords (front ++ textOf before)
      (if before = [] then asking else asked before) after back := by
  induction before generalizing front asking rest with
  | nil => exact ⟨rest, rfl, by simpa using laid⟩
  | cons segment before ih =>
    cases laid with
    | @cons _ back _ _ _ stands more =>
      obtain ⟨back, rfl, behind⟩ := ih more
      refine ⟨back, by simp, ?_⟩
      rw [List.append_assoc, ← textOf_cons] at behind
      cases before with
      | nil => simpa [asked] using behind
      | cons next before => simpa [asked] using behind

theorem Laid.trailing {keywords : μ} {front rest : List Char} {asking : Option Flag}
    {segments : List Segment} (laid : Laid keywords front asking segments rest) :
    ∃ trailing, rest = textOf segments ++ trailing ∧ ∀ c ∈ trailing, Text.isBlank c := by
  induction laid with
  | @nil front back blank => exact ⟨back, rfl, blank⟩
  | cons stands more ih =>
    obtain ⟨trailing, rfl, blank⟩ := ih
    exact ⟨trailing, by simp, blank⟩

theorem Laid.stands {keywords : μ} {text : List Char} {before after : List Segment}
    {segment : Segment} (laid : Laid keywords [] none (before ++ segment :: after) text) :
    ∃ back, text = textOf before ++ (segment.text ++ back) ∧
      segment.Stands keywords (textOf before) (asked before) back := by
  obtain ⟨rest, rfl, behind⟩ := laid.split
  have start : (if before = [] then none else asked before) = asked before := by
    split
    · next empty => rw [empty]; rfl
    · rfl
  rw [start, List.nil_append] at behind
  generalize asked before = asking at behind ⊢
  cases behind with
  | cons stands more => exact ⟨_, rfl, stands⟩

/-- A run of blanks with two line ends or more, right before other text. -/
def BlankLine (run text : List Char) : Prop :=
  ∃ c cs, text = run ++ c :: cs ∧ (∀ d ∈ run, Text.isBlank d) ∧ ¬ Text.isBlank c ∧
    2 ≤ run.count '\n'

theorem takeWhile_isBlank {blank rest : List Char} (h : ∀ c ∈ blank, Text.isBlank c)
    (solid : ∀ c cs, rest = c :: cs → ¬ Text.isBlank c) :
    (blank ++ rest).takeWhile Text.isBlank = blank := by
  refine (Text.span_of_parts h fun c hc ↦ ?_).1
  obtain ⟨cs, hrest⟩ := List.head?_eq_some_iff.1 hc
  exact solid c cs hrest

theorem BlankLine.eq_takeWhile {run text : List Char} (h : BlankLine run text) :
    run = text.takeWhile Text.isBlank := by
  obtain ⟨c, cs, rfl, blank, solid, -⟩ := h
  refine (takeWhile_isBlank blank fun d ds hd ↦ ?_).symm
  obtain ⟨rfl, -⟩ := List.cons.inj hd
  exact solid

/-- Blanks that are skipped are no blank line. -/
theorem Skipped.not_blankLine {gap rest run : List Char} (skipped : Skipped gap rest) :
    ¬ BlankLine run (gap ++ rest) := by
  intro line
  have hrun := line.eq_takeWhile
  rw [takeWhile_isBlank skipped.blank skipped.solid] at hrun
  obtain ⟨-, -, -, -, -, broken⟩ := line
  rw [hrun] at broken
  exact Nat.not_lt.2 broken skipped.narrow

def Token.IsRowBreak (token : Token) : Prop :=
  token.keyword = false ∧ token.category = .alignMark ∧ token.template = AsciiMath.rowBreak

/-- A text in quotes that is no argument. -/
def Token.IsQuotation (token : Token) : Prop :=
  token.keyword = false ∧ token.category = .text ∧
    token.template = "\\text\x7b" ++ token.value ++ "\x7d"

theorem Spelled.not_isRowBreak {keywords : μ} {position : Position}
    {opening closing back : List Char} {token : Token}
    (spelled : Spelled keywords position opening token closing back) : ¬ token.IsRowBreak := by
  rintro ⟨plain, category, -⟩
  cases spelled with
  | keyword => simp at plain
  | _ => simp [Token.literal] at category

namespace Segment.Stands

variable {keywords : μ} {front back : List Char} {asking : Option Flag} {segment : Segment}

theorem gap_blank (stands : segment.Stands keywords front asking back) :
    ∀ c ∈ segment.gap, Text.isBlank c := by
  cases stands with
  | rowBreak => simp
  | lexeme skipped => exact skipped.blank
  | argument inline => exact fun c hc ↦ (Bool.and_eq_true_iff.1 (inline c hc)).1

theorem gap_narrow (stands : segment.Stands keywords front asking back) :
    segment.gap.count '\n' < 2 := by
  cases stands with
  | rowBreak => simp
  | lexeme skipped => exact skipped.narrow
  | argument inline =>
    refine Nat.lt_of_le_of_lt (Nat.le_of_eq (List.count_eq_zero.2 fun newline ↦ ?_)) Nat.two_pos
    exact absurd (inline '\n' newline) (by decide)

theorem delimited (stands : segment.Stands keywords front asking back) :
    Delimited segment.opening segment.closing := by
  cases stands with
  | rowBreak => exact .nil
  | argument _ delimited => exact delimited
  | lexeme _ spelled =>
    cases spelled with
    | quotation _ _ closed =>
      refine ⟨Nat.le_refl 1, ?_, by simp, ?_⟩
      · rcases closed with rfl | ⟨rfl, -⟩ <;> simp
      · rcases closed with rfl | ⟨rfl, -⟩ <;> simp
    | _ => exact .nil

theorem opening (stands : segment.Stands keywords front asking back)
    (h : segment.opening ≠ []) : asking.isSome ∨ segment.token.IsQuotation := by
  cases stands with
  | rowBreak => exact absurd rfl h
  | argument => exact .inl rfl
  | lexeme _ spelled =>
    cases spelled with
    | quotation => exact .inr ⟨rfl, rfl, rfl⟩
    | _ => exact absurd rfl h

theorem position (stands : segment.Stands keywords front asking back) :
    segment.token.position = .behind (front ++ segment.gap ++
      if asking = some .colorSpec then segment.opening else []) := by
  cases stands with
  | rowBreak => simp
  | argument => simp [Token.literal]
  | lexeme _ spelled => cases spelled <;> simp [Token.literal]

theorem rowBreak_iff (stands : segment.Stands keywords front asking back) (run : List Char) :
    segment.token.IsRowBreak ∧ segment.token.value = String.ofList run ↔
      asking = none ∧ BlankLine run (segment.text ++ back) := by
  cases stands with
  | @rowBreak blank c cs isBlank broken solid =>
    have line : BlankLine blank (blank ++ c :: cs) := ⟨c, cs, rfl, isBlank, solid, broken⟩
    have htext : Segment.text ⟨[], [], ⟨String.ofList blank, AsciiMath.rowBreak, .alignMark,
        false, none, .behind front⟩, []⟩ = blank := by simp [Segment.text]
    rw [htext]
    constructor
    · rintro ⟨-, hvalue⟩
      obtain rfl := String.ofList_injective hvalue
      exact ⟨rfl, line⟩
    · rintro ⟨-, hrun⟩
      rw [hrun.eq_takeWhile, ← line.eq_takeWhile]
      exact ⟨⟨rfl, rfl, rfl⟩, rfl⟩
  | lexeme skipped spelled =>
    refine iff_of_false (fun h ↦ spelled.not_isRowBreak h.1) fun h ↦ ?_
    refine skipped.not_blankLine (?_ : BlankLine run _)
    simpa [Segment.text] using h.2
  | argument =>
    refine iff_of_false (fun h ↦ ?_) (by simp)
    simp [Token.IsRowBreak, Token.literal] at h

end Segment.Stands

/-- The segments of some tokens cover a text up to the blanks at its end. -/
structure Covers (text : List Char) (segments : List Segment) (trailing : List Char) : Prop where
  text_eq : text = textOf segments ++ trailing
  trailing_blank : ∀ c ∈ trailing, Text.isBlank c
  gap_blank : ∀ segment ∈ segments, ∀ c ∈ segment.gap, Text.isBlank c
  gap_narrow : ∀ segment ∈ segments, segment.gap.count '\n' < 2
  delimited : ∀ segment ∈ segments, Delimited segment.opening segment.closing
  /-- Only arguments and quotations have delimiters. -/
  opening : ∀ before segment after, segments = before ++ segment :: after →
    segment.opening ≠ [] → (asked before).isSome ∨ segment.token.IsQuotation
  /-- Behind a token that asks for nothing a row break takes the blank line that stands there. -/
  rowBreak_iff : ∀ before after, segments = before ++ after → ∀ run,
    (∃ segment ∈ after.head?, segment.token.IsRowBreak ∧
      segment.token.value = String.ofList run) ↔
    asked before = none ∧ BlankLine run (textOf after ++ trailing)
  /-- A token starts at its value or at the delimiter before it, but the name of a color always at
  its value. -/
  position : ∀ before segment after, segments = before ++ segment :: after →
    segment.token.position = .behind (textOf before ++ segment.gap ++
      if asked before = some .colorSpec then segment.opening else [])

theorem Laid.covers {keywords : μ} {text : List Char} {segments : List Segment}
    (laid : Laid keywords [] none segments text) :
    ∃ trailing, Covers text segments trailing := by
  obtain ⟨trailing, rfl, blank⟩ := laid.trailing
  have place {before after : List Segment} {segment : Segment}
      (parts : segments = before ++ segment :: after) :
      segment.Stands keywords (textOf before) (asked before) (textOf after ++ trailing) := by
    subst parts
    obtain ⟨back, hback, stands⟩ := laid.stands
    rw [textOf_append, textOf_cons, List.append_assoc, List.append_assoc,
      List.append_cancel_left_eq, List.append_cancel_left_eq] at hback
    rwa [hback]
  have each {p : Segment → Prop}
      (holds : ∀ {front back asking segment}, segment.Stands keywords front asking back →
        p segment) : ∀ segment ∈ segments, p segment := by
    intro segment mem
    obtain ⟨before, after, parts⟩ := List.append_of_mem mem
    exact holds (place parts)
  refine ⟨trailing, rfl, blank, each fun stands ↦ stands.gap_blank,
    each fun stands ↦ stands.gap_narrow, each fun stands ↦ stands.delimited,
    fun _ _ _ parts ↦ (place parts).opening, fun before after parts run ↦ ?_,
    fun _ _ _ parts ↦ (place parts).position⟩
  cases after with
  | nil =>
    refine iff_of_false (by simp) ?_
    rintro ⟨-, c, cs, htrailing, -, solid, -⟩
    exact solid (blank c (by simp_all))
  | cons segment after =>
    simpa [and_assoc] using (place parts).rowBreak_iff run

/-- Every text is covered by the segments of its tokens, apart from the blanks at its end. -/
theorem tokenize_covers (table : SymbolTable) (text : String) :
    ∃ segments trailing, tokenize table text = .ok (segments.map Segment.token) ∧
      Covers text.toList segments trailing := by
  obtain ⟨segments, htokens, laid⟩ := tokenize_laid table.fits text
  obtain ⟨trailing, covers⟩ := laid.covers
  exact ⟨segments, trailing, htokens, covers⟩

end AsciiMath
