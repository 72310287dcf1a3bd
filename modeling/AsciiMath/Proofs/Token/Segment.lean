import AsciiMath.Proofs.Token.Numeral
import AsciiMath.Proofs.Token.Place

/-!
# Segments

A segment is the text that belongs to one token: its value, the blanks that are skipped before it,
and the delimiter that may stand on either side of a quotation or of an argument. Each attempt at a
token takes the segment of a row break, of another token, or of a keyword and its argument off the
front of what is left, whatever the keywords are.
-/

namespace AsciiMath

structure Segment where
  gap : List Char
  opening : List Char
  token : Token
  closing : List Char

def Segment.text (segment : Segment) : List Char :=
  segment.gap ++ segment.opening ++ segment.token.value.toList ++ segment.closing

/-- The flag by which a token asks for an argument. -/
def Token.asks (token : Token) : Option Flag :=
  if token.keyword then token.flag.filter (· != .rowRule) else none

@[simp] theorem Token.asks_of_plain {token : Token} (h : token.keyword = false) :
    token.asks = none := by
  simp [asks, h]

@[simp] theorem Token.literal_asks (value : List Char) (category : Category)
    (position : Position) : (literal value category position).asks = none := rfl

/-- All blanks before the rest, fewer than a row break has. -/
structure Skipped (gap rest : List Char) : Prop where
  blank : ∀ c ∈ gap, Text.isBlank c
  narrow : gap.count '\n' < 2
  solid : ∀ c cs, rest = c :: cs → ¬ Text.isBlank c

/-- At most one delimiter on either side, and none behind where none stands before. -/
structure Delimited (opening closing : List Char) : Prop where
  opening_length : opening.length ≤ 1
  closing_length : closing.length ≤ opening.length
  opens : opening ⊆ ['(', '[', '\x7b', '\x22']
  closes : closing ⊆ [')', ']', '\x7d', '\x22']

theorem Delimited.nil : Delimited [] [] :=
  ⟨Nat.zero_le 1, Nat.le_refl 0, List.nil_subset _, List.nil_subset _⟩

/-- A delimiter before, and behind as much as is left of the character that closes it. -/
theorem Delimited.take {o : Char} {back : List Char}
    (opens : o ∈ ['(', '[', '\x7b', '\x22'])
    (closes : ∀ c cs, back = c :: cs → c ∈ [')', ']', '\x7d', '\x22']) :
    Delimited [o] (back.take 1) := by
  refine ⟨Nat.le_refl 1, List.length_take_le 1 back, List.cons_subset.2 ⟨opens, by simp⟩, ?_⟩
  cases back with
  | nil => simp
  | cons c cs => exact List.cons_subset.2 ⟨closes c cs rfl, by simp⟩

variable {μ : Type} [KeywordMap μ Symbol]

/-- The longest keyword at the start of a text ends where a character ends. -/
def Offers (keywords : μ) (text : List Char) : Prop :=
  ∃ value back symbol, text = value ++ back ∧ value ≠ [] ∧
    KeywordMap.longest? keywords text = some (Text.byteLength value, symbol)

/-- A token other than a row break or an argument, at its place between its delimiters and with the
text behind them. -/
inductive Spelled (keywords : μ) (position : Position) :
    List Char → Token → List Char → List Char → Prop where
  | keyword {value back : List Char} {symbol : Symbol} (nonempty : value ≠ [])
      (found : KeywordMap.longest? keywords (value ++ back) =
        some (Text.byteLength value, symbol)) :
      Spelled keywords position [] ⟨String.ofList value, symbol.template, symbol.category, true,
        symbol.flag, position⟩ [] back
  | number {value back : List Char} (plain : ¬ Offers keywords (value ++ back))
      (numeral : IsNumeral value)
      (longest : ∀ longer, longer <+: value ++ back → IsNumeral longer →
        longer.length ≤ value.length) :
      Spelled keywords position [] (.literal value .number position) [] back
  | quotation {inside closing back : List Char}
      (plain : ¬ Offers keywords ('\x22' :: (inside ++ closing ++ back)))
      (inner : '\x22' ∉ inside) (closed : closing = ['\x22'] ∨ closing = [] ∧ back = []) :
      Spelled keywords position ['\x22'] ⟨String.ofList inside,
        "\\text\x7b" ++ String.ofList inside ++ "\x7d", .text, false, none, position⟩ closing back
  | run {value back : List Char} (nonempty : value ≠ [])
      (plain : ∀ past ahead, value = past ++ ahead → ahead ≠ [] →
        KeywordMap.startsKeyword keywords (ahead ++ back) = false)
      (solid : ∀ c ∈ value, ¬ Text.isBlank c)
      (ends : ∀ c cs, back = c :: cs → Text.isBlank c ∨ KeywordMap.startsKeyword keywords back) :
      Spelled keywords position [] (.literal value .run position) [] back

/-- A segment behind the front of a text, and behind a token that asks for what the flag says. -/
inductive Segment.Stands (keywords : μ) (front : List Char) :
    Option Flag → Segment → List Char → Prop where
  | rowBreak {blank : List Char} {c : Char} {cs : List Char}
      (isBlank : ∀ d ∈ blank, Text.isBlank d) (broken : 2 ≤ blank.count '\n')
      (solid : ¬ Text.isBlank c) :
      Stands keywords front none ⟨[], [], ⟨String.ofList blank, AsciiMath.rowBreak, .alignMark,
        false, none, .behind front⟩, []⟩ (c :: cs)
  | lexeme {gap opening closing back : List Char} {token : Token}
      (skipped : Skipped gap (opening ++ token.value.toList ++ closing ++ back))
      (spelled : Spelled keywords (.behind (front ++ gap)) opening token closing back) :
      Stands keywords front none ⟨gap, opening, token, closing⟩ back
  | argument {flag : Flag} {gap opening inside closing back : List Char}
      (inline : ∀ c ∈ gap, Text.isInlineBlank c) (delimited : Delimited opening closing) :
      Stands keywords front (some flag) ⟨gap, opening, .literal inside .text
        (.behind (front ++ gap ++ if flag = .colorSpec then opening else [])), closing⟩ back

namespace Cursor

/-- A lexeme that is made of the segments behind the front of a text. -/
inductive Lexeme.Spans (keywords : μ) (front : List Char) : List Char → Lexeme → Prop where
  | alone {segment : Segment} {back : List Char} (asks : segment.token.asks = none)
      (stands : segment.Stands keywords front none back) :
      Spans keywords front (segment.text ++ back)
        ⟨segment.token, none, behind (front ++ segment.text) back⟩
  | led {segment argument : Segment} {flag : Flag} {back : List Char}
      (asks : segment.token.asks = some flag)
      (stands : segment.Stands keywords front none (argument.text ++ back))
      (follows : argument.Stands keywords (front ++ segment.text) (some flag) back) :
      Spans keywords front (segment.text ++ (argument.text ++ back))
        ⟨segment.token, some argument.token,
          behind (front ++ segment.text ++ argument.text) back⟩

theorem head_splitGroup {depth : Nat} {text : List Char} {c : Char} {cs : List Char}
    (h : (splitGroup depth text).2 = c :: cs) : c = ')' := by
  induction text generalizing depth with
  | nil => simp [splitGroup] at h
  | cons d ds ih =>
    unfold splitGroup at h
    split at h
    · next hd =>
      cases depth with
      | zero => exact (List.cons.inj h).1 ▸ hd
      | succ depth => exact ih h
    · exact ih h

/-- An argument that was read behind the front of a text is the next segment. -/
def ReadsArgument (keywords : μ) (flag : Flag) (front rest : List Char)
    (read : Token × Cursor) : Prop :=
  ∃ (segment : Segment) (back : List Char), rest = segment.text ++ back ∧
    segment.Stands keywords front (some flag) back ∧
    read = (segment.token, behind (front ++ segment.text) back)

theorem ReadsArgument.of_parts {keywords : μ} {flag : Flag} {front rest : List Char}
    (gap opening inside closing back : List Char) {read : Token × Cursor}
    (parts : gap ++ (opening ++ (inside ++ (closing ++ back))) = rest)
    (inline : ∀ c ∈ gap, Text.isInlineBlank c) (delimited : Delimited opening closing)
    (hread : read = (.literal inside .text
        (.behind (front ++ gap ++ if flag = .colorSpec then opening else [])),
      behind (front ++ gap ++ opening ++ inside ++ closing) back)) :
    ReadsArgument keywords flag front rest read := by
  refine ⟨⟨gap, opening, .literal inside .text
    (.behind (front ++ gap ++ if flag = .colorSpec then opening else [])), closing⟩, back, ?_,
    .argument inline delimited, ?_⟩
  · simp [← parts, Segment.text, Token.literal]
  · simp [hread, Segment.text, Token.literal]

theorem rawText_reads (keywords : μ) {flag : Flag} (h : flag ≠ .colorSpec)
    (front rest : List Char) :
    ReadsArgument keywords flag front rest (behind front rest).rawText := by
  have parts := List.takeWhile_append_dropWhile (p := Text.isInlineBlank) (l := rest)
  let gap := rest.takeWhile Text.isInlineBlank
  have inline : ∀ c ∈ gap, Text.isInlineBlank c := fun c ↦ Text.of_mem_takeWhile
  unfold rawText
  rw [skip_behind]
  dsimp only
  split
  · next starts =>
    obtain ⟨c, cs, hrest, hc⟩ := exists_of_startsWith starts
    obtain rfl := List.mem_singleton.1 hc
    rw [hrest] at parts ⊢
    let group := splitGroup 0 cs
    have delimited : Delimited ['('] (group.2.take 1) :=
      .take (by simp) fun c cs hback ↦ by simp [head_splitGroup hback]
    refine .of_parts gap ['('] group.1 (group.2.take 1) (group.2.drop 1) ?_ inline delimited ?_
    · rw [List.take_append_drop, splitGroup_append, ← parts]
      rfl
    · simp [h, gap, group]
  · let word := (rest.dropWhile Text.isInlineBlank).takeWhile (!Text.isBlank ·)
    let back := (rest.dropWhile Text.isInlineBlank).dropWhile (!Text.isBlank ·)
    refine .of_parts gap [] word [] back ?_ inline .nil ?_
    · simp [gap, word, back]
    · simp [gap, word, back]

theorem quotation_behind (front rest : List Char) :
    (behind front ('\x22' :: rest)).quotation = (rest.takeWhile (· != '\x22'),
      behind (front ++ ['\x22'] ++ rest.takeWhile (· != '\x22') ++
        (rest.dropWhile (· != '\x22')).take 1) ((rest.dropWhile (· != '\x22')).drop 1)) := by
  simp [quotation]

theorem eq_quote_of_dropWhile {rest cs : List Char} {c : Char}
    (h : rest.dropWhile (· != '\x22') = c :: cs) : c = '\x22' := by
  simpa using Text.eq_false_of_dropWhile h

theorem rawText_skip (cursor : Cursor) :
    (cursor.skip Text.isInlineBlank).rawText = cursor.rawText := by
  rw [rawText, rawText, skip_skip]

theorem quotedLiteral_reads (keywords : μ) {flag : Flag} (h : flag ≠ .colorSpec)
    (front rest : List Char) :
    ReadsArgument keywords flag front rest (behind front rest).quotedLiteral := by
  have parts := List.takeWhile_append_dropWhile (p := Text.isInlineBlank) (l := rest)
  unfold quotedLiteral
  dsimp only
  split
  · next starts =>
    rw [skip_behind] at starts ⊢
    obtain ⟨c, cs, hrest, hc⟩ := exists_of_startsWith starts
    obtain rfl := List.mem_singleton.1 hc
    rw [hrest] at parts ⊢
    rw [quotation_behind]
    let gap := rest.takeWhile Text.isInlineBlank
    let inside := cs.takeWhile (· != '\x22')
    let back := cs.dropWhile (· != '\x22')
    have inline : ∀ c ∈ gap, Text.isInlineBlank c := fun c ↦ Text.of_mem_takeWhile
    have delimited : Delimited ['\x22'] (back.take 1) :=
      .take (by simp) fun c cs hback ↦ by simp [eq_quote_of_dropWhile hback]
    refine .of_parts gap ['\x22'] inside (back.take 1) (back.drop 1) ?_ inline delimited ?_
    · rw [List.take_append_drop, List.takeWhile_append_dropWhile, ← parts]
      rfl
    · simp [h, gap, inside, back]
  · rw [rawText_skip]
    exact rawText_reads keywords h front rest

theorem colorSpec_reads (keywords : μ) (front rest : List Char) :
    ReadsArgument keywords .colorSpec front rest (behind front rest).colorSpec := by
  have parts := List.takeWhile_append_dropWhile (p := Text.isInlineBlank) (l := rest)
  let gap := rest.takeWhile Text.isInlineBlank
  have inline : ∀ c ∈ gap, Text.isInlineBlank c := fun c ↦ Text.of_mem_takeWhile
  unfold colorSpec
  rw [skip_behind]
  dsimp only
  split
  · next starts =>
    rw [starts]
    obtain ⟨o, cs, hrest, opens⟩ := exists_of_startsWith starts
    rw [hrest] at parts ⊢
    let name := cs.takeWhile isColorChar
    let back := cs.dropWhile isColorChar
    have hopens : o ∈ ['(', '[', '\x7b', '\x22'] :=
      List.mem_append_left ['\x22'] opens
    have read : (behind (front ++ gap) (o :: cs)).step.skip isColorChar =
        behind (front ++ gap ++ [o] ++ name) back := by
      simp [name, back]
    rw [read, Bool.true_and]
    split
    · next closes =>
      obtain ⟨c, cs', hback, hc⟩ := exists_of_startsWith closes
      have delimited : Delimited [o] (back.take 1) := by
        refine .take hopens fun d ds hd ↦ ?_
        obtain ⟨rfl, -⟩ := List.cons.inj (hback.symm.trans hd)
        exact List.mem_append_left ['\x22'] hc
      refine .of_parts gap [o] name (back.take 1) (back.drop 1) ?_ inline delimited ?_
      · rw [List.take_append_drop, List.takeWhile_append_dropWhile, ← parts]
        rfl
      · simp [gap, name]
    · have delimited : Delimited [o] [] :=
        ⟨Nat.le_refl 1, Nat.zero_le 1, List.cons_subset.2 ⟨hopens, by simp⟩, by simp⟩
      refine .of_parts gap [o] name [] back ?_ inline delimited ?_
      · rw [List.nil_append, List.takeWhile_append_dropWhile, ← parts]
        rfl
      · simp [gap, name]
  · next plain =>
    let name := (rest.dropWhile Text.isInlineBlank).takeWhile isColorChar
    let back := (rest.dropWhile Text.isInlineBlank).dropWhile isColorChar
    refine .of_parts gap [] name [] back ?_ inline .nil ?_
    · simp [gap, name, back]
    · simp [plain, gap, name, back]

/-- Whatever a flag asks for is there, if it asks for anything. -/
theorem argument_reads (keywords : μ) {flag : Flag} (h : flag ≠ .rowRule)
    (front rest : List Char) :
    ∃ (segment : Segment) (back : List Char), rest = segment.text ++ back ∧
      segment.Stands keywords front (some flag) back ∧
      (behind front rest).argument flag =
        (some segment.token, behind (front ++ segment.text) back) := by
  have found {read : Token × Cursor} (reads : ReadsArgument keywords flag front rest read) :
      ∃ (segment : Segment) (back : List Char), rest = segment.text ++ back ∧
        segment.Stands keywords front (some flag) back ∧
        read.map some id = (some segment.token, behind (front ++ segment.text) back) := by
    obtain ⟨segment, back, hrest, stands, rfl⟩ := reads
    exact ⟨segment, back, hrest, stands, rfl⟩
  cases flag with
  | rawText => exact found (rawText_reads keywords (by simp) front rest)
  | texLiteral => exact found (quotedLiteral_reads keywords (by simp) front rest)
  | lengthLiteral => exact found (quotedLiteral_reads keywords (by simp) front rest)
  | colorSpec => exact found (colorSpec_reads keywords front rest)
  | rowRule => exact absurd rfl h

theorem keyword?_eq_none_iff {keywords : μ} {cursor : Cursor} :
    cursor.keyword? keywords = none ↔ ¬ Offers keywords cursor.rest := by
  unfold keyword?
  split
  · next length symbol hlongest =>
    rw [Option.map_eq_none_iff]
    constructor
    · rintro hsplit ⟨value, back, found, hrest, -, hfound⟩
      obtain ⟨hlength, -⟩ := Prod.mk.inj (Option.some.inj (hlongest.symm.trans hfound))
      have fits := Text.splitBytes?_append value back
      rw [← hrest, ← hlength] at fits
      rw [fits] at hsplit
      cases hsplit
    · intro plain
      refine Option.eq_none_iff_forall_not_mem.2 fun ⟨value, back⟩ hsplit ↦ plain ?_
      obtain ⟨hrest, hlength⟩ := Text.splitBytes?_eq_some hsplit
      refine ⟨value, back, symbol, hrest, ?_, by rw [hlongest, hlength]⟩
      rintro rfl
      exact Nat.succ_ne_zero length hlength.symm
  · next none =>
    refine iff_of_true rfl ?_
    rintro ⟨value, back, symbol, -, nonempty, hfound⟩
    obtain ⟨length, hlength⟩ :=
      Nat.exists_eq_succ_of_ne_zero (Nat.ne_of_gt (Text.byteLength_pos nonempty))
    exact none length symbol (by rw [hfound, hlength])

theorem spans_of_spelled {keywords : μ} {front gap rest opening closing back : List Char}
    {token : Token} (parts : opening ++ token.value.toList ++ closing ++ back = rest)
    (skipped : Skipped gap rest) (asks : token.asks = none)
    (spelled : Spelled keywords (.behind (front ++ gap)) opening token closing back) :
    Lexeme.Spans keywords front (gap ++ rest) ⟨token, none,
      behind (front ++ gap ++ opening ++ token.value.toList ++ closing) back⟩ := by
  subst parts
  have spans := Lexeme.Spans.alone asks (.lexeme skipped spelled)
  simpa [Segment.text] using spans

theorem keyword?_spans {keywords : μ} {front gap rest : List Char} (skipped : Skipped gap rest)
    {lexeme : Lexeme} (read : (behind (front ++ gap) rest).keyword? keywords = some lexeme) :
    Lexeme.Spans keywords front (gap ++ rest) lexeme := by
  unfold keyword? at read
  split at read
  · next length symbol hlongest =>
    obtain ⟨⟨value, back⟩, hsplit, hlexeme⟩ := Option.map_eq_some_iff.1 read
    obtain ⟨hrest, hlength⟩ := Text.splitBytes?_eq_some hsplit
    rw [behind_rest] at hrest hlongest
    subst hlexeme hrest
    let token : Token := ⟨String.ofList value, symbol.template, symbol.category, true, symbol.flag,
      .behind (front ++ gap)⟩
    have nonempty : value ≠ [] := by
      rintro rfl
      exact Nat.succ_ne_zero length hlength.symm
    have spelled : Spelled keywords (.behind (front ++ gap)) [] token [] back :=
      .keyword nonempty (by rw [hlongest, hlength])
    have hskipped : Skipped gap ([] ++ token.value.toList ++ [] ++ back) := by
      simpa [token] using skipped
    have htext : Segment.text ⟨gap, [], token, []⟩ = gap ++ value := by
      simp [Segment.text, token]
    dsimp only
    split
    · next flag hflag =>
      by_cases asking : flag = .rowRule
      · subst asking
        have asks : token.asks = none := by simp [Token.asks, token, hflag]
        have spans := Lexeme.Spans.alone asks (.lexeme hskipped spelled)
        rw [htext] at spans
        simpa [token, argument] using spans
      · have asks : token.asks = some flag := by simp [Token.asks, token, hflag, asking]
        obtain ⟨segment, back, rfl, follows, hread⟩ :=
          argument_reads keywords asking (front ++ gap ++ value) back
        rw [List.append_assoc, ← htext] at follows
        have spans := Lexeme.Spans.led asks (.lexeme hskipped spelled) follows
        rw [htext] at spans
        rw [between_behind, hread]
        simpa [token] using spans
    · next hflag =>
      have asks : token.asks = none := by simp [Token.asks, token, hflag]
      have spans := Lexeme.Spans.alone asks (.lexeme hskipped spelled)
      rw [htext] at spans
      simpa [token] using spans
  · simp at read

theorem numeral?_spans {keywords : μ} {front gap rest : List Char} (skipped : Skipped gap rest)
    (plain : ¬ Offers keywords rest) {lexeme : Lexeme}
    (read : (behind (front ++ gap) rest).numeral? = some lexeme) :
    Lexeme.Spans keywords front (gap ++ rest) lexeme := by
  have parts := numeral_append rest
  have isNumeral := @isNumeral_numeral rest
  have longest := @length_le_numeral rest
  unfold numeral? at read
  rw [behind_rest] at read
  split at read
  · simp at read
  · next value back nonempty hnumeral =>
    rw [hnumeral] at parts isNumeral longest
    obtain rfl := Option.some.inj read
    subst parts
    have spelled : Spelled keywords (.behind (front ++ gap)) []
        (.literal value .number (.behind (front ++ gap))) [] back :=
      .number plain (isNumeral nonempty) fun _ ↦ longest
    simpa [Token.literal] using
      spans_of_spelled (by simp [Token.literal]) skipped (by simp) spelled

theorem quotation?_spans {keywords : μ} {front gap rest : List Char} (skipped : Skipped gap rest)
    (plain : ¬ Offers keywords rest) {lexeme : Lexeme}
    (read : (behind (front ++ gap) rest).quotation? = some lexeme) :
    Lexeme.Spans keywords front (gap ++ rest) lexeme := by
  unfold quotation? at read
  split at read
  · next starts =>
    obtain ⟨c, cs, rfl, hc⟩ := exists_of_startsWith starts
    obtain rfl := List.mem_singleton.1 hc
    rw [quotation_behind] at read
    obtain rfl := Option.some.inj read
    let inside := cs.takeWhile (· != '\x22')
    let back := cs.dropWhile (· != '\x22')
    have parts : inside ++ back.take 1 ++ back.drop 1 = cs := by
      rw [List.append_assoc, List.take_append_drop, List.takeWhile_append_dropWhile]
    have inner : '\x22' ∉ inside := fun quote ↦ by
      simpa using Text.of_mem_takeWhile quote
    have closed : back.take 1 = ['\x22'] ∨ back.take 1 = [] ∧ back.drop 1 = [] := by
      cases hback : back with
      | nil => exact .inr ⟨rfl, rfl⟩
      | cons c cs => exact .inl (by rw [eq_quote_of_dropWhile hback]; rfl)
    let token : Token := ⟨String.ofList inside, "\\text\x7b" ++ String.ofList inside ++ "\x7d",
      .text, false, none, .behind (front ++ gap)⟩
    have spelled : Spelled keywords (.behind (front ++ gap)) ['\x22'] token (back.take 1)
        (back.drop 1) := .quotation (by rw [parts]; exact plain) inner closed
    have htoken : ['\x22'] ++ token.value.toList ++ back.take 1 ++ back.drop 1 = '\x22' :: cs := by
      simp [token, ← parts]
    have spans := spans_of_spelled htoken skipped rfl spelled
    simpa [token] using spans
  · simp at read

theorem solid_of_mem_splitRun {keywords : μ} {text : List Char} :
    ∀ c ∈ (splitRun keywords text).1, ¬ Text.isBlank c := by
  induction text with
  | nil => simp [splitRun]
  | cons c cs ih =>
    rw [splitRun]
    split
    · simp
    · next stops =>
      rw [Bool.not_eq_true, Bool.or_eq_false_iff] at stops
      exact List.forall_mem_cons.2 ⟨by simp [stops.1], ih⟩

theorem plain_of_splitRun {keywords : μ} {text past ahead : List Char}
    (h : (splitRun keywords text).1 = past ++ ahead) (nonempty : ahead ≠ []) :
    KeywordMap.startsKeyword keywords (ahead ++ (splitRun keywords text).2) = false := by
  induction text generalizing past with
  | nil => simp_all [splitRun]
  | cons c cs ih =>
    rw [splitRun] at h ⊢
    split at h
    · simp_all
    · next stops =>
      rw [if_neg stops]
      cases past with
      | nil =>
        have hahead : c :: (splitRun keywords cs).1 = ahead := h
        subst hahead
        rw [Bool.not_eq_true, Bool.or_eq_false_iff] at stops
        rw [List.cons_append, splitRun_append]
        exact stops.2
      | cons d past => exact ih (List.cons.inj h).2

theorem ends_of_splitRun {keywords : μ} {text cs : List Char} {c : Char}
    (h : (splitRun keywords text).2 = c :: cs) :
    Text.isBlank c ∨ KeywordMap.startsKeyword keywords (c :: cs) := by
  induction text with
  | nil => simp [splitRun] at h
  | cons d ds ih =>
    rw [splitRun] at h
    split at h
    · next stops =>
      obtain ⟨rfl, rfl⟩ := List.cons.inj h
      simpa using stops
    · exact ih h

theorem run?_spans {keywords : μ} {front gap rest : List Char} (skipped : Skipped gap rest)
    {lexeme : Lexeme} (read : (behind (front ++ gap) rest).run? keywords = some lexeme) :
    Lexeme.Spans keywords front (gap ++ rest) lexeme := by
  have parts := splitRun_append keywords rest
  have solid := @solid_of_mem_splitRun _ _ keywords rest
  have plain := @plain_of_splitRun _ _ keywords rest
  have ends := @ends_of_splitRun _ _ keywords rest
  unfold run? at read
  rw [behind_rest] at read
  split at read
  · simp at read
  · next value back nonempty hrun =>
    rw [hrun] at parts solid plain ends
    obtain rfl := Option.some.inj read
    subst parts
    have spelled : Spelled keywords (.behind (front ++ gap)) []
        (.literal value .run (.behind (front ++ gap))) [] back := by
      refine .run nonempty (fun _ _ ↦ plain) solid fun c cs hback ↦ ?_
      rw [hback]
      exact ends hback
    simpa [Token.literal] using
      spans_of_spelled (by simp [Token.literal]) skipped (by simp) spelled

theorem lexeme?_spans {keywords : μ} {front gap rest : List Char} (skipped : Skipped gap rest)
    {lexeme : Lexeme} (read : (behind (front ++ gap) rest).lexeme? keywords = some lexeme) :
    Lexeme.Spans keywords front (gap ++ rest) lexeme := by
  simp only [lexeme?, Option.orElse_eq_orElse, Option.orElse_eq_or, Option.or_eq_some_iff,
    keyword?_eq_none_iff, behind_rest] at read
  rcases read with read | ⟨plain, read | ⟨-, read | ⟨-, read⟩⟩⟩
  · exact keyword?_spans skipped read
  · exact numeral?_spans skipped plain read
  · exact quotation?_spans skipped plain read
  · exact run?_spans skipped read

theorem lexeme?_nil (keywords : μ) {cursor : Cursor} (h : cursor.rest = []) :
    cursor.lexeme? keywords = none := by
  have plain : cursor.keyword? keywords = none := by
    rw [keyword?_eq_none_iff, h]
    rintro ⟨value, back, -, htext, nonempty, -⟩
    exact nonempty (List.append_eq_nil_iff.1 htext.symm).1
  simp [lexeme?, plain, h, numeral?, numeral, quotation?, startsWith, run?, splitRun]

theorem rowBreak?_spans (keywords : μ) {front rest : List Char} {lexeme : Lexeme}
    (read : (behind front rest).rowBreak? = some lexeme) :
    Lexeme.Spans keywords front rest lexeme := by
  have parts := List.takeWhile_append_dropWhile (p := Text.isBlank) (l := rest)
  unfold rowBreak? at read
  rw [skip_behind] at read
  dsimp only at read
  split at read
  · simp at read
  · next stays =>
    obtain rfl := Option.some.inj read
    rw [Bool.not_eq_true, Bool.or_eq_false_iff, List.isEmpty_eq_false_iff, behind_rest,
      decide_eq_false_iff_not, Nat.not_lt] at stays
    obtain ⟨c, cs, hrest⟩ := List.exists_cons_of_ne_nil stays.1
    let blank := rest.takeWhile Text.isBlank
    have stands : Segment.Stands keywords front none ⟨[], [], ⟨String.ofList blank,
        AsciiMath.rowBreak, .alignMark, false, none, .behind front⟩, []⟩ (c :: cs) :=
      .rowBreak (fun c ↦ Text.of_mem_takeWhile) stays.2
        (by simp [Text.eq_false_of_dropWhile hrest])
    have spans := Lexeme.Spans.alone rfl stands
    rw [hrest] at parts
    simpa [Segment.text, blank, parts, hrest] using spans

theorem skipped_of_rowBreak? {front rest : List Char}
    (unbroken : (behind front rest).rowBreak? = none) (more : rest.dropWhile Text.isBlank ≠ []) :
    Skipped (rest.takeWhile Text.isBlank) (rest.dropWhile Text.isBlank) := by
  refine ⟨fun c ↦ Text.of_mem_takeWhile, ?_, fun c cs hrest ↦ ?_⟩
  · by_contra broken
    simp [rowBreak?, more, broken] at unbroken
  · simp [Text.eq_false_of_dropWhile hrest]

/-- Where a lexeme is read more is left than blanks. -/
theorem dropWhile_of_attempt {keywords : μ} {cursor : Cursor} {lexeme : Lexeme}
    (read : (cursor.attempt keywords).1 = some lexeme) :
    cursor.rest.dropWhile Text.isBlank ≠ [] := by
  intro empty
  have left : (cursor.skip Text.isBlank).rest = [] := empty
  have unbroken : cursor.rowBreak? = none := by simp [rowBreak?, left]
  rw [attempt, unbroken] at read
  simp [lexeme?_nil keywords left] at read

/-- What an attempt reads is made of the segments at its place. -/
theorem attempt_spans {keywords : μ} {front rest : List Char} {lexeme : Lexeme}
    (read : ((behind front rest).attempt keywords).1 = some lexeme) :
    Lexeme.Spans keywords front rest lexeme := by
  have more : rest.dropWhile Text.isBlank ≠ [] := dropWhile_of_attempt read
  unfold attempt at read
  cases hbreak : (behind front rest).rowBreak? with
  | some broken =>
    rw [hbreak] at read
    obtain rfl := Option.some.inj read
    exact rowBreak?_spans keywords hbreak
  | none =>
    rw [hbreak, skip_behind] at read
    have spans := lexeme?_spans (skipped_of_rowBreak? hbreak more) read
    rwa [List.takeWhile_append_dropWhile] at spans

end Cursor

end AsciiMath
