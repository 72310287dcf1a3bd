import AsciiMath.Proofs.Token.Inset

/-!
# Lines are scanned one by one

If no keyword has a line end in it, the tokens of a text in two parts are those of the first part
and then those of the second, as many lines further down as the first part has. A quotation or an
argument that the first part leaves open would go on in the second one. A keyword that ends its
line takes an empty argument there.
-/

namespace AsciiMath

/-- A quotation, or an argument in quotes or parentheses, is not closed in the text. -/
inductive LeavesOpen (text : List Char) : List Token → Prop where
  | quotation {token : Token} {tokens : List Token} (quoted : token.IsQuotation)
      (runs : token.RunsOut text) : LeavesOpen text (token :: tokens)
  /-- The brackets around the name of a color need not be closed. -/
  | argument {keyword token : Token} {flag : Flag} {tokens : List Token}
      (asks : keyword.asks = some flag) (other : flag ≠ .colorSpec)
      (runs : token.RunsOut text) : LeavesOpen text (keyword :: token :: tokens)
  | later {token : Token} {tokens : List Token} (h : LeavesOpen text tokens) :
      LeavesOpen text (token :: tokens)

theorem LeavesOpen.append {text : List Char} {tokens : List Token} (h : LeavesOpen text tokens)
    (others : List Token) : LeavesOpen text (tokens ++ others) := by
  induction h with
  | quotation quoted runs => exact .quotation quoted runs
  | argument asks other runs => exact .argument asks other runs
  | later _ ih => exact .later ih

/-- What is left open makes up the end of the text. -/
theorem LeavesOpen.exists_suffix {text : List Char} {tokens : List Token}
    (h : LeavesOpen text tokens) :
    ∃ token ∈ tokens, '\x22' :: token.value.toList <:+ text ∨
      '(' :: token.value.toList <:+ text := by
  have suffix {token : Token} (runs : token.RunsOut text) :
      '\x22' :: token.value.toList <:+ text ∨ '(' :: token.value.toList <:+ text := by
    obtain ⟨front, opening, mem, -, rfl⟩ := runs
    rcases List.mem_pair.1 mem with rfl | rfl
    · exact .inl (List.suffix_append front _)
    · exact .inr (List.suffix_append front _)
  induction h with
  | quotation _ runs => exact ⟨_, List.mem_cons_self, suffix runs⟩
  | argument _ _ runs => exact ⟨_, by simp, suffix runs⟩
  | later _ ih =>
    obtain ⟨token, mem, found⟩ := ih
    exact ⟨token, List.mem_cons_of_mem _ mem, found⟩

variable {μ : Type} [KeywordMap μ Symbol] {keywords : μ} {lines : Nat} {below : List Char}

namespace Cursor

def Lexeme.tokens (lexeme : Lexeme) : List Token := lexeme.token :: lexeme.argument.toList

/-- A keyword with an argument asks for it. -/
theorem keywordLexeme_asks {cursor : Cursor} {parts : List Char × List Char} {symbol : Symbol}
    {flag : Flag} {token : Token} (hflag : symbol.flag = some flag)
    (h : token ∈ (cursor.keywordLexeme (parts, symbol)).argument) :
    (cursor.keywordLexeme (parts, symbol)).token.asks = some flag := by
  unfold keywordLexeme at h ⊢
  simp only [hflag] at h ⊢
  have plain := (argument_eq_some h).1
  simp [Token.asks, plain]

theorem isQuotation_of_quotation? {cursor : Cursor} {lexeme : Lexeme}
    (read : cursor.quotation? = some lexeme) : lexeme.token.IsQuotation := by
  unfold quotation? at read
  split at read
  · obtain rfl := Option.some.inj read
    exact ⟨rfl, rfl, rfl⟩
  · cases read

variable (ends : EndsLine below) (inline : KeywordMap.Inline keywords)
  (fits : KeywordMap.Fits keywords) {front rest : List Char} {lexeme : Lexeme}
  (closed : LeavesOpen (front ++ rest) lexeme.tokens → below = [])

include ends inline fits closed

theorem keyword?_inset (read : (behind front rest).keyword? keywords = some lexeme) :
    ((behind front rest).inset lines below).keyword? keywords =
      some (lexeme.inset lines below) := by
  rw [keyword?_eq_map] at read ⊢
  obtain ⟨⟨⟨value, back⟩, symbol⟩, found, rfl⟩ := Option.map_eq_some_iff.1 read
  have parts : value ++ back = rest := append_of_keywordAt? found
  rw [inset_rest, keywordAt?_inset ends inline fits, found]
  refine congrArg some (keywordLexeme_inset ends parts fun flag hflag plain token mem runs ↦ ?_)
  refine closed ?_
  have asks := keywordLexeme_asks hflag mem
  rw [Lexeme.tokens, show _ = some token from mem]
  exact .argument asks plain runs

theorem lexeme?_inset (read : (behind front rest).lexeme? keywords = some lexeme) :
    ((behind front rest).inset lines below).lexeme? keywords = some (lexeme.inset lines below) := by
  have unfound (h : (behind front rest).keyword? keywords = none) :
      ((behind front rest).inset lines below).keyword? keywords = none := by
    rw [keyword?_eq_map, Option.map_eq_none_iff] at h ⊢
    rw [inset_rest, keywordAt?_inset ends inline fits, h]
    rfl
  have uncounted (h : (behind front rest).numeral? = none) :
      ((behind front rest).inset lines below).numeral? = none := by
    rw [numeral?_inset ends, h]
    rfl
  simp only [lexeme?, Option.orElse_eq_orElse, Option.orElse_eq_or, Option.or_eq_some_iff] at read ⊢
  rcases read with read | ⟨plain, read | ⟨uncounted', read | ⟨unquoted, read⟩⟩⟩
  · exact .inl (keyword?_inset ends inline fits closed read)
  · refine .inr ⟨unfound plain, .inl ?_⟩
    rw [numeral?_inset ends, read]
    rfl
  · refine .inr ⟨unfound plain, .inr ⟨uncounted uncounted', .inl ?_⟩⟩
    rw [quotation?_inset ends fun other same runs ↦ closed ?_, read]
    · rfl
    · obtain rfl := Option.some.inj (read.symm.trans same)
      exact .quotation (isQuotation_of_quotation? read) runs
  · refine .inr ⟨unfound plain, .inr ⟨uncounted uncounted', .inr ⟨?_, ?_⟩⟩⟩
    · rw [quotation?_inset ends fun other same _ ↦ ?_, unquoted]
      · rfl
      · rw [unquoted] at same
        cases same
    · rw [run?_inset ends inline, read]
      rfl

omit ends inline fits closed in
/-- Blanks before more text end in that text. -/
theorem stops_of_dropWhile {p : Char → Bool} (more : rest.dropWhile p ≠ []) :
    Stops p rest below :=
  fun done ↦ absurd done more

omit ends inline fits closed in
theorem rowBreak?_inset {cursor : Cursor} (more : cursor.rest.dropWhile Text.isBlank ≠ []) :
    (cursor.inset lines below).rowBreak? = cursor.rowBreak?.map (Lexeme.inset lines below) := by
  have stops : Stops Text.isBlank cursor.rest below := stops_of_dropWhile more
  have left : (cursor.skip Text.isBlank).rest.isEmpty = false := List.isEmpty_eq_false_iff.2 more
  have left' : ((cursor.skip Text.isBlank).rest ++ below).isEmpty = false :=
    List.isEmpty_eq_false_iff.2 (List.append_ne_nil_of_left_ne_nil more below)
  unfold rowBreak?
  rw [skip_inset stops]
  dsimp only
  rw [inset_rest, inset_rest, stops.takeWhile_append, left, left']
  split <;> rfl

/-- What is read in a line is read further down, too. -/
theorem attempt_inset (read : ((behind front rest).attempt keywords).1 = some lexeme) :
    (((behind front rest).inset lines below).attempt keywords).1 =
      some (lexeme.inset lines below) := by
  have stops : Stops Text.isBlank (behind front rest).rest below :=
    stops_of_dropWhile (dropWhile_of_attempt read)
  have broken : ((behind front rest).inset lines below).rowBreak? = _ :=
    rowBreak?_inset (dropWhile_of_attempt read)
  unfold attempt at read ⊢
  rw [broken]
  cases hbreak : (behind front rest).rowBreak? with
  | some broken =>
    rw [hbreak] at read
    obtain rfl := Option.some.inj read
    rfl
  | none =>
    rw [hbreak, skip_behind] at read
    rw [Option.map_none, skip_inset stops, skip_behind]
    refine lexeme?_inset ends inline fits ?_ read
    rwa [List.append_assoc, List.takeWhile_append_dropWhile]

omit ends inline fits closed in
/-- A line end before text that is not blank is skipped. -/
theorem attempt_newline (keywords : μ) {text : List Char}
    (solid : ∀ c ∈ text.head?, ¬ Text.isBlank c) (position : Position) :
    (⟨'\n' :: text, position⟩ : Cursor).attempt keywords =
      (⟨text, position.next '\n'⟩ : Cursor).attempt keywords := by
  have newline : ∀ c ∈ ['\n'], Text.isBlank c := List.forall_mem_singleton.2 rfl
  have skipped : (⟨'\n' :: text, position⟩ : Cursor).skip Text.isBlank =
      ⟨text, position.next '\n'⟩ := skip_of_parts newline solid position
  have blank : ('\n' :: text).takeWhile Text.isBlank = ['\n'] :=
    (Text.span_of_parts newline solid).1
  have unbroken : (⟨'\n' :: text, position⟩ : Cursor).rowBreak? = none := by
    simp [rowBreak?, blank]
  rw [attempt, unbroken, skipped, attempt_of_solid keywords solid]

end Cursor

namespace Scanner

/-- Where the same is attempted, the same tokens come. -/
theorem Yields.of_attempt_eq (fits : KeywordMap.Fits keywords) {scanner : Scanner}
    {tokens : List Token} (yields : Yields keywords scanner tokens) {cursor : Cursor}
    (pending : scanner.pending = none)
    (same : cursor.attempt keywords = scanner.cursor.attempt keywords) :
    Yields keywords { scanner with cursor } tokens := by
  have next_eq : Scanner.next keywords { scanner with cursor } = scanner.next keywords := by
    rw [next, next, pending, Cursor.retry_eq fits, Cursor.retry_eq fits, same]
  cases yields with
  | stop last => exact .stop (next_eq.trans last)
  | token first more => exact .token (next_eq.trans first) more

/-- Where only blanks are left of a text, this is what comes from the longer text. -/
def GoesOn (keywords : μ) (text : List Char) (lines : Nat) (below : List Char)
    (others : List Token) : Prop :=
  ∀ passed blank, text = passed ++ blank → (∀ c ∈ blank, Text.isBlank c) →
    ∀ scanner : Scanner, scanner.cursor = (Cursor.behind passed blank).inset lines below →
      scanner.pending = none → Yields keywords scanner others

theorem goesOn_nil (fits : KeywordMap.Fits keywords) (text : List Char) (lines : Nat) :
    GoesOn keywords text lines [] [] := by
  intro passed blank _ isBlank scanner hcursor pending
  exact .of_blank fits pending (by simpa [hcursor] using isBlank)

variable (ends : EndsLine below) (inline : KeywordMap.Inline keywords)
  (fits : KeywordMap.Fits keywords)

include ends inline fits

/-- The tokens of a text come from a longer text as well, further down, and behind them whatever
comes where only blanks are left of the text. -/
theorem Yields.inset {scanner : Scanner} {tokens others : List Token}
    (yields : Yields keywords scanner tokens) {front rest : List Char}
    (place : scanner.cursor = .behind front rest)
    (closed : LeavesOpen (front ++ rest) tokens → below = [])
    (last : GoesOn keywords (front ++ rest) lines below others)
    {other : Scanner} (hcursor : other.cursor = scanner.cursor.inset lines below)
    (hpending : other.pending = scanner.pending.map (Token.moveDown lines)) :
    Yields keywords other (tokens.map (Token.moveDown lines) ++ others) := by
  -- Only where the text comes to its end does the scanner meet what is below.
  induction yields generalizing front rest other with
  | @stop scanner after stopped =>
    have step := calls_next keywords scanner
    rw [stopped] at step
    cases step with
    | last pending _ nothing =>
      rw [place, Cursor.skip_behind, Cursor.behind_rest, List.dropWhile_eq_nil_iff] at nothing
      rw [place] at hcursor
      rw [pending] at hpending
      exact last front rest rfl nothing other hcursor hpending
  | @token scanner after token tokens first more ih =>
    have step := calls_next keywords scanner
    rw [first] at step
    have onward : LeavesOpen (front ++ rest) tokens → below = [] := fun h ↦ closed h.later
    cases step with
    | argument pending =>
      rw [pending] at hpending
      exact .token (next_of_pending hpending) (ih place onward last hcursor rfl)
    | @lexeme lexeme _ pending read =>
      rw [place] at read
      obtain ⟨behind, hbehind, -⟩ := more.lexemes fits
      have whole : LeavesOpen (front ++ rest) lexeme.tokens → below = [] := by
        intro h
        refine closed ?_
        rw [hbehind]
        exact h.append behind
      have found : (((Cursor.behind front rest).inset lines below).attempt keywords).1 = _ :=
        Cursor.attempt_inset ends inline fits whole read
      rw [← place, ← hcursor] at found
      rw [pending] at hpending
      obtain ⟨passed, back, parts, hafter⟩ := (Cursor.attempt_spans read).after
      refine .token (next_of_attempt fits hpending found) (ih hafter ?_ ?_ rfl rfl)
      · rwa [← parts]
      · rwa [← parts]

omit ends in
/-- The tokens of a text come in the line that begins there, further down. -/
theorem Yields.newline {text : List Char} {tokens : List Token}
    (yields : Yields keywords (.ofText text) tokens)
    (solid : ∀ c ∈ text.head?, ¬ Text.isBlank c) {other : Scanner} (pending : other.pending = none)
    {position : Position} (hcursor : other.cursor = ⟨'\n' :: text, position⟩)
    (hposition : position.next '\n' = Position.start.moveDown lines) :
    Yields keywords other (tokens.map (Token.moveDown lines)) := by
  have ends : EndsLine [] := by simp [EndsLine]
  let next : Scanner := { other with cursor := ⟨text, position.next '\n'⟩ }
  have hnext : next.cursor = (ofText text).cursor.inset lines [] := by
    simp [next, hposition, Cursor.inset, ofText, Cursor.ofText]
  have moved := yields.inset ends inline fits (Cursor.ofText_eq_behind text) (fun _ ↦ rfl)
    (goesOn_nil fits text lines) hnext pending
  rw [List.append_nil] at moved
  have same := Cursor.attempt_newline keywords solid position
  rw [← hcursor] at same
  exact moved.of_attempt_eq fits pending same

end Scanner

@[simp] theorem Token.moveDown_zero : Token.moveDown 0 = id := rfl

theorem Position.next_behind_newline (front : List Char) :
    (behind front).next '\n' = start.moveDown (1 + front.count '\n') := by
  simp [next, behind, moveDown, start, Nat.add_comm]

theorem Text.eq_nil_of_blank {passed blank : List Char}
    (ends : ∀ c ∈ (passed ++ blank).getLast?, ¬ isBlank c) (isBlank : ∀ c ∈ blank, isBlank c) :
    blank = [] := by
  by_contra more
  have last := List.getLast?_eq_some_getLast more
  refine ends (blank.getLast more) ?_ (isBlank _ (List.getLast_mem more))
  simp [last]

/-- The lines of a text are scanned one by one, if the first of them leave nothing open. -/
theorem SymbolTable.tokenize_lines (table : SymbolTable)
    (keys : ∀ keyword, (table.get? keyword).isSome → '\n' ∉ keyword.toList) (first second : String)
    (ends : ∀ c ∈ first.toList.getLast?, ¬ Text.isBlank c)
    (starts : ∀ c ∈ second.toList.head?, ¬ Text.isBlank c) :
    ∃ tokens others, tokenize table first = .ok tokens ∧ tokenize table second = .ok others ∧
      (¬ LeavesOpen first.toList tokens → tokenize table (first ++ "\n" ++ second) =
        .ok (tokens ++ others.map (Token.moveDown (1 + first.toList.count '\n')))) := by
  have inline := inline keys
  obtain ⟨tokens, htokens, above, -⟩ := tokenize_eq_ok table.fits first
  obtain ⟨others, hothers, below, -⟩ := tokenize_eq_ok table.fits second
  refine ⟨tokens, others, htokens, hothers, fun closed ↦ Scanner.Yields.tokenize_eq table.fits ?_⟩
  have newline : EndsLine ('\n' :: second.toList) := by
    rintro c ⟨⟩
    rfl
  have line_end : Scanner.GoesOn table first.toList 0 ('\n' :: second.toList)
      (others.map (Token.moveDown (1 + first.toList.count '\n'))) := by
    intro passed blank parts isBlank scanner hcursor pending
    obtain rfl := Text.eq_nil_of_blank (parts ▸ ends) isBlank
    rw [List.append_nil] at parts
    rw [parts]
    exact below.newline inline table.fits starts pending hcursor
      (Position.next_behind_newline passed)
  have start : (Scanner.ofText (first ++ "\n" ++ second).toList).cursor =
      (Scanner.ofText first.toList).cursor.inset 0 ('\n' :: second.toList) := by
    simp [Scanner.ofText, Cursor.ofText, Cursor.inset, Position.moveDown]
  have whole := above.inset newline inline table.fits (Cursor.ofText_eq_behind first.toList)
    (fun h ↦ absurd h closed) line_end start rfl
  simpa using whole

/-- The tokens of a number, a quotation with a line end, and a keyword without its argument. -/
def unargued : List Token :=
  [.literal ['1', '.'] .number ⟨1, 1⟩, ⟨"\n", "\\text\x7b\n\x7d", .text, false, none, ⟨2, 1⟩⟩,
    ⟨"text", "\\text\x7b$1\x7d", .prefixUnary, true, some .rawText, ⟨3, 3⟩⟩,
    .literal [] .text ⟨3, 7⟩]

/-- The keyword at the end of a line does not take the group in the next one. -/
theorem SymbolTable.tokenize_lines_text : ∃ table : SymbolTable,
    SymbolTable.ofEntries [("text", ⟨"\\text\x7b$1\x7d", .prefixUnary, some .rawText⟩)] =
        .ok table ∧
      tokenize table "1.\n\x22\n\x22 text" = .ok unargued ∧
      tokenize table "(y)" = .ok [.literal ['(', 'y', ')'] .run ⟨1, 1⟩] ∧
      ¬ LeavesOpen "1.\n\x22\n\x22 text".toList unargued ∧
      tokenize table ("1.\n\x22\n\x22 text" ++ "\n" ++ "(y)") =
        .ok (unargued ++ [.literal ['(', 'y', ')'] .run ⟨4, 1⟩]) := by
  obtain ⟨table, built⟩ :=
    SymbolTable.ofEntries_eq_ok [("text", ⟨"\\text\x7b$1\x7d", .prefixUnary, some .rawText⟩)]
  have keys : ∀ keyword, (table.get? keyword).isSome → '\n' ∉ keyword.toList := by
    intro keyword known
    obtain ⟨symbol, found⟩ := Option.isSome_iff_exists.1 known
    obtain ⟨rfl, -⟩ := Prod.mk.inj (List.mem_singleton.1 (mem_of_get? built found))
    decide
  obtain ⟨tokens, others, htokens, hothers, lines⟩ :=
    tokenize_lines table keys "1.\n\x22\n\x22 text" "(y)" (by rintro c ⟨⟩; decide)
      (by rintro c ⟨⟩; decide)
  have closed : ¬ LeavesOpen "1.\n\x22\n\x22 text".toList unargued := by
    intro leaves
    obtain ⟨token, mem, opening⟩ := leaves.exists_suffix
    revert token
    decide
  cases built
  obtain rfl : unargued = tokens := Except.ok.inj htokens
  obtain rfl : [_] = others := Except.ok.inj hothers
  exact ⟨_, rfl, htokens, hothers, closed, lines closed⟩

end AsciiMath
