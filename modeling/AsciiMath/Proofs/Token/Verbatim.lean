import AsciiMath.Proofs.Keyword.Longest
import AsciiMath.Proofs.Token.Lookup
import AsciiMath.Proofs.Token.Munch

/-!
# Arguments are read as they stand

A text in parentheses is taken whole by a keyword before it if its own parentheses are balanced, and
a text in double quotes if it has none itself. Nothing inside is looked at: the keyword and the text
are all the tokens there are.
-/

namespace AsciiMath

/-- Each closing parenthesis has an opening one before it, and none is left open. -/
structure Balanced (text : List Char) : Prop where
  front : ∀ front, front <+: text → front.count ')' ≤ front.count '('
  whole : text.count '(' = text.count ')'

namespace Cursor

/-- The parenthesis that closes a group comes right behind a text that closes all others. -/
theorem splitGroup_of_count {depth : Nat} {text : List Char} (back : List Char)
    (fronts : ∀ front, front <+: text → front.count ')' ≤ front.count '(' + depth)
    (whole : text.count '(' + depth = text.count ')') :
    splitGroup depth (text ++ ')' :: back) = (text, ')' :: back) := by
  -- Each parenthesis changes the depth at which the text behind it is read.
  induction text generalizing depth with
  | nil =>
    obtain rfl : depth = 0 := by simpa using whole
    simp [splitGroup]
  | cons c cs ih =>
    have front (front : List Char) (h : front <+: cs) :=
      fronts (c :: front) (List.cons_prefix_cons.2 ⟨rfl, h⟩)
    rw [List.cons_append]
    unfold splitGroup
    by_cases closes : c = ')'
    · subst closes
      have here : 1 ≤ depth := by simpa using front [] List.nil_prefix
      obtain ⟨depth, rfl⟩ := Nat.exists_eq_add_of_le' here
      simp only [List.count_cons_self, List.count_cons_of_ne, ne_eq, Char.reduceEq,
        not_false_eq_true] at front whole
      have inside := @ih depth (fun part h ↦ by have := front part h; omega) (by omega)
      simp [inside]
    by_cases opens : c = '('
    · subst opens
      simp only [List.count_cons_self, List.count_cons_of_ne, ne_eq, Char.reduceEq,
        not_false_eq_true] at front whole
      have inside := @ih (depth + 1) (fun part h ↦ by have := front part h; omega) (by omega)
      simp [inside]
    · simp only [List.count_cons_of_ne closes, List.count_cons_of_ne opens] at front whole
      simp [closes, opens, ih front whole]

/-- A flag takes the text inside of delimiters, wherever they stand, and leaves what is behind. -/
def Takes (flag : Flag) (rest inside back : List Char) : Prop :=
  ∀ position,
    (∃ place, ((⟨rest, position⟩ : Cursor).argument flag).1 =
      some (.literal inside .text place)) ∧
    ((⟨rest, position⟩ : Cursor).argument flag).2.rest = back

theorem quotation_of_unquoted {text : List Char} (unquoted : '\x22' ∉ text) (back : List Char)
    (position : Position) :
    let cursor : Cursor := ⟨'\x22' :: (text ++ '\x22' :: back), position⟩
    cursor.quotation.1 = text ∧ cursor.quotation.2.rest = back := by
  have inner : ∀ c ∈ text, c != '\x22' := fun c mem ↦
    bne_iff_ne.2 (ne_of_mem_of_not_mem mem unquoted)
  have closes : ∀ c ∈ ('\x22' :: back).head?, ¬ c != '\x22' := by simp
  constructor
  · exact (Text.span_of_parts inner closes).1
  · simp only [quotation, step, between, skip_of_parts inner closes]

section

variable {gap : List Char} (inline : ∀ c ∈ gap, Text.isInlineBlank c) {text : List Char}
  (back : List Char)

include inline

theorem takes_of_balanced (balanced : Balanced text) :
    Takes .rawText (gap ++ '(' :: (text ++ ')' :: back)) text back := by
  intro position
  have group : splitGroup 0 (text ++ ')' :: back) = _ :=
    splitGroup_of_count back balanced.front balanced.whole
  have opens : ∀ c ∈ ('(' :: (text ++ ')' :: back)).head?, ¬ Text.isInlineBlank c := by
    rintro c ⟨⟩
    decide
  simp only [argument, rawText, skip_of_parts inline opens, startsWith, step, between, group]
  exact ⟨⟨_, rfl⟩, rfl⟩

theorem takes_of_unquoted (unquoted : '\x22' ∉ text) {flag : Flag}
    (quoted : flag ∈ [.texLiteral, .lengthLiteral]) :
    Takes flag (gap ++ '\x22' :: (text ++ '\x22' :: back)) text back := by
  intro position
  obtain ⟨inside, after⟩ := quotation_of_unquoted unquoted back (position.after gap)
  have opens : ∀ c ∈ ('\x22' :: (text ++ '\x22' :: back)).head?, ¬ Text.isInlineBlank c := by
    rintro c ⟨⟩
    decide
  have argument_eq (cursor : Cursor) : cursor.argument flag = cursor.quotedLiteral.map some id := by
    rcases List.mem_pair.1 quoted with rfl | rfl <;> rfl
  rw [argument_eq, quotedLiteral, skip_of_parts inline opens]
  simp only [startsWith, List.mem_singleton, decide_true, if_true]
  exact ⟨⟨position.after gap, by rw [inside]; rfl⟩, after⟩

end

variable {μ : Type} [KeywordMap μ Symbol] {keywords : μ}

theorem lexeme?_of_keyword {cursor : Cursor} {value back : List Char} {symbol : Symbol}
    (hrest : cursor.rest = value ++ back) (nonempty : value ≠ [])
    (found : KeywordMap.longest? keywords (value ++ back) =
      some (Text.byteLength value, symbol)) :
    cursor.lexeme? keywords = some (cursor.keywordLexeme ((value, back), symbol)) := by
  obtain ⟨length, hlength⟩ :=
    Nat.exists_eq_succ_of_ne_zero (Nat.ne_of_gt (Text.byteLength_pos nonempty))
  have split := Text.splitBytes?_append value back
  have here : KeywordMap.keywordAt? keywords cursor.rest = some ((value, back), symbol) := by
    rw [hlength] at found split
    rw [KeywordMap.keywordAt?, hrest, found]
    exact congrArg (Option.map (·, symbol)) split
  rw [lexeme?, keyword?_eq_map, here]
  rfl

theorem keywordLexeme_of_flag {cursor : Cursor} {value back : List Char} {symbol : Symbol}
    {flag : Flag} (asks : symbol.flag = some flag) :
    cursor.keywordLexeme ((value, back), symbol) =
      ⟨⟨String.ofList value, symbol.template, symbol.category, true, some flag, cursor.position⟩,
        ((cursor.between value back).argument flag).1,
        ((cursor.between value back).argument flag).2⟩ := by
  simp only [keywordLexeme, asks]

end Cursor

variable {μ : Type} [KeywordMap μ Symbol] {keywords : μ} (fits : KeywordMap.Fits keywords)

include fits

/-- One lexeme takes the whole text. -/
theorem tokenize_of_lexeme {text : List Char} {lexeme : Cursor.Lexeme}
    (read : ((Cursor.ofText text).attempt keywords).1 = some lexeme)
    (after : lexeme.after.rest = []) :
    tokenize keywords (String.ofList text) = .ok (lexeme.token :: lexeme.argument.toList) := by
  rw [← String.toList_ofList (l := text)] at read
  refine Scanner.Yields.tokenize_eq fits (.token (Scanner.next_of_attempt fits rfl read) ?_)
  cases hargument : lexeme.argument with
  | none => exact .of_blank fits rfl (by simp [after])
  | some token => exact .token (Scanner.next_of_pending rfl) (.of_blank fits rfl (by simp [after]))

/-- A keyword with an argument that goes on to the end of the text. -/
theorem tokenize_argument {keyword rest inside : List Char} {symbol : Symbol} {flag : Flag}
    (nonempty : keyword ≠ []) (solid : ∀ c ∈ keyword.head?, ¬ Text.isBlank c)
    (found : KeywordMap.longest? keywords (keyword ++ rest) =
      some (Text.byteLength keyword, symbol)) (asks : symbol.flag = some flag)
    (takes : Cursor.Takes flag rest inside []) :
    ∃ place, tokenize keywords (String.ofList (keyword ++ rest)) =
      .ok [⟨String.ofList keyword, symbol.template, symbol.category, true, some flag, .start⟩,
        .literal inside .text place] := by
  obtain ⟨⟨place, argument⟩, last⟩ := takes (Position.start.after keyword)
  have solid' : ∀ c ∈ (keyword ++ rest).head?, ¬ Text.isBlank c := by
    rwa [List.head?_append_of_ne_nil keyword nonempty]
  have read : ((Cursor.ofText (keyword ++ rest)).attempt keywords).1 =
      some ((Cursor.ofText (keyword ++ rest)).keywordLexeme ((keyword, rest), symbol)) := by
    rw [Cursor.attempt_of_solid keywords solid', Cursor.lexeme?_of_keyword rfl nonempty found]
  rw [Cursor.keywordLexeme_of_flag asks] at read
  have scanned := tokenize_of_lexeme fits read last
  rw [Cursor.between, Cursor.ofText, argument] at scanned
  exact ⟨place, scanned⟩

/-- A text in quotes, where no keyword starts at the first of them. -/
theorem tokenize_quotation {text : List Char} (unquoted : '\x22' ∉ text)
    (plain : KeywordMap.startsKeyword keywords ('\x22' :: (text ++ ['\x22'])) = false) :
    tokenize keywords (String.ofList ('\x22' :: (text ++ ['\x22']))) =
      .ok [⟨String.ofList text, "\\text\x7b" ++ String.ofList text ++ "\x7d", .text, false, none,
        .start⟩] := by
  let cursor := Cursor.ofText ('\x22' :: (text ++ ['\x22']))
  obtain ⟨inside, after⟩ := Cursor.quotation_of_unquoted unquoted [] .start
  have unfound : cursor.keyword? keywords = none := by
    rw [Cursor.keyword?_eq_none_iff, offers_iff fits]
    exact Bool.not_eq_true _ ▸ plain
  have uncounted : cursor.numeral? = none := rfl
  have quoted : cursor.quotation? = some ⟨⟨String.ofList cursor.quotation.1,
      "\\text\x7b" ++ String.ofList cursor.quotation.1 ++ "\x7d", .text, false, none, .start⟩, none,
      cursor.quotation.2⟩ := rfl
  have read : (cursor.attempt keywords).1 = cursor.quotation? := by
    rw [Cursor.attempt_of_solid keywords (by rintro c ⟨⟩; decide), Cursor.lexeme?, unfound,
      uncounted, quoted]
    rfl
  rw [quoted] at read
  have scanned := tokenize_of_lexeme fits read after
  rwa [show cursor.quotation.1 = text from inside] at scanned

end AsciiMath
