import AsciiMath.Proofs.Engine.Alignment
import AsciiMath.Proofs.Formula.Lookahead
import AsciiMath.Proofs.Token.Munch
import Mathlib.Data.List.Infix

/-!
# Plain text passes through

A text in which no keyword stands, no quote and no blank line is split into numbers and runs. Each
of them is a leaf that is written as it stands, with single spaces in between. So the standard
engine changes nothing but blanks.
-/

namespace AsciiMath

/-- No keyword, no quote and no blank line stands anywhere in the text. -/
structure PlainText (table : SymbolTable) (text : List Char) : Prop where
  keywords : ∀ keyword, (table.get? keyword).isSome → keyword ≠ "" → ¬ keyword.toList <:+: text
  quotes : '\x22' ∉ text
  lines : ∀ run back, back <:+ text → ¬ BlankLine run back

theorem BlankLine.newlines {run text : List Char} (line : BlankLine run text) :
    2 ≤ (text.takeWhile Text.isBlank).count '\n' ∧ text.dropWhile Text.isBlank ≠ [] := by
  rw [← line.eq_takeWhile]
  obtain ⟨c, cs, rfl, -, solid, broken⟩ := line
  refine ⟨broken, fun nothing ↦ solid ?_⟩
  exact List.dropWhile_eq_nil_iff.1 nothing c (by simp)

theorem PlainText.of_suffix {table : SymbolTable} {text back : List Char}
    (plain : PlainText table text) (h : back <:+ text) : PlainText table back where
  keywords keyword known nonempty within :=
    plain.keywords keyword known nonempty (within.trans h.isInfix)
  quotes quote := plain.quotes (h.subset quote)
  lines run back hback := plain.lines run back (hback.trans h)

theorem PlainText.not_startsKeyword {table : SymbolTable} {text value : List Char}
    (plain : PlainText table text) (within : value <:+: text) :
    KeywordMap.startsKeyword table value = false := by
  rw [← Bool.not_eq_true, ← offers_iff table.fits]
  rintro ⟨front, back, symbol, rfl, nonempty, found⟩
  have known := SymbolTable.get?_of_longest? found
  have start : front <:+: text := (List.prefix_append front back).isInfix.trans within
  exact plain.keywords (String.ofList front) (by rw [known]; rfl) (by simpa using nonempty)
    (by simpa using start)

/-- A number or a run, written as it stands. -/
structure Token.IsWord (token : Token) : Prop where
  keyword : token.keyword = false
  category : token.category ∈ [.number, .run]
  flag : token.flag = none
  template : token.template = token.value
  nonempty : token.value ≠ ""

theorem Token.isWord_literal {value : List Char} (nonempty : value ≠ []) {category : Category}
    (h : category ∈ [.number, .run]) (position : Position) :
    (literal value category position).IsWord :=
  ⟨rfl, h, rfl, rfl, by simpa [literal] using nonempty⟩

theorem Token.IsWord.leaf {token : Token} (word : token.IsWord) :
    token.category.isLeaf ∧ token.flag ≠ some .rowRule := by
  have category := word.category
  simp only [List.mem_cons, List.not_mem_nil, or_false] at category
  rw [word.flag]
  rcases category with category | category <;> simp [category, Category.isLeaf]

/-- A word behind blanks. -/
structure Segment.Plain (segment : Segment) : Prop where
  gap_blank : ∀ c ∈ segment.gap, Text.isBlank c
  word : segment.token.IsWord
  text_eq : segment.text = segment.gap ++ segment.token.value.toList

theorem Segment.Stands.plain {table : SymbolTable} {front back : List Char} {segment : Segment}
    (stands : segment.Stands table front none back)
    (plain : PlainText table (segment.text ++ back)) : segment.Plain := by
  cases stands with
  | @rowBreak blank c cs isBlank broken solid =>
    refine absurd ?_ (plain.lines blank _ (List.suffix_refl _))
    exact ⟨c, cs, by simp [text], isBlank, solid, broken⟩
  | @lexeme gap opening closing back token skipped spelled =>
    cases spelled with
    | @keyword value back symbol nonempty found =>
      have known := SymbolTable.get?_of_longest? found
      have here : (String.ofList value).toList <:+: gap ++ value ++ back :=
        ⟨gap, back, by rw [String.toList_ofList]⟩
      rw [text, List.append_nil, List.append_nil, String.toList_ofList] at plain
      exact absurd here (plain.keywords _ (by rw [known]; rfl) (by simpa using nonempty))
    | number _ numeral =>
      exact ⟨skipped.blank, Token.isWord_literal numeral.ne_nil (by simp) _,
        by simp [text, Token.literal]⟩
    | quotation => exact absurd (by simp [text]) plain.quotes
    | run nonempty =>
      exact ⟨skipped.blank, Token.isWord_literal nonempty (by simp) _,
        by simp [text, Token.literal]⟩

theorem Laid.plain {table : SymbolTable} {front text : List Char} {segments : List Segment}
    (laid : Laid table front none segments text) (plain : PlainText table text) :
    ∀ segment ∈ segments, segment.Plain := by
  -- No word asks for an argument, so there is none behind it.
  generalize hasking : none = asking at laid
  induction laid with
  | nil => simp
  | @cons front back asking segment segments stands more ih =>
    subst hasking
    have here := stands.plain plain
    have behind := plain.of_suffix (List.suffix_append segment.text back)
    have asks := Token.asks_of_plain here.word.keyword
    exact List.forall_mem_cons.2 ⟨here, ih behind asks.symm⟩

namespace Formula

theorem joinShown_eq {parts : List String} (h : ∀ part ∈ parts, part ≠ "") :
    joinShown parts = " ".intercalate parts := by
  rw [joinShown, List.filter_eq_self.2 fun part mem ↦ bne_iff_ne.2 (h part mem)]

/-- Words are joined as they stand where none of them is an alignment point. -/
theorem tex_words {tokens : List Token} (words : ∀ token ∈ tokens, token.IsWord)
    (points : ∀ token ∈ tokens, ¬ (ofToken token).isAlignPoint) :
    (root (tokens.map ofToken)).tex = " ".intercalate (tokens.map Token.value) := by
  have shown : (tokens.map ofToken).map tex = tokens.map Token.value := by
    rw [List.map_map]
    exact List.map_congr_left fun token mem ↦ (words token mem).template
  have nonempty : ∀ part ∈ tokens.map Token.value, part ≠ "" := by
    intro part mem
    obtain ⟨token, htoken, rfl⟩ := List.mem_map.1 mem
    exact (words token htoken).nonempty
  have unaligned : (tokens.map ofToken).any isAlignPoint = false := by
    simpa using points
  rw [tex, unaligned, texOfList_eq_map, shown, joinShown_eq nonempty]
  rfl

end Formula

open Formula

theorem Token.IsWord.not_isAlignPoint {table : SymbolTable}
    (built : SymbolTable.standard = .ok table) {token : Token} (word : token.IsWord)
    (plain : KeywordMap.startsKeyword table token.value.toList = false) :
    ¬ (ofToken token).isAlignPoint := by
  rw [← List.append_nil token.value.toList] at plain
  have value := not_isAlignPoint_of_not_startsKeyword built plain token.value
  rwa [String.ofList_toList, ← word.template] at value

theorem Text.filter_intercalate {p : Char → Bool} {separator : List Char}
    (h : separator.filter p = []) (parts : List (List Char)) :
    (separator.intercalate parts).filter p = parts.flatten.filter p := by
  induction parts with
  | nil => rfl
  | cons part parts ih =>
    cases parts with
    | nil => simp
    | cons next parts => simp [List.intercalate_cons_cons, ih, h]

/-- All that words leave of a text is blank. -/
theorem Segment.filter_textOf {segments : List Segment}
    (each : ∀ segment ∈ segments, segment.Plain) :
    (textOf segments).filter (!Text.isBlank ·) =
      (segments.map (·.token.value.toList)).flatten.filter (!Text.isBlank ·) := by
  induction segments with
  | nil => rfl
  | cons segment segments ih =>
    obtain ⟨here, more⟩ := List.forall_mem_cons.1 each
    have gap : segment.gap.filter (!Text.isBlank ·) = [] :=
      List.filter_eq_nil_iff.2 fun c mem ↦ by simp [here.gap_blank c mem]
    simp [here.text_eq, gap, ih more]

/-- Plain text loses nothing but blanks, and gains nothing but single spaces. -/
theorem convert_plainText (input : String) :
    ∃ engine tokens, Engine.standard = .ok engine ∧ tokenize engine.symbols input = .ok tokens ∧
      (PlainText engine.symbols input.toList →
        convert input = " ".intercalate (tokens.map Token.value) ∧
        (convert input).toList.filter (!Text.isBlank ·) =
          input.toList.filter (!Text.isBlank ·)) := by
  obtain ⟨table, built⟩ := SymbolTable.ofEntries_eq_ok Standard.symbols
  obtain ⟨segments, scanned, laid⟩ := tokenize_laid table.fits input
  refine ⟨_, _, Engine.standard_eq built, scanned, fun plain ↦ ?_⟩
  have each := laid.plain plain
  obtain ⟨trailing, htext, blank⟩ := laid.trailing
  have words : ∀ token ∈ segments.map Segment.token, token.IsWord := by
    intro token mem
    obtain ⟨segment, hsegment, rfl⟩ := List.mem_map.1 mem
    exact (each segment hsegment).word
  have points : ∀ token ∈ segments.map Segment.token, ¬ (ofToken token).isAlignPoint := by
    intro token mem
    obtain ⟨segment, hsegment, rfl⟩ := List.mem_map.1 mem
    obtain ⟨before, after, rfl⟩ := List.append_of_mem hsegment
    refine (words _ mem).not_isAlignPoint built (plain.not_startsKeyword ?_)
    refine ⟨Segment.textOf before ++ segment.gap, Segment.textOf after ++ trailing, ?_⟩
    simp [htext, (each segment hsegment).text_eq]
  have joined : convert input =
      " ".intercalate ((segments.map Segment.token).map Token.value) := by
    rw [convert_eq built scanned, ofTokens_leaves fun token mem ↦ (words token mem).leaf]
    exact tex_words words points
  refine ⟨joined, ?_⟩
  have space : " ".toList.filter (!Text.isBlank ·) = [] := by decide
  have behind : trailing.filter (!Text.isBlank ·) = [] :=
    List.filter_eq_nil_iff.2 fun c mem ↦ by simp [blank c mem]
  rw [joined, String.toList_intercalate, Text.filter_intercalate space, htext, List.filter_append,
    behind, List.append_nil, Segment.filter_textOf each, List.map_map, List.map_map]
  rfl

/-- The words of a text with numbers, a blank other than a space, a line end, and a blank line at
its end. -/
def plainWords : List Token :=
  [.literal ['1', '.', '2'] .number ⟨1, 1⟩, .literal ['.', '3'] .number ⟨1, 4⟩,
    .literal ['x'] .run ⟨1, 6⟩, .literal ['Z', 'é'] .run ⟨1, 8⟩,
    .literal ['.', '5'] .number ⟨2, 1⟩]

theorem tokenize_plainWords :
    tokenize Standard.table "1.2.3x\u00a0Zé\n.5 \n\n" = .ok plainWords := by
  decide +kernel

theorem convert_plainText_lines : ∃ engine, Engine.standard = .ok engine ∧
    tokenize engine.symbols "1.2.3x\u00a0Zé\n.5 \n\n" = .ok plainWords ∧
    PlainText engine.symbols "1.2.3x\u00a0Zé\n.5 \n\n".toList ∧
    convert "1.2.3x\u00a0Zé\n.5 \n\n" = "1.2 .3 x Zé .5" ∧
    (convert "1.2.3x\u00a0Zé\n.5 \n\n").toList.filter (!Text.isBlank ·) =
      "1.2.3x\u00a0Zé\n.5 \n\n".toList.filter (!Text.isBlank ·) := by
  obtain ⟨engine, tokens, standard, scanned, passes⟩ :=
    convert_plainText "1.2.3x\u00a0Zé\n.5 \n\n"
  obtain ⟨table, built⟩ := SymbolTable.ofEntries_eq_ok Standard.symbols
  obtain rfl := Except.ok.inj (standard.symm.trans (Engine.standard_eq built))
  have words := scanned
  rw [tokenize_standard built, tokenize_plainWords] at words
  obtain rfl := Except.ok.inj words
  have absent : ∀ entry ∈ Standard.symbols, entry.1 ≠ "" →
      ¬ entry.1.toList <:+: "1.2.3x\u00a0Zé\n.5 \n\n".toList := by
    decide +kernel
  have unbroken : ∀ back ∈ "1.2.3x\u00a0Zé\n.5 \n\n".toList.tails,
      ¬ (2 ≤ (back.takeWhile Text.isBlank).count '\n' ∧ back.dropWhile Text.isBlank ≠ []) := by
    decide +kernel
  have plain : PlainText table "1.2.3x\u00a0Zé\n.5 \n\n".toList := by
    refine ⟨fun keyword known ↦ ?_, by decide, fun run back hback line ↦ ?_⟩
    · obtain ⟨symbol, found⟩ := Option.isSome_iff_exists.1 known
      exact absent _ (SymbolTable.mem_of_get? built found)
    · exact unbroken back ((List.mem_tails back _).2 hback) (line.newlines)
  obtain ⟨joined, kept⟩ := passes plain
  exact ⟨_, standard, scanned, plain, joined.trans (by decide +kernel), kept⟩

end AsciiMath
