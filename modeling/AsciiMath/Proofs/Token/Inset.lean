import AsciiMath.Proofs.Keyword.Longest
import AsciiMath.Proofs.Token.Layout

/-!
# A line in a longer text

What is read from a line does not depend on the lines around it. Every reader stops at the end of
its line if it has stopped at the end of the text when the line stood alone, except inside of
delimiters that are not closed. So it reads the same further down in a longer text, where all
positions are as many lines further down.
-/

namespace AsciiMath

/-- The text behind a line begins with the end of that line, if there is any. -/
def EndsLine (below : List Char) : Prop := ∀ c ∈ below.head?, c = '\n'

/-- A run of such characters ends before it meets the text behind it. -/
def Stops (p : Char → Bool) (rest below : List Char) : Prop :=
  rest.dropWhile p = [] → ∀ c ∈ below.head?, p c = false

theorem EndsLine.stops {below : List Char} (ends : EndsLine below) {p : Char → Bool}
    (h : p '\n' = false) (rest : List Char) : Stops p rest below :=
  fun _ c hc ↦ ends c hc ▸ h

theorem Stops.takeWhile_append {p : Char → Bool} {rest below : List Char}
    (stops : Stops p rest below) : (rest ++ below).takeWhile p = rest.takeWhile p := by
  induction rest with
  | nil =>
    cases below with
    | nil => rfl
    | cons c cs => simp [stops rfl c rfl]
  | cons c cs ih =>
    by_cases h : p c
    · have more : Stops p cs below := fun done ↦ stops (by simpa [h] using done)
      simp [h, ih more]
    · simp [h]

theorem Stops.dropWhile_append {p : Char → Bool} {rest below : List Char}
    (stops : Stops p rest below) : (rest ++ below).dropWhile p = rest.dropWhile p ++ below := by
  have parts : rest.takeWhile p ++ (rest ++ below).dropWhile p =
      rest.takeWhile p ++ (rest.dropWhile p ++ below) := by
    rw [← stops.takeWhile_append, List.takeWhile_append_dropWhile, stops.takeWhile_append,
      ← List.append_assoc, List.takeWhile_append_dropWhile]
  exact List.append_cancel_left parts

/-- Keywords that are found in a line as if nothing stood behind it. -/
def KeywordMap.Inline {μ α : Type} [KeywordMap μ α] (keywords : μ) : Prop :=
  ∀ line below, EndsLine below → longest? keywords (line ++ below) = longest? keywords line

theorem SymbolTable.inline {table : SymbolTable}
    (keys : ∀ keyword, (table.get? keyword).isSome → '\n' ∉ keyword.toList) :
    KeywordMap.Inline table := by
  intro line below ends
  have longest := table.trie.longest?_isLongestKey
  refine (longest (line ++ below)).unique ((longest line).append fun c cs starts ↦ ?_)
  have newline : c = '\n' := by
    obtain ⟨more, rfl⟩ := starts
    exact ends c rfl
  by_contra known
  refine keys (String.ofList (line ++ c :: cs)) ?_ (by simp [newline])
  rwa [get?, String.toList_ofList, Option.isSome_iff_ne_none]

namespace Position

/-- The same column some lines further down. -/
def moveDown (lines : Nat) (position : Position) : Position :=
  ⟨position.line + lines, position.column⟩

theorem next_moveDown (lines : Nat) (position : Position) (c : Char) :
    (position.moveDown lines).next c = (position.next c).moveDown lines := by
  unfold next moveDown
  split
  · rw [Nat.add_right_comm]
  · rfl

@[simp] theorem after_moveDown (lines : Nat) (position : Position) (text : List Char) :
    (position.moveDown lines).after text = (position.after text).moveDown lines := by
  induction text generalizing position with
  | nil => rfl
  | cons c cs ih =>
    rw [after, List.foldl_cons, next_moveDown]
    exact ih (position.next c)

end Position

def Token.moveDown (lines : Nat) (token : Token) : Token :=
  { token with position := token.position.moveDown lines }

@[simp] theorem Token.moveDown_literal (lines : Nat) (value : List Char) (category : Category)
    (position : Position) : (literal value category position).moveDown lines =
      literal value category (position.moveDown lines) := rfl

/-- A token whose value goes on from an opening delimiter to the end of the text. -/
def Token.RunsOut (text : List Char) (token : Token) : Prop :=
  ∃ front, ∃ opening ∈ ['\x22', '('], token.position = .behind front ∧
    text = front ++ opening :: token.value.toList

namespace Cursor

/-- The cursor in a longer text, behind some lines and with other text behind what it has left. -/
def inset (lines : Nat) (below : List Char) (cursor : Cursor) : Cursor :=
  ⟨cursor.rest ++ below, cursor.position.moveDown lines⟩

def Lexeme.inset (lines : Nat) (below : List Char) (lexeme : Lexeme) : Lexeme where
  token := lexeme.token.moveDown lines
  argument := lexeme.argument.map (Token.moveDown lines)
  after := lexeme.after.inset lines below

variable {lines : Nat} {below : List Char}

@[simp] theorem inset_rest (cursor : Cursor) :
    (cursor.inset lines below).rest = cursor.rest ++ below := rfl

@[simp] theorem inset_position (cursor : Cursor) :
    (cursor.inset lines below).position = cursor.position.moveDown lines := rfl

@[simp] theorem between_inset (cursor : Cursor) (front back : List Char) :
    (cursor.inset lines below).between front (back ++ below) =
      (cursor.between front back).inset lines below := by
  simp [between, inset]

theorem step_inset {cursor : Cursor} (h : cursor.rest = [] → below = []) :
    (cursor.inset lines below).step = cursor.step.inset lines below := by
  cases hrest : cursor.rest with
  | nil => simp [step, inset, hrest, h hrest]
  | cons c cs =>
    simp only [step, inset_rest, hrest, List.cons_append]
    exact between_inset cursor [c] cs

theorem skip_inset {cursor : Cursor} {p : Char → Bool} (stops : Stops p cursor.rest below) :
    (cursor.inset lines below).skip p = (cursor.skip p).inset lines below := by
  rw [skip, inset_rest, stops.takeWhile_append, stops.dropWhile_append]
  exact between_inset cursor _ _

theorem startsWith_inset (ends : EndsLine below) {characters : List Char}
    (other : '\n' ∉ characters) (cursor : Cursor) :
    (cursor.inset lines below).startsWith characters = cursor.startsWith characters := by
  unfold startsWith
  rw [inset_rest]
  cases cursor.rest with
  | cons c cs => rfl
  | nil =>
    cases below with
    | nil => rfl
    | cons c cs => simp [ends c rfl, other]

/-- A group that is closed, or runs to the end of the whole text. -/
theorem splitGroup_inset {depth : Nat} {text : List Char}
    (closed : (splitGroup depth text).2 = [] → below = []) :
    splitGroup depth (text ++ below) =
      ((splitGroup depth text).1, (splitGroup depth text).2 ++ below) := by
  induction text generalizing depth with
  | nil => simp [closed rfl, splitGroup]
  | cons c cs ih =>
    rw [List.cons_append]
    unfold splitGroup at closed ⊢
    split at closed
    · next hc =>
      cases depth with
      | zero => simp [hc]
      | succ depth => simp [hc, ih closed]
    · next hc => simp [hc, ih closed]

/-- A quotation that is closed, or runs to the end of the whole text. -/
theorem quotation_inset {cursor : Cursor} (starts : cursor.startsWith ['\x22'])
    (closed : (cursor.step.skip (· != '\x22')).rest = [] → below = []) :
    (cursor.inset lines below).quotation =
      (cursor.quotation.1, cursor.quotation.2.inset lines below) := by
  have stops : Stops (· != '\x22') cursor.step.rest below := by
    intro done
    simp [closed done]
  have opened : (cursor.inset lines below).step = cursor.step.inset lines below := by
    apply step_inset
    intro empty
    simp [startsWith, empty] at starts
  unfold quotation
  rw [opened]
  dsimp only
  rw [inset_rest, stops.takeWhile_append, skip_inset stops, step_inset closed]

/-- A group in parentheses at the start of a text is closed, or it runs to the end of the whole
text. -/
def GroupCloses (below text : List Char) : Prop :=
  ∀ cs, text = '(' :: cs → (splitGroup 0 cs).2 = [] → below = []

/-- The same for a quotation. -/
def QuotationCloses (below text : List Char) : Prop :=
  ∀ cs, text = '\x22' :: cs → cs.dropWhile (· != '\x22') = [] → below = []

section

variable {front rest : List Char}

/-- Raw text that does not run out is closed. -/
theorem rawText_closes
    (closed : (behind front rest).rawText.1.RunsOut (front ++ rest) → below = []) :
    GroupCloses below ((behind front rest).skip Text.isInlineBlank).rest := by
  have parts := List.takeWhile_append_dropWhile (p := Text.isInlineBlank) (l := rest)
  intro cs hrest unclosed
  rw [skip_behind, behind_rest] at hrest
  have inside := splitGroup_append 0 cs
  rw [unclosed, List.append_nil] at inside
  refine closed ⟨front ++ rest.takeWhile Text.isInlineBlank, '(', by simp, ?_, ?_⟩
  · simp [rawText, hrest, startsWith, Token.literal]
  · rw [hrest] at parts
    simp [rawText, hrest, startsWith, Token.literal, inside, parts]

theorem takeWhile_of_unclosed {cs : List Char} (unclosed : cs.dropWhile (· != '\x22') = []) :
    cs.takeWhile (· != '\x22') = cs := by
  have parts := List.takeWhile_append_dropWhile (p := (· != '\x22')) (l := cs)
  rwa [unclosed, List.append_nil] at parts

theorem quotedLiteral_closes
    (closed : (behind front rest).quotedLiteral.1.RunsOut (front ++ rest) → below = []) :
    GroupCloses below ((behind front rest).skip Text.isInlineBlank).rest ∧
      QuotationCloses below ((behind front rest).skip Text.isInlineBlank).rest := by
  constructor
  · intro cs hrest
    have raw : (behind front rest).quotedLiteral = (behind front rest).rawText := by
      unfold quotedLiteral
      simp only [startsWith, hrest]
      exact rawText_skip (behind front rest)
    exact rawText_closes (raw ▸ closed) cs hrest
  · intro cs hrest unclosed
    have parts := List.takeWhile_append_dropWhile (p := Text.isInlineBlank) (l := rest)
    rw [skip_behind, behind_rest] at hrest
    rw [hrest] at parts
    refine closed ⟨front ++ rest.takeWhile Text.isInlineBlank, '\x22', by simp, ?_, ?_⟩
    · simp [quotedLiteral, startsWith, hrest, Token.literal]
    · simp [quotedLiteral, startsWith, hrest, quotation, Token.literal,
        takeWhile_of_unclosed unclosed, parts]

theorem quotation?_closes
    (closed : ∀ lexeme ∈ (behind front rest).quotation?, lexeme.token.RunsOut (front ++ rest) →
      below = []) : QuotationCloses below rest := by
  rintro cs rfl unclosed
  refine closed _ rfl ⟨front, '\x22', by simp, rfl, ?_⟩
  simp [takeWhile_of_unclosed unclosed]

end

section

variable (ends : EndsLine below)

include ends

/-- Raw text ends in its line, unless it stands in parentheses that are not closed. -/
theorem rawText_inset {cursor : Cursor}
    (closed : GroupCloses below (cursor.skip Text.isInlineBlank).rest) :
    (cursor.inset lines below).rawText =
      (cursor.rawText.1.moveDown lines, cursor.rawText.2.inset lines below) := by
  unfold rawText
  rw [skip_inset (ends.stops (by decide) cursor.rest)]
  generalize cursor.skip Text.isInlineBlank = place at closed
  dsimp only
  rw [startsWith_inset ends (by decide)]
  split
  · next starts =>
    obtain ⟨c, cs, hrest, hc⟩ := rest_of_startsWith starts
    obtain rfl := List.mem_singleton.1 hc
    have inside : place.step.rest = cs := by rw [step, hrest]; rfl
    have unclosed := closed cs hrest
    rw [step_inset (by simp [hrest]), inset_rest, inside, splitGroup_inset unclosed]
    dsimp only
    rw [between_inset, step_inset unclosed]
    rfl
  · have word := ends.stops (p := (!Text.isBlank ·)) (by decide) place.rest
    rw [inset_rest, word.takeWhile_append, skip_inset word]
    rfl

theorem quotedLiteral_inset {cursor : Cursor}
    (closed : GroupCloses below (cursor.skip Text.isInlineBlank).rest)
    (closed' : QuotationCloses below (cursor.skip Text.isInlineBlank).rest) :
    (cursor.inset lines below).quotedLiteral =
      (cursor.quotedLiteral.1.moveDown lines, cursor.quotedLiteral.2.inset lines below) := by
  have raw : (cursor.inset lines below).rawText = _ := rawText_inset ends closed
  rw [← rawText_skip, skip_inset (ends.stops (by decide) cursor.rest)] at raw
  unfold quotedLiteral
  rw [skip_inset (ends.stops (by decide) cursor.rest)]
  dsimp only
  rw [startsWith_inset ends (by decide)]
  split
  · next starts =>
    obtain ⟨c, cs, hrest, hc⟩ := rest_of_startsWith starts
    obtain rfl := List.mem_singleton.1 hc
    have inside : (cursor.skip Text.isInlineBlank).step.rest = cs := by rw [step, hrest]; rfl
    rw [quotation_inset starts (by rw [skip, inside]; exact closed' cs hrest)]
    rfl
  · rw [raw, rawText_skip]

/-- The name of a color ends in its line, and so do brackets around it. -/
theorem colorSpec_inset (cursor : Cursor) :
    (cursor.inset lines below).colorSpec =
      (cursor.colorSpec.1.moveDown lines, cursor.colorSpec.2.inset lines below) := by
  unfold colorSpec
  rw [skip_inset (ends.stops (by decide) cursor.rest)]
  generalize cursor.skip Text.isInlineBlank = place
  dsimp only
  rw [startsWith_inset ends (by decide)]
  have opened : (if place.startsWith ['(', '[', '\x7b'] then (place.inset lines below).step
      else place.inset lines below) = (if place.startsWith ['(', '[', '\x7b'] then place.step
      else place).inset lines below := by
    split
    · next starts =>
      obtain ⟨c, cs, hrest, -⟩ := rest_of_startsWith starts
      exact step_inset (by simp [hrest])
    · rfl
  rw [opened]
  generalize (if place.startsWith ['(', '[', '\x7b'] then place.step else place) = name
  have stops := ends.stops (p := isColorChar) (by decide) name.rest
  rw [inset_rest, stops.takeWhile_append, skip_inset stops, startsWith_inset ends (by decide)]
  split
  · next closes =>
    obtain ⟨-, closes⟩ := Bool.and_eq_true_iff.1 closes
    obtain ⟨c, cs, hrest, -⟩ := rest_of_startsWith closes
    rw [step_inset (by simp [hrest])]
    rfl
  · rfl

theorem argument_inset {front rest : List Char} {flag : Flag}
    (closed : flag ≠ .colorSpec → ∀ token ∈ ((behind front rest).argument flag).1,
      token.RunsOut (front ++ rest) → below = []) :
    ((behind front rest).inset lines below).argument flag =
      (((behind front rest).argument flag).1.map (Token.moveDown lines),
        ((behind front rest).argument flag).2.inset lines below) := by
  cases flag with
  | rawText =>
    have group := rawText_closes (closed (by simp) _ rfl)
    exact congrArg (Prod.map some id) (rawText_inset ends group)
  | texLiteral | lengthLiteral =>
    obtain ⟨group, quotation⟩ := quotedLiteral_closes (closed (by simp) _ rfl)
    exact congrArg (Prod.map some id) (quotedLiteral_inset ends group quotation)
  | colorSpec => exact congrArg (Prod.map some id) (colorSpec_inset ends (behind front rest))
  | rowRule => rfl

theorem numeral_inset (text : List Char) :
    numeral (text ++ below) = ((numeral text).1, (numeral text).2 ++ below) := by
  have digits : ∀ rest, Stops Char.isDigit rest below := ends.stops (by decide)
  unfold numeral
  rw [(digits text).takeWhile_append, (digits text).dropWhile_append]
  cases text.dropWhile Char.isDigit with
  | nil =>
    cases below with
    | nil => rfl
    | cons c cs =>
      obtain rfl := ends c rfl
      rfl
  | cons c back =>
    by_cases point : c = '.'
    · subst point
      simp only [List.cons_append, (digits back).takeWhile_append, (digits back).dropWhile_append]
      split <;> rfl
    · dsimp only [List.cons_append]
      split
      · next same => exact absurd (List.cons.inj same).1 point
      · split
        · next same => exact absurd (List.cons.inj same).1 point
        · rfl

theorem numeral?_inset (cursor : Cursor) :
    (cursor.inset lines below).numeral? = cursor.numeral?.map (Lexeme.inset lines below) := by
  unfold numeral?
  rw [inset_rest, numeral_inset ends]
  obtain ⟨front, back⟩ := numeral cursor.rest
  cases front with
  | nil => rfl
  | cons c cs =>
    dsimp only
    rw [between_inset]
    rfl

theorem quotation?_inset {front rest : List Char}
    (closed : ∀ lexeme ∈ (behind front rest).quotation?, lexeme.token.RunsOut (front ++ rest) →
      below = []) :
    ((behind front rest).inset lines below).quotation? =
      (behind front rest).quotation?.map (Lexeme.inset lines below) := by
  have closes := quotation?_closes closed
  unfold quotation?
  rw [startsWith_inset ends (by decide)]
  split
  · next starts =>
    obtain ⟨c, cs, rfl, hc⟩ := exists_of_startsWith starts
    obtain rfl := List.mem_singleton.1 hc
    rw [quotation_inset starts (by simpa using closes cs rfl)]
    rfl
  · rfl

variable {μ : Type} [KeywordMap μ Symbol] {keywords : μ}

theorem splitRun_inset (inline : KeywordMap.Inline keywords) (text : List Char) :
    splitRun keywords (text ++ below) =
      ((splitRun keywords text).1, (splitRun keywords text).2 ++ below) := by
  induction text with
  | nil =>
    cases below with
    | nil => rfl
    | cons c cs =>
      obtain rfl := ends c rfl
      rfl
  | cons c cs ih =>
    have starts : KeywordMap.startsKeyword keywords (c :: (cs ++ below)) =
        KeywordMap.startsKeyword keywords (c :: cs) := by
      rw [KeywordMap.startsKeyword, KeywordMap.startsKeyword, ← inline (c :: cs) below ends]
      rfl
    rw [List.cons_append, splitRun, splitRun, starts, ih]
    split <;> rfl

theorem run?_inset (inline : KeywordMap.Inline keywords) (cursor : Cursor) :
    (cursor.inset lines below).run? keywords =
      (cursor.run? keywords).map (Lexeme.inset lines below) := by
  unfold run?
  rw [inset_rest, splitRun_inset ends inline]
  obtain ⟨front, back⟩ := splitRun keywords cursor.rest
  cases front with
  | nil => rfl
  | cons c cs =>
    dsimp only
    rw [between_inset]
    rfl

omit ends in
theorem append_of_keywordAt? {text front back : List Char} {symbol : Symbol}
    (h : KeywordMap.keywordAt? keywords text = some ((front, back), symbol)) :
    front ++ back = text := by
  unfold KeywordMap.keywordAt? at h
  split at h
  · obtain ⟨parts, hsplit, hparts⟩ := Option.map_eq_some_iff.1 h
    obtain ⟨rfl, -⟩ := Prod.mk.inj hparts
    exact (Text.splitBytes?_eq_some hsplit).1.symm
  · cases h

theorem keywordAt?_inset (inline : KeywordMap.Inline keywords) (fits : KeywordMap.Fits keywords)
    (text : List Char) :
    KeywordMap.keywordAt? keywords (text ++ below) = (KeywordMap.keywordAt? keywords text).map
      fun ((front, back), symbol) ↦ ((front, back ++ below), symbol) := by
  unfold KeywordMap.keywordAt?
  rw [inline text below ends]
  split
  · next length symbol found =>
    obtain ⟨front, back, hsplit, rfl, hlength⟩ := fits.split found
    change length + 1 = _ at hlength
    rw [hsplit, List.append_assoc, hlength, Text.splitBytes?_append]
    rfl
  · rfl

theorem keywordLexeme_inset {front rest value back : List Char} {symbol : Symbol}
    (parts : value ++ back = rest)
    (closed : ∀ flag, symbol.flag = some flag → flag ≠ .colorSpec →
      ∀ token ∈ ((behind front rest).keywordLexeme ((value, back), symbol)).argument,
        token.RunsOut (front ++ rest) → below = []) :
    ((behind front rest).inset lines below).keywordLexeme ((value, back ++ below), symbol) =
      ((behind front rest).keywordLexeme ((value, back), symbol)).inset lines below := by
  unfold keywordLexeme at closed ⊢
  dsimp only at closed ⊢
  rw [between_inset]
  cases hflag : symbol.flag with
  | none => rfl
  | some flag =>
    rw [hflag, between_behind] at closed
    rw [between_behind]
    dsimp only at closed ⊢
    rw [argument_inset ends fun plain token mem runs ↦ ?_]
    · rfl
    · refine closed flag rfl plain token mem ?_
      rwa [← parts, ← List.append_assoc]

end

end Cursor

end AsciiMath
