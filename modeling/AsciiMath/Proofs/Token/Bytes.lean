import AsciiMath.Proofs.Token.Cuts
import AsciiMath.Proofs.Token.Segment

/-!
# Byte counts of a scanner

Every count that a scanner makes of the bytes of its text is the length of a front part of it, and
the length of a keyword is used only if it is one. So no cut falls inside of a character, and there
are as many rounds as the patience asks for. A scanner that works with such counts has an outcome in
each call, and it is that of a scanner that reads characters.
-/

namespace AsciiMath

variable {μ : Type} [KeywordMap μ Symbol]

namespace Cursor

theorem numeral_of_point {text back : List Char} (h : text.dropWhile Char.isDigit = '.' :: back) :
    (numeral text).1 =
      if text.takeWhile Char.isDigit = [] ∧ back.takeWhile Char.isDigit = [] then []
      else text.takeWhile Char.isDigit ++ '.' :: back.takeWhile Char.isDigit := by
  simp only [numeral, h, Bool.and_eq_true, List.isEmpty_iff]
  split <;> rfl

theorem numeral_of_plain {text : List Char}
    (h : ∀ back, text.dropWhile Char.isDigit ≠ '.' :: back) :
    (numeral text).1 = text.takeWhile Char.isDigit := by
  unfold numeral
  dsimp only
  split
  · next back hback => exact absurd hback (h back)
  · rfl

end Cursor

/-- A call goes by its first attempt. Only an attempt in vain leads to another one. -/
theorem Scanner.next_eq (keywords : μ) (cursor : Cursor) (patience budget : Nat) :
    next keywords ⟨cursor, none, patience, budget⟩ =
      match cursor.attempt keywords, patience with
      | (some lexeme, _), patience =>
        (some (.ok lexeme.token), ⟨lexeme.after, lexeme.argument, patience, budget⟩)
      | (none, ⟨[], position⟩), patience => (none, ⟨⟨[], position⟩, none, patience, budget⟩)
      | (none, place), patience + 1 => next keywords ⟨place, none, patience, budget⟩
      | (none, place), 0 => (some (.error (.stalled place.position budget)),
          ⟨⟨[], place.position⟩, none, 0, budget⟩) := by
  rw [next]
  cases patience with
  | zero | succ patience =>
    rw [Cursor.retry]
    generalize cursor.attempt keywords = attempt
    obtain ⟨_ | lexeme, rest, position⟩ := attempt
    · cases rest <;> rfl
    · rfl

namespace ByteScanner

variable {scanner : ByteScanner} {cursor : Cursor}

theorem numericBytes_true (text : List Char) :
    numericBytes true text = (Text.byteLength (text.takeWhile Char.isDigit), true) := by
  induction text with
  | nil => rfl
  | cons c cs ih =>
    rw [numericBytes, List.takeWhile_cons, ih]
    cases c.isDigit <;> simp

theorem numericBytes_of_point {text back : List Char}
    (h : text.dropWhile Char.isDigit = '.' :: back) :
    numericBytes false text = (Text.byteLength (text.takeWhile Char.isDigit) +
      (1 + Text.byteLength (back.takeWhile Char.isDigit)), true) := by
  induction text with
  | nil => cases h
  | cons c cs ih =>
    rw [List.dropWhile_cons] at h
    cases digit : c.isDigit with
    | true =>
      rw [if_pos digit] at h
      have other : c ≠ '.' := by
        rintro rfl
        exact absurd digit (by decide)
      simp [numericBytes, digit, other, ih h, Nat.add_assoc]
    | false =>
      rw [digit, if_neg Bool.false_ne_true] at h
      obtain ⟨rfl, rfl⟩ := List.cons.inj h
      have point : ('.').utf8Size = 1 := rfl
      simp [numericBytes, numericBytes_true, digit, point]

theorem numericBytes_of_plain {text : List Char}
    (h : ∀ back, text.dropWhile Char.isDigit ≠ '.' :: back) :
    numericBytes false text = (Text.byteLength (text.takeWhile Char.isDigit), false) := by
  induction text with
  | nil => rfl
  | cons c cs ih =>
    rw [List.dropWhile_cons] at h
    cases digit : c.isDigit with
    | true =>
      have other : c ≠ '.' := by
        rintro rfl
        exact absurd digit (by decide)
      rw [digit, if_pos rfl] at h
      simp [numericBytes, digit, other, ih h]
    | false =>
      rw [digit, if_neg Bool.false_ne_true] at h
      have other : c ≠ '.' := by
        rintro rfl
        exact h cs rfl
      simp [numericBytes, digit, other]

theorem numeralBytes_eq (text : List Char) :
    numeralBytes text = Text.byteLength (Cursor.numeral text).1 := by
  by_cases pointed : ∃ back, text.dropWhile Char.isDigit = '.' :: back
  · obtain ⟨back, hback⟩ := pointed
    rw [numeralBytes, numericBytes_of_point hback, Cursor.numeral_of_point hback]
    generalize text.takeWhile Char.isDigit = whole
    generalize back.takeWhile Char.isDigit = fraction
    -- a digit before or behind the point makes more than the one byte of the point
    by_cases alone : whole = [] ∧ fraction = []
    · obtain ⟨rfl, rfl⟩ := alone
      rfl
    · have more : 0 < Text.byteLength whole ∨ 0 < Text.byteLength fraction :=
        (not_and_or.1 alone).imp Text.byteLength_pos Text.byteLength_pos
      have point : ('.').utf8Size = 1 := rfl
      rw [if_neg alone, Text.byteLength_append, Text.byteLength_cons, point]
      dsimp only
      rw [if_pos]
      simp only [Bool.or_eq_true, decide_eq_true_eq]
      omega
  · rw [numeralBytes, numericBytes_of_plain (not_exists.1 pointed),
      Cursor.numeral_of_plain (not_exists.1 pointed)]
    cases text.takeWhile Char.isDigit with
    | nil => rfl
    | cons c whole => exact if_pos (by simp [Nat.add_pos_left c.utf8Size_pos])

theorem runBytes?_eq (keywords : μ) (front text : List Char) :
    runBytes? keywords (front ++ text) (Text.byteLength front) text =
      some (Text.byteLength (front ++ (Cursor.splitRun keywords text).1)) := by
  induction text generalizing front with
  | nil => rw [runBytes?, Cursor.splitRun]
  | cons c cs ih =>
    have further := ih (front ++ [c])
    rw [Text.byteLength_append, Text.byteLength_cons, Text.byteLength_nil, Nat.add_zero,
      List.append_assoc, List.singleton_append] at further
    rw [runBytes?, Cursor.splitRun, Text.splitBytes?_append]
    cases blank : Text.isBlank c with
    | true => simp
    | false =>
      cases starts : KeywordMap.startsKeyword keywords (c :: cs) with
      | true => simp [starts]
      | false => simp [starts, further]

/-- The token of a lexeme and the scanner that keeps the argument. Without a lexeme nothing has
changed. -/
def found (scanner : ByteScanner) (cursor : Cursor) :
    Option Cursor.Lexeme → Option Token × ByteScanner
  | some lexeme =>
    (some lexeme.token, { scanner with cursor := lexeme.after, pending := lexeme.argument })
  | none => (none, scanner.goTo cursor)

/-- A scanner that keeps no argument finds a token where a lexeme is read of the characters. -/
def Finds (run : Run (Option Token)) (reading : Cursor → Option Cursor.Lexeme) : Prop :=
  ∀ (scanner : ByteScanner) (cursor : Cursor), scanner.pending = none →
    run (scanner.goTo cursor) = some (found scanner cursor (reading cursor))

theorem goTo_eq (pending : scanner.pending = none) (cursor : Cursor) :
    scanner.goTo cursor = { scanner with cursor, pending := none } := by
  rw [goTo, pending]

theorem takeArgument_some (flag : Flag) (scanner : ByteScanner) (cursor : Cursor) :
    takeArgument (some flag) (scanner.goTo cursor) =
      some (⟨⟩, ⟨(cursor.argument flag).2, (cursor.argument flag).1, scanner.stalls,
        scanner.budget⟩) := by
  rw [takeArgument, bind_eq (argument_reads flag scanner cursor)]
  rfl

theorem keyword_finds (keywords : μ) : Finds (keyword keywords) (Cursor.keyword? · keywords) := by
  intro scanner cursor pending
  beta_reduce
  rw [keyword, place_bind, Cursor.keyword?]
  cases longest : KeywordMap.longest? keywords cursor.rest with
  | none => rfl
  | some entry =>
    obtain ⟨count, symbol⟩ := entry
    cases count with
    | zero => rfl
    | succ count =>
      have fits := Text.splitBytes?_isSome (count + 1) cursor.rest
      rw [Option.filter_some, ← fits]
      dsimp only
      cases cut : Text.splitBytes? (count + 1) cursor.rest with
      | none => rfl
      | some parts =>
        obtain ⟨front, back⟩ := parts
        obtain ⟨hrest, hfront⟩ := Text.splitBytes?_eq_some cut
        have value := take_eq hrest scanner
        rw [hfront] at value
        rw [if_pos (by simp)]
        dsimp only
        rw [bind_eq value]
        cases hflag : symbol.flag with
        | none => exact congrArg some (Prod.ext rfl (goTo_eq pending _))
        | some flag =>
          rw [bind_eq (takeArgument_some _ _ _)]
          rfl

theorem found_literal (pending : scanner.pending = none) (token : Token) (front back : List Char) :
    found scanner cursor (some ⟨token, none, cursor.between front back⟩) =
      (some token, scanner.goTo (cursor.between front back)) := by
  rw [goTo_eq pending]
  rfl

theorem numeral_finds : Finds numeral Cursor.numeral? := by
  intro scanner cursor pending
  rw [numeral, place_bind, Cursor.numeral?, numeralBytes_eq]
  have parts := Cursor.numeral_append cursor.rest
  generalize Cursor.numeral cursor.rest = pieces at parts ⊢
  obtain ⟨front, back⟩ := pieces
  cases front with
  | nil => rfl
  | cons c front =>
    dsimp only at parts ⊢
    rw [if_pos (Text.byteLength_pos (List.cons_ne_nil c front)),
      bind_eq (take_eq parts.symm scanner), found_literal pending]
    rfl

theorem quotation_finds : Finds quotation Cursor.quotation? := by
  intro scanner cursor pending
  rw [quotation, place_bind, Cursor.quotation?]
  by_cases opened : cursor.startsWith ['\x22']
  · obtain ⟨total, taken, counted, cut⟩ := exists_quoted? opened scanner
    rw [if_pos opened, if_pos opened, check_bind counted]
    dsimp only
    rw [bind_eq cut, goTo_eq pending]
    rfl
  · rw [if_neg opened, if_neg opened]
    rfl

theorem run_finds (keywords : μ) : Finds (run keywords) (Cursor.run? · keywords) := by
  intro scanner cursor pending
  beta_reduce
  have counted : runBytes? keywords cursor.rest 0 cursor.rest = _ :=
    runBytes?_eq keywords [] cursor.rest
  rw [run, place_bind, check_bind counted, Cursor.run?, List.nil_append]
  have parts := Cursor.splitRun_append keywords cursor.rest
  generalize Cursor.splitRun keywords cursor.rest = pieces at parts ⊢
  obtain ⟨front, back⟩ := pieces
  cases front with
  | nil => rfl
  | cons c front =>
    dsimp only at parts ⊢
    rw [if_neg (Text.byteLength_pos (List.cons_ne_nil c front)).ne',
      bind_eq (take_eq parts.symm scanner), found_literal pending]
    rfl

theorem Finds.orElse {first second : Run (Option Token)}
    {reading other : Cursor → Option Cursor.Lexeme} (finds : Finds first reading)
    (finds' : Finds second other) :
    Finds (orElse first second) fun cursor ↦ reading cursor <|> other cursor := by
  intro scanner cursor pending
  beta_reduce
  rw [ByteScanner.orElse, bind_eq (finds scanner cursor pending)]
  cases reading cursor with
  | some lexeme => rfl
  | none => exact finds' scanner cursor pending

theorem lexeme_finds (keywords : μ) : Finds (lexeme keywords) (Cursor.lexeme? · keywords) :=
  (keyword_finds keywords).orElse <| numeral_finds.orElse <| quotation_finds.orElse <|
    run_finds keywords

theorem blankLine_finds : Finds blankLine Cursor.rowBreak? := by
  intro scanner cursor pending
  have parts := List.takeWhile_append_dropWhile (p := Text.isBlank) (l := cursor.rest)
  have cut : Text.splitBytes? (Text.byteLength (cursor.rest.takeWhile Text.isBlank)) cursor.rest =
      some (cursor.rest.takeWhile Text.isBlank, cursor.rest.dropWhile Text.isBlank) := by
    rw [← Text.splitBytes?_append, parts]
  have after : (cursor.skip Text.isBlank).rest = cursor.rest.dropWhile Text.isBlank := rfl
  rw [blankLine, place_bind, Text.bytesBefore?_eq, Cursor.rowBreak?]
  simp only [Bool.not_not, after]
  cases hback : cursor.rest.dropWhile Text.isBlank with
  | nil => rfl
  | cons c back =>
    rw [if_neg (List.cons_ne_nil c back), List.isEmpty_cons, Bool.false_or]
    dsimp only
    rw [check_bind cut]
    dsimp only
    by_cases narrow : (cursor.rest.takeWhile Text.isBlank).count '\n' < 2
    · rw [if_pos narrow, if_pos (decide_eq_true narrow)]
      rfl
    · rw [if_neg narrow, if_neg (by simpa using narrow), bind_eq (take_eq parts.symm scanner),
        Cursor.skip, found_literal pending]
      rfl

/-- What comes, and what the scanner keeps. -/
def outcome (given : Option (Except ConversionError Token) × ByteScanner) :
    Option (Except ConversionError Token) × Scanner := (given.1, given.2.toScanner)

theorem stall_again {left : Nat} (patience : scanner.budget - scanner.stalls = left + 1)
    (again : Run (Option (Except ConversionError Token))) (cursor : Cursor) :
    stall again (scanner.goTo cursor) =
      again { scanner with cursor, stalls := scanner.stalls + 1 } := by
  change (if scanner.budget < scanner.stalls + 1 then _ else again) _ = _
  rw [if_neg (by omega)]
  rfl

theorem stall_last (spent : scanner.budget - scanner.stalls = 0)
    (again : Run (Option (Except ConversionError Token))) (cursor : Cursor) :
    stall again (scanner.goTo cursor) =
      some (some (.error (.stalled cursor.position scanner.budget)),
        ⟨⟨[], cursor.position⟩, scanner.pending, scanner.stalls + 1, scanner.budget⟩) := by
  change (if scanner.budget < scanner.stalls + 1 then _ else again) _ = _
  rw [if_pos (by omega)]
  rfl

theorem retry_of_read {keywords : μ} {lexeme : Cursor.Lexeme} (pending : scanner.pending = none)
    (read : (cursor.attempt keywords).1 = some lexeme) (rounds : Nat) :
    retry keywords (rounds + 1) (scanner.goTo cursor) = some (some (.ok lexeme.token),
      ⟨lexeme.after, lexeme.argument, scanner.stalls, scanner.budget⟩) := by
  rw [retry, bind_eq (blankLine_finds scanner cursor pending)]
  rw [Cursor.attempt] at read
  cases hbreak : cursor.rowBreak? with
  | some broken =>
    rw [hbreak] at read
    obtain rfl := Option.some.inj read
    rfl
  | none =>
    rw [hbreak] at read
    dsimp only at read
    have finds := lexeme_finds keywords scanner (cursor.skip Text.isBlank) pending
    have taken := Cursor.lexeme?_in (List.suffix_refl _) read
    have shorter := Text.byteLength_lt_of_suffix taken.after taken.shorter
    have more : ¬ (cursor.skip Text.isBlank).rest.isEmpty := by
      intro nothing
      rw [Cursor.lexeme?_nil keywords (List.isEmpty_iff.1 nothing)] at read
      cases read
    dsimp only [found]
    rw [bind_eq (skip_eq _ _ _), place_bind, if_neg more, bind_eq finds]
    simp only [read]
    rw [bind_eq (place_eq _), Option.filter_some, if_pos (decide_eq_true shorter)]
    rfl

theorem retry_of_vain {keywords : μ} {place : Cursor} (pending : scanner.pending = none)
    (vain : cursor.attempt keywords = (none, place)) (rounds : Nat) :
    retry keywords (rounds + 1) (scanner.goTo cursor) =
      if place.rest.isEmpty then some (none, scanner.goTo place)
      else stall (retry keywords rounds) (scanner.goTo place) := by
  rw [retry, bind_eq (blankLine_finds scanner cursor pending)]
  rw [Cursor.attempt] at vain
  cases hbreak : cursor.rowBreak? with
  | some broken =>
    rw [hbreak] at vain
    cases vain
  | none =>
    rw [hbreak] at vain
    obtain ⟨unread, rfl⟩ := Prod.mk.inj vain
    have finds := lexeme_finds keywords scanner (cursor.skip Text.isBlank) pending
    dsimp only [found]
    rw [bind_eq (skip_eq _ _ _), place_bind]
    split
    · rfl
    · rw [bind_eq finds]
      simp only [unread]
      rfl

/-- If the rounds are enough for the patience that is left, a call has an outcome. -/
theorem retry_eq (keywords : μ) {rounds : Nat} (pending : scanner.pending = none)
    (enough : scanner.budget - scanner.stalls < rounds) (cursor : Cursor) :
    (retry keywords rounds (scanner.goTo cursor)).map outcome =
      some (Scanner.next keywords (scanner.goTo cursor).toScanner) := by
  induction rounds generalizing scanner cursor with
  | zero => exact absurd enough (Nat.not_lt_zero _)
  | succ rounds ih =>
    have start : (scanner.goTo cursor).toScanner =
        ⟨cursor, none, scanner.budget - scanner.stalls, scanner.budget⟩ := by
      rw [toScanner, goTo, pending]
    rw [start, Scanner.next_eq]
    generalize hattempt : cursor.attempt keywords = attempt
    obtain ⟨_ | lexeme, place⟩ := attempt
    · rw [retry_of_vain pending hattempt]
      obtain ⟨_ | ⟨c, cs⟩, position⟩ := place
      · rw [goTo_eq pending]
        rfl
      · rw [if_neg (by simp)]
        cases patience : scanner.budget - scanner.stalls with
        | zero =>
          have none_left : scanner.budget - (scanner.stalls + 1) = 0 := by omega
          rw [stall_last patience, Option.map_some, outcome, toScanner, pending, none_left]
        | succ left =>
          have fewer : scanner.budget - (scanner.stalls + 1) = left := by omega
          rw [stall_again patience]
          have onward := @ih { scanner with stalls := scanner.stalls + 1 } pending
            (by dsimp only; omega) ⟨c :: cs, position⟩
          rw [toScanner, goTo, fewer] at onward
          simpa [pending] using onward
    · rw [retry_of_read pending (by rw [hattempt])]
      rfl

/-- A call has an outcome, which is the one of a scanner that reads characters. -/
theorem next_eq (keywords : μ) (scanner : ByteScanner) :
    (next keywords scanner).map outcome = some (Scanner.next keywords scanner.toScanner) := by
  have start : (get : Run ByteScanner) scanner = some (scanner, scanner) := rfl
  rw [next, bind_eq start]
  cases pending : scanner.pending with
  | some token =>
    have given : scanner.toScanner.pending = some token := pending
    rw [Scanner.next_of_pending given]
    rfl
  | none =>
    have enough : scanner.budget - scanner.stalls < scanner.budget + 1 :=
      Nat.lt_succ_of_le (Nat.sub_le _ _)
    exact retry_eq keywords pending enough scanner.cursor

end ByteScanner

end AsciiMath
