import AsciiMath.Proofs.Text.Cut
import AsciiMath.Proofs.Token.Place
import AsciiMath.Proofs.Token.Scan
import AsciiMath.Token.ByteScanner

/-!
# Cuts of a scanner

A scanner can cut off a front part of the text that is left to it. The bytes that are counted for
the argument of a keyword are always the length of such a part, with its delimiters or without them.
So each argument is found, and it is what is read of the characters.
-/

namespace AsciiMath

namespace Cursor

theorem between_between (cursor : Cursor) (front passed rest back : List Char) :
    (cursor.between front rest).between passed back = cursor.between (front ++ passed) back := by
  simp [between]

theorem step_eq (cursor : Cursor) :
    cursor.step = cursor.between (cursor.rest.take 1) (cursor.rest.drop 1) := by
  obtain ⟨rest, position⟩ := cursor
  cases rest <;> rfl

theorem step_between (cursor : Cursor) (front back : List Char) :
    (cursor.between front back).step =
      cursor.between (front ++ back.take 1) (back.drop 1) := by
  rw [step_eq, between_between]
  rfl

end Cursor

namespace ByteScanner

variable {α β : Type} {scanner : ByteScanner} {cursor : Cursor}

theorem bind_eq {run : Run α} {found : α} {after : ByteScanner}
    (h : run scanner = some (found, after)) (more : α → Run β) :
    (run >>= more) scanner = more found after := by
  change Option.bind (run scanner) _ = _
  rw [h]
  rfl

theorem place_bind (scanner : ByteScanner) (cursor : Cursor) (more : Cursor → Run β) :
    (place >>= more) (scanner.goTo cursor) = more cursor (scanner.goTo cursor) := rfl

theorem place_eq (scanner : ByteScanner) : place scanner = some (scanner.cursor, scanner) := rfl

theorem check_bind {found? : Option α} {found : α} (h : found? = some found)
    (scanner : ByteScanner) (more : α → Run β) :
    (check found? >>= more) scanner = more found scanner := by
  rw [h]
  rfl

/-- A front part of what is left can be cut off by its bytes. -/
theorem take_eq {front back : List Char} (h : cursor.rest = front ++ back)
    (scanner : ByteScanner) :
    take (Text.byteLength front) (scanner.goTo cursor) =
      some (front, scanner.goTo (cursor.between front back)) := by
  have cut : Text.splitBytes? (Text.byteLength front) cursor.rest = some (front, back) := by
    rw [h, Text.splitBytes?_append]
  rw [take, place_bind, check_bind cut]
  rfl

theorem takeUpTo_eq (p : Char → Bool) (scanner : ByteScanner) (cursor : Cursor) :
    takeUpTo p (scanner.goTo cursor) =
      some (cursor.rest.takeWhile (!p ·), scanner.goTo (cursor.skip (!p ·))) := by
  rw [takeUpTo, place_bind, Text.bytesUpTo_eq]
  exact take_eq List.takeWhile_append_dropWhile.symm scanner

theorem skip_eq (p : Char → Bool) (scanner : ByteScanner) (cursor : Cursor) :
    takeUpTo (!p ·) (scanner.goTo cursor) =
      some (cursor.rest.takeWhile p, scanner.goTo (cursor.skip p)) := by
  rw [takeUpTo_eq]
  simp only [Bool.not_not]

/-- A run finds what is read of the characters, and is behind it then. -/
def Reads (run : Run α) (reading : Cursor → α × Cursor) : Prop :=
  ∀ (scanner : ByteScanner) (cursor : Cursor), run (scanner.goTo cursor) =
    some ((reading cursor).1, scanner.goTo (reading cursor).2)

/-- Behind the bracket that opens the group its bytes are counted from one on, and it is one deeper
than where the group is split. -/
theorem groupBytes?_eq (count depth : Nat) (text : List Char) :
    groupBytes? (count + 1) (depth + 1) text =
      some (count + Text.byteLength (Cursor.splitGroup depth text).1,
        count + 1 + Text.byteLength (Cursor.splitGroup depth text).1 +
          Text.byteLength ((Cursor.splitGroup depth text).2.take 1)) := by
  induction text generalizing count depth with
  | nil => simp [groupBytes?, lessOne?, Cursor.splitGroup]
  | cons c cs ih =>
    have onward : count + 1 + c.utf8Size = count + c.utf8Size + 1 := Nat.add_right_comm count 1 _
    rw [groupBytes?, Cursor.splitGroup.eq_def, onward]
    by_cases opens : c = '('
    · subst opens
      have deeper := ih (count + '('.utf8Size) (depth + 1)
      rw [Int.natCast_succ] at deeper
      simp [deeper]
      omega
    by_cases closes : c = ')'
    · subst closes
      cases depth with
      | zero =>
        have one : (')').utf8Size = 1 := rfl
        simp [lessOne?, one]
      | succ depth =>
        have outer := ih (count + ')'.utf8Size) depth
        have nested : ((depth + 1 : Nat) : Int) + 1 ≠ 1 := by omega
        have less : ((depth + 1 : Nat) : Int) + 1 - 1 = depth + 1 := by omega
        rw [if_neg (by decide), if_pos rfl, if_neg nested, less, outer]
        simp
        omega
    · have inner := ih (count + c.utf8Size) depth
      simp [opens, closes, inner]
      omega

theorem groupBytes?_delimited (text : List Char) :
    groupBytes? 0 0 ('(' :: text) = some (Text.byteLength (Cursor.splitGroup 0 text).1,
      1 + Text.byteLength (Cursor.splitGroup 0 text).1 +
        Text.byteLength ((Cursor.splitGroup 0 text).2.take 1)) := by
  have counted := groupBytes?_eq 0 0 text
  have bracket : ('(').utf8Size = 1 := rfl
  rw [groupBytes?, if_pos rfl, bracket]
  simpa using counted

theorem exists_of_startsWith_singleton {opener : Char} (h : cursor.startsWith [opener]) :
    ∃ text, cursor.rest = opener :: text ∧ cursor.step.rest = text := by
  obtain ⟨_, text, hrest, hmem⟩ := Cursor.rest_of_startsWith h
  obtain rfl := List.mem_singleton.1 hmem
  exact ⟨text, hrest, by rw [Cursor.step, hrest]; rfl⟩

section

variable {opener : Char} {inside back : List Char} (one : opener.utf8Size = 1)
  (h : cursor.rest = opener :: (inside ++ back))

include one h

/-- What stands behind a delimiter of one byte is cut out. -/
theorem slice?_delimited :
    Text.slice? 1 (1 + Text.byteLength inside) cursor.rest = some inside := by
  have sliced := Text.slice?_append [opener] inside back
  rwa [Text.byteLength_cons, Text.byteLength_nil, one, List.singleton_append, ← h] at sliced

/-- The delimiter that closes is taken too, unless it is missing. -/
theorem exists_take_delimited (scanner : ByteScanner) :
    ∃ taken, take (1 + Text.byteLength inside + Text.byteLength (back.take 1))
      (scanner.goTo cursor) =
        some (taken, scanner.goTo (cursor.step.between inside back).step) := by
  have parts : cursor.rest = (opener :: inside ++ back.take 1) ++ back.drop 1 := by
    rw [h, List.append_assoc, List.take_append_drop]
    rfl
  have taken := take_eq parts scanner
  have behind : (cursor.step.between inside back).step =
      cursor.between (opener :: inside ++ back.take 1) (back.drop 1) := by
    rw [Cursor.step_eq cursor, Cursor.between_between, Cursor.step_between, h]
    rfl
  rw [Text.byteLength_append, Text.byteLength_cons, one] at taken
  exact ⟨_, behind ▸ taken⟩

end

theorem rawText_reads : Reads rawText Cursor.rawText := by
  intro scanner cursor
  rw [rawText, bind_eq (skip_eq _ _ _), place_bind, Cursor.rawText]
  generalize cursor.skip Text.isInlineBlank = cursor
  by_cases opened : cursor.startsWith ['(']
  · rw [if_pos opened, if_pos opened]
    obtain ⟨text, hrest, within⟩ := exists_of_startsWith_singleton opened
    have parts := Cursor.splitGroup_append 0 text
    have counted := groupBytes?_delimited text
    rw [← hrest] at counted
    dsimp only
    rw [within]
    generalize Cursor.splitGroup 0 text = group at parts counted ⊢
    obtain ⟨inside, back⟩ := group
    obtain rfl : inside ++ back = text := parts
    obtain ⟨taken, cut⟩ := exists_take_delimited rfl hrest scanner
    rw [check_bind counted]
    dsimp only
    rw [check_bind (slice?_delimited rfl hrest), bind_eq cut]
    rfl
  · rw [if_neg opened, if_neg opened, bind_eq (takeUpTo_eq _ _ _)]
    rfl

theorem quoted?_eq {text : List Char} (h : cursor.rest = '\x22' :: text) :
    quoted? cursor.rest = some (text.takeWhile (· != '\x22'),
      1 + Text.byteLength (text.takeWhile (· != '\x22')) +
        Text.byteLength ((text.dropWhile (· != '\x22')).take 1)) := by
  have parts := List.takeWhile_append_dropWhile (p := (· != '\x22')) (l := text)
  have sliced := slice?_delimited rfl (h.trans (by rw [parts]))
  have cut : Text.splitBytes? 1 cursor.rest = some (['\x22'], text) :=
    h ▸ Text.splitBytes?_append ['\x22'] text
  have counted := Text.bytesBefore?_eq (· == '\x22') text
  change Text.bytesBefore? _ _ = if text.dropWhile (· != '\x22') = [] then none
    else some (Text.byteLength (text.takeWhile (· != '\x22'))) at counted
  simp only [quoted?, cut, counted, Option.bind_eq_bind, Option.bind_some]
  cases hback : text.dropWhile (· != '\x22') with
  | nil =>
    rw [hback, List.append_nil] at parts
    rw [if_pos rfl, parts, h]
    rfl
  | cons c back =>
    have quote : c = '\x22' := by simpa using Text.eq_false_of_dropWhile hback
    rw [if_neg (List.cons_ne_nil c back), quote]
    dsimp only
    rw [Nat.add_comm _ 1, sliced, Nat.add_comm 1]
    rfl

/-- A quotation is counted and cut as it is read. -/
theorem exists_quoted? (h : cursor.startsWith ['\x22']) (scanner : ByteScanner) :
    ∃ total taken, quoted? cursor.rest = some (cursor.quotation.1, total) ∧
      take total (scanner.goTo cursor) = some (taken, scanner.goTo cursor.quotation.2) := by
  obtain ⟨text, hrest, within⟩ := exists_of_startsWith_singleton h
  have parts := List.takeWhile_append_dropWhile (p := (· != '\x22')) (l := text)
  obtain ⟨taken, cut⟩ := exists_take_delimited rfl (hrest.trans (by rw [parts])) scanner
  refine ⟨_, taken, (quoted?_eq hrest).trans ?_, cut.trans ?_⟩
  · rw [Cursor.quotation, within]
  · rw [Cursor.quotation, Cursor.skip, within]

theorem quotedLiteral_reads : Reads quotedLiteral Cursor.quotedLiteral := by
  intro scanner cursor
  rw [quotedLiteral, bind_eq (skip_eq _ _ _), place_bind, Cursor.quotedLiteral]
  generalize cursor.skip Text.isInlineBlank = cursor
  by_cases opened : cursor.startsWith ['\x22']
  · obtain ⟨total, taken, counted, cut⟩ := exists_quoted? opened scanner
    rw [if_pos opened, if_pos opened, check_bind counted]
    dsimp only
    rw [bind_eq cut]
    rfl
  · rw [if_neg opened, if_neg opened]
    exact rawText_reads scanner cursor

theorem takeBracket_eq (brackets : List Char) (ascii : brackets.all (·.utf8Size == 1))
    {bracketed : Bool} (h : bracketed → cursor.startsWith brackets) (scanner : ByteScanner) :
    takeBracket bracketed (scanner.goTo cursor) =
      some (⟨⟩, scanner.goTo (if bracketed then cursor.step else cursor)) := by
  cases bracketed with
  | false => rfl
  | true =>
    obtain ⟨c, cs, hrest, mem⟩ := Cursor.rest_of_startsWith (h rfl)
    have cut := take_eq (List.singleton_append ▸ hrest : cursor.rest = [c] ++ cs) scanner
    have one : c.utf8Size = 1 := beq_iff_eq.1 (List.all_eq_true.1 ascii c mem)
    rw [Text.byteLength_cons, one, Text.byteLength_nil, Nat.add_zero] at cut
    rw [takeBracket, if_pos rfl, bind_eq cut, Cursor.step_eq, hrest]
    rfl

theorem colorSpec_reads : Reads colorSpec Cursor.colorSpec := by
  intro scanner cursor
  rw [colorSpec, bind_eq (skip_eq _ _ _), place_bind, Cursor.colorSpec]
  generalize cursor.skip Text.isInlineBlank = cursor
  rw [bind_eq (takeBracket_eq ['(', '[', '\x7b'] rfl id scanner), place_bind]
  have closes {bracketed closed : Bool} (h : bracketed && closed) : closed :=
    (Bool.and_eq_true_iff.1 h).2
  rw [bind_eq (skip_eq _ _ _), place_bind,
    bind_eq (takeBracket_eq [')', ']', '\x7d'] rfl closes scanner)]
  rfl

theorem argument_reads (flag : Flag) : Reads (argument flag) (Cursor.argument · flag) := by
  intro scanner cursor
  cases flag with
  | rawText => rw [argument, bind_eq (rawText_reads _ _)]; rfl
  | texLiteral | lengthLiteral => rw [argument, bind_eq (quotedLiteral_reads _ _)]; rfl
  | colorSpec => rw [argument, bind_eq (colorSpec_reads _ _)]; rfl
  | rowRule => rfl

end ByteScanner

end AsciiMath
