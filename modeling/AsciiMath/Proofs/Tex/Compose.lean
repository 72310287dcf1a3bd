import AsciiMath.Formula.Tex
import AsciiMath.Proofs.Tex.Pieces

/-!
# TeX put together

Formulas are written by joining the TeX of their parts with separators, by filling it into
templates, and by setting it in arrays. In all of these it stands between characters that are no
letters, so that what is open behind a whole is found by going through its parts.
-/

namespace AsciiMath.Tex

/-- Characters that are pieces of their own and neither open nor close anything. -/
def isInert (c : Char) : Bool := c ∉ ['\\', '\x7b', '\x7d']

theorem nested_of_isInert {text : List Char} (h : ∀ c ∈ text, isInert c) :
    Nested text ∧ Mode.after .between text = .between := by
  induction text with
  | nil => exact ⟨turns_nil [], rfl⟩
  | cons c text ih =>
    obtain ⟨hc, hmore⟩ := List.forall_mem_cons.1 h
    obtain ⟨nested, settled⟩ := ih hmore
    have hc : c ≠ '\\' ∧ c ≠ '\x7b' ∧ c ≠ '\x7d' := by simpa [isInert] using hc
    have hnext : Mode.next .between c = .between := by simp [Mode.next, hc]
    refine ⟨turnsFrom_cons.2 ⟨[], ?_, hnext.symm ▸ nested⟩, ?_⟩
    · simp [Mode.completes, nestAll_cons, Piece.nest, Piece.opens?, Piece.closes?, hc]
    · rw [Mode.after, List.foldl_cons, hnext]
      exact settled

/-- A text that neither runs on from the one before it nor on to the one behind it. -/
structure Separates (text : List Char) : Prop where
  starts : ∃ c ∈ text.head?, ¬ c.isAlpha
  settled : Mode.after .between text = .between

/-- What stands on both sides of a separator is read by itself. -/
theorem TurnsFrom.append_separated {before first second after : List Pair}
    {front separator back : List Char} (hfront : Turns before first front)
    (separates : Separates separator) (hseparator : Turns first second separator)
    (hback : Turns second after back) : Turns before after (front ++ separator ++ back) := by
  obtain ⟨c, hc, hletter⟩ := separates.starts
  obtain ⟨rest, rfl⟩ := List.head?_eq_some_iff.1 hc
  have ends : (Mode.after .between front).EndsBefore (c :: rest) :=
    .inr ⟨hfront.1, by simpa using hletter⟩
  refine (hfront.append hseparator ends).append_of_settled hback ?_
  rw [after_append, ends.after_eq]
  exact separates.settled

/-- Parts that one after the other turn what is open. -/
inductive Chain : List Pair → List Pair → List String → Prop where
  | nil (opened : List Pair) : Chain opened opened []
  | cons {before middle after : List Pair} {part : String} {parts : List String}
      (first : Turns before middle part.toList) (more : Chain middle after parts) :
      Chain before after (part :: parts)

namespace Chain

variable {before middle after : List Pair} {parts others : List String}

theorem append (front : Chain before middle parts) (back : Chain middle after others) :
    Chain before after (parts ++ others) := by
  induction front with
  | nil => exact back
  | cons first _ ih => exact .cons first (ih back)

theorem of_nested (h : ∀ part ∈ parts, Nested part.toList) (opened : List Pair) :
    Chain opened opened parts := by
  induction parts with
  | nil => exact .nil opened
  | cons part parts ih =>
    obtain ⟨first, more⟩ := List.forall_mem_cons.1 h
    exact .cons (first.turns opened) (ih more)

theorem shown (h : Chain before after parts) : Chain before after (parts.filter (· != "")) := by
  induction h with
  | nil opened => exact .nil opened
  | @cons before middle after part parts first more ih =>
    by_cases hempty : part = ""
    · subst hempty
      obtain rfl : before = middle := Option.some.inj first.2
      simpa using ih
    · simpa [hempty] using Chain.cons first ih

theorem intercalate {separator : String} (separates : Separates separator.toList)
    (nested : Nested separator.toList) (h : Chain before after parts) :
    Turns before after (separator.intercalate parts).toList := by
  rw [String.toList_intercalate]
  induction h with
  | nil opened => exact turns_nil opened
  | @cons before middle after part parts first more ih =>
    cases parts with
    | nil =>
      cases more with
      | nil => simpa using first
    | cons next parts =>
      rw [List.map_cons, List.map_cons, List.intercalate_cons_cons]
      exact first.append_separated separates (nested.turns middle) ih

end Chain

open Formula

theorem turns_joinShown {before after : List Pair} {parts : List String}
    (h : Chain before after parts) : Turns before after (joinShown parts).toList :=
  h.shown.intercalate ⟨⟨' ', by decide, by decide⟩, by decide⟩ (by decide)

theorem nested_aligned {body : String} (h : Nested body.toList) : Nested (aligned body).toList := by
  unfold aligned
  rw [String.toList_append, String.toList_append]
  have front : Turns [] [.environment] "\\begin\x7baligned\x7d ".toList := by decide
  have back : Turns [.environment] [] " \\end\x7baligned\x7d".toList := by decide
  have head : " \\end\x7baligned\x7d".toList.head? = some ' ' := by decide
  have opened := front.append_of_settled (h.turns [.environment]) (by decide)
  exact opened.append_of_starts back (starts_of_head? head (by decide))

theorem nested_arrayRows {rows : List (List String)}
    (h : ∀ row ∈ rows, ∀ cell ∈ row, Nested cell.toList) :
    Nested ((" " ++ rowBreak ++ " ").intercalate (rows.map (" & ".intercalate ·))).toList := by
  have cells : Separates " & ".toList := ⟨⟨' ', by decide, by decide⟩, by decide⟩
  have lines : Separates (" " ++ rowBreak ++ " ").toList := ⟨⟨' ', by decide, by decide⟩, by decide⟩
  have hrows : ∀ line ∈ rows.map (" & ".intercalate ·), Nested line.toList := by
    intro line hline
    obtain ⟨row, hrow, rfl⟩ := List.mem_map.1 hline
    exact (Chain.of_nested (h row hrow) []).intercalate cells (by decide)
  exact (Chain.of_nested hrows []).intercalate lines (by decide)

/-- An array between delimiters. -/
theorem nested_arrayOf {left spec right : String} {rows : List (List String)}
    (opens : Turns [] [.delimiters] left.toList) (closes : Turns [.delimiters] [] right.toList)
    (inert : ∀ c ∈ spec.toList, isInert c)
    (h : ∀ row ∈ rows, ∀ cell ∈ row, Nested cell.toList) :
    Nested (arrayOf left spec rows right).toList := by
  have begins : Turns [.delimiters] [.braces, .environment, .delimiters]
      " \\begin\x7barray\x7d\x7b".toList := by decide
  have begins' : Separates " \\begin\x7barray\x7d\x7b".toList :=
    ⟨⟨' ', by decide, by decide⟩, by decide⟩
  have specified : Turns [.braces, .environment, .delimiters] [.environment, .delimiters]
      "\x7d ".toList := by decide
  have specified' : Separates "\x7d ".toList :=
    ⟨⟨'\x7d', by decide, by decide⟩, by decide⟩
  have ends : Turns [.environment, .delimiters] [.delimiters] " \\end\x7barray\x7d ".toList := by
    decide
  have ends' : Separates " \\end\x7barray\x7d ".toList :=
    ⟨⟨' ', by decide, by decide⟩, by decide⟩
  obtain ⟨hspec, -⟩ := nested_of_isInert inert
  have front := opens.append_separated begins' begins (hspec.turns _)
  have body := front.append_separated specified' specified ((nested_arrayRows h).turns _)
  have whole := body.append_separated ends' ends closes
  simpa only [arrayOf, String.toList_append] using whole

section Templates

open Template

variable {α : Type}

/-- The place of an argument stands outside of control sequences and before no letter and no other
place. -/
def fits (arguments : List α) : Mode → List Char → Bool
  | _, [] | _, [_] => true
  | mode, c :: d :: template =>
    if c = '$' ∧ (argument? arguments d).isSome then
      mode == .between && template.head?.all (fun next ↦ !next.isAlpha && next != '$') &&
        fits arguments .between template
    else
      fits arguments (mode.next c) (d :: template)

theorem argument?_map {β : Type} (f : α → β) (arguments : List α) (digit : Char) :
    argument? (arguments.map f) digit = (argument? arguments digit).map f := by
  unfold argument?
  split
  · exact List.getElem?_map
  · split
    · exact List.getElem?_map
    · rfl

theorem mem_of_argument? {arguments : List α} {digit : Char} {argument : α}
    (h : argument? arguments digit = some argument) : argument ∈ arguments := by
  unfold argument? at h
  split at h
  · exact List.mem_of_getElem? h
  · split at h
    · exact List.mem_of_getElem? h
    · simp at h

theorem fill_place {arguments : List (List Char)} {digit : Char} {argument : List Char}
    (h : argument? arguments digit = some argument) (template : List Char) :
    fill arguments ('$' :: digit :: template) = argument ++ fill arguments template := by
  rw [fill, if_pos rfl, h]

theorem fill_char {arguments : List (List Char)} {c d : Char}
    (h : ¬ (c = '$' ∧ (argument? arguments d).isSome)) (template : List Char) :
    fill arguments (c :: d :: template) = c :: fill arguments (d :: template) := by
  rw [fill]
  split
  · next hdollar =>
    have hnone : argument? arguments d = none := by simpa [hdollar] using h
    rw [hnone]
  · rfl

theorem head?_fill {arguments : List (List Char)} {template : List Char}
    (h : template.head?.all fun next ↦ !next.isAlpha && next != '$') :
    ∀ c ∈ (fill arguments template).head?, ¬ c.isAlpha := by
  match template with
  | [] => simp [fill]
  | [c] => simpa [fill] using (by simpa using h : _ ∧ _).1
  | c :: d :: template =>
    have hc : ¬ c.isAlpha ∧ c ≠ '$' := by simpa using h
    rw [fill_char (fun place ↦ hc.2 place.1)]
    simpa using hc.1

/-- Nested arguments turn nothing, so that it is enough to look at the template without them. -/
theorem turnsFrom_fill {arguments : List (List Char)}
    (nested : ∀ argument ∈ arguments, Nested argument) {template : List Char} {mode : Mode}
    {before after : List Pair} (hfits : fits arguments mode template)
    (h : TurnsFrom mode before after (fill (arguments.map fun _ ↦ []) template)) :
    TurnsFrom mode before after (fill arguments template) := by
  induction mode, template using fits.induct arguments generalizing before with
  | case1 => exact h
  | case2 => exact h
  | case3 mode c d template place ih =>
    obtain ⟨rfl, hsome⟩ := place
    obtain ⟨argument, hargument⟩ := Option.isSome_iff_exists.1 hsome
    rw [fits, if_pos ⟨rfl, hsome⟩, Bool.and_eq_true, Bool.and_eq_true, beq_iff_eq] at hfits
    obtain ⟨⟨rfl, hhead⟩, hfits⟩ := hfits
    rw [fill_place (by rw [argument?_map, hargument]; rfl), List.nil_append] at h
    rw [fill_place hargument]
    have here := (nested argument (mem_of_argument? hargument)).turns before
    exact here.append_of_starts (ih hfits h) (head?_fill hhead)
  | case4 mode c d template plain ih =>
    rw [fits, if_neg plain] at hfits
    rw [fill_char (by rwa [argument?_map, Option.isSome_map])] at h
    rw [fill_char plain]
    obtain ⟨middle, hmiddle, hmore⟩ := turnsFrom_cons.1 h
    exact turnsFrom_cons.2 ⟨middle, hmiddle, ih hfits hmore⟩

theorem fits_map {β : Type} (f : α → β) (arguments : List α) (mode : Mode) (template : List Char) :
    fits (arguments.map f) mode template = fits arguments mode template := by
  induction mode, template using fits.induct arguments with
  | case1 => rfl
  | case2 => rfl
  | case3 mode c d template place ih =>
    rw [fits, fits, argument?_map, Option.isSome_map, if_pos place, if_pos place, ih]
  | case4 mode c d template plain ih =>
    rw [fits, fits, argument?_map, Option.isSome_map, if_neg plain, if_neg plain, ih]

/-- A template that makes nested TeX of so many nested arguments. -/
def Nests (arguments : Nat) (template : String) : Prop :=
  fits (List.replicate arguments ()) .between template.toList ∧
    Nested (fill (List.replicate arguments []) template.toList)

instance (arguments : Nat) (template : String) : Decidable (Nests arguments template) :=
  inferInstanceAs (Decidable (_ ∧ _))

theorem nested_apply {template : String} {arguments : List String}
    (h : Nests arguments.length template)
    (nested : ∀ argument ∈ arguments, Nested argument.toList) :
    Nested (apply template arguments).toList := by
  have hfits : fits (arguments.map String.toList) .between template.toList := by
    rw [fits_map, ← fits_map (fun _ ↦ ()), List.map_const']
    exact h.1
  have blank : (arguments.map String.toList).map (fun _ ↦ ([] : List Char)) =
      List.replicate arguments.length [] := by
    rw [List.map_const', List.length_map]
  rw [apply, String.toList_ofList]
  refine turnsFrom_fill ?_ hfits (blank ▸ h.2)
  intro argument hargument
  obtain ⟨argument, hmem, rfl⟩ := List.mem_map.1 hargument
  exact nested argument hmem

end Templates

end AsciiMath.Tex
