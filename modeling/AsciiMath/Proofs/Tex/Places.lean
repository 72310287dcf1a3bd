import AsciiMath.Formula.PlaceCursor
import AsciiMath.Proofs.Tex.Compose
import AsciiMath.Proofs.Text.Cut

/-!
# Places in templates

The places of a template are the occurrences of a few keys, no two of which overlap. Filling the
template puts a text for each occurrence, all at once, and keeps every other character. A cursor
that looks for dollar signs in the bytes of the template writes the same, and it stops at characters
only: a byte of ASCII is a character of its own wherever it is found.
-/

namespace AsciiMath

/-- A byte of ASCII begins the one character that it is. -/
theorem Text.utf8EncodeChar_head? {c digit : Char} (ascii : digit.toNat < 128) :
    (String.utf8EncodeChar c)[0]? = some digit.toUInt8 ↔ c = digit := by
  have code : digit.toUInt8.toNat = digit.toNat := by
    change digit.toNat % 256 = _
    omega
  have value : c.val.toNat = c.toNat := rfl
  rw [← Char.toNat_inj, String.utf8EncodeChar, value]
  split_ifs
  all_goals
    simp only [List.getElem?_cons_zero, Option.some.injEq, ← UInt8.toNat_inj, UInt8.toNat_ofNat',
      code]
    omega

namespace Template

open Tex

theorem fill_cons_of_ne {c : Char} (h : c ≠ '$') (arguments : List (List Char))
    (template : List Char) : fill arguments (c :: template) = c :: fill arguments template := by
  cases template with
  | nil => rfl
  | cons d template => exact fill_char (fun place ↦ h place.1) template

/-- What stands before the first dollar sign is kept. -/
theorem fill_append {front : List Char} (plain : '$' ∉ front) (arguments : List (List Char))
    (template : List Char) :
    fill arguments (front ++ template) = front ++ fill arguments template := by
  induction front with
  | nil => rfl
  | cons c cs ih =>
    obtain ⟨hc, hcs⟩ := not_or.1 (mt List.mem_cons.2 plain)
    rw [List.cons_append, fill_cons_of_ne (Ne.symm hc), ih hcs, List.cons_append]

/-- Without a dollar sign there is nothing to fill. -/
theorem fill_of_notMem {template : List Char} (plain : '$' ∉ template)
    (arguments : List (List Char)) : fill arguments template = template := by
  have kept := fill_append plain arguments []
  rwa [fill, List.append_nil] at kept

section

variable {α : Type} {arguments : List α}

/-- A template with more than one character begins with a place, with a dollar sign that begins
none, or with another character. -/
@[elab_as_elim]
theorem place_induction (arguments : List α) {motive : List Char → Prop} (nil : motive [])
    (last : ∀ c, motive [c])
    (place : ∀ digit template argument, argument? arguments digit = some argument →
      motive template → motive ('$' :: digit :: template))
    (dollar : ∀ d template, argument? arguments d = none →
      motive (d :: template) → motive ('$' :: d :: template))
    (char : ∀ c d template, c ≠ '$' → motive (d :: template) → motive (c :: d :: template))
    (template : List Char) : motive template := by
  induction template using fill.induct (arguments.map fun _ ↦ []) with
  | case1 => exact nil
  | case2 c => exact last c
  | case3 d template _ found ih =>
    rw [argument?_map] at found
    obtain ⟨argument, named, -⟩ := Option.map_eq_some_iff.1 found
    exact place d template argument named ih
  | case4 d template none ih =>
    rw [argument?_map, Option.map_eq_none_iff] at none
    exact dollar d template none ih
  | case5 c d template plain ih => exact char c d template plain ih

theorem fill_map_place {digit : Char} {argument : α} (shown : α → List Char)
    (named : argument? arguments digit = some argument) (template : List Char) :
    fill (arguments.map shown) ('$' :: digit :: template) =
      shown argument ++ fill (arguments.map shown) template :=
  fill_place (by rw [argument?_map, named]; rfl) template

theorem fill_map_dollar {d : Char} (shown : α → List Char) (none : argument? arguments d = none)
    (template : List Char) :
    fill (arguments.map shown) ('$' :: d :: template) =
      '$' :: fill (arguments.map shown) (d :: template) :=
  fill_char (by simp [argument?_map, none]) template

end

/-- The argument whose place a dollar sign begins before a text. -/
def placed? (arguments : List String) (text : List Char) : Option String :=
  text.head?.bind (argument? arguments)

theorem fill_dollar (arguments : List String) (template : List Char) :
    fill (arguments.map String.toList) ('$' :: template) =
      match placed? arguments template with
      | some argument => argument.toList ++ fill (arguments.map String.toList) template.tail
      | none => '$' :: fill (arguments.map String.toList) template := by
  cases template with
  | nil => rfl
  | cons d template =>
    change _ = match argument? arguments d with | some _ => _ | none => _
    cases h : argument? arguments d with
    | some argument => exact fill_map_place String.toList h template
    | none => exact fill_map_dollar String.toList h template

/-- The key that occurs at an offset of a text, with what is written for it. -/
def keyAt? (keys : List (String × String)) (text : List Char) (offset : Nat) :
    Option (String × String) :=
  keys.find? fun key ↦ key.1.toList.isPrefixOf (text.drop offset)

/-- Whether a character belongs to a key that begins before it. -/
def isInside (keys : List (String × String)) (text : List Char) (offset : Nat) : Bool :=
  (List.range offset).any fun start ↦
    (keyAt? keys text start).any fun key ↦ offset < start + key.1.length

/-- What is written for the character at an offset: the text of a key that begins there, nothing
inside of a key, and the character itself anywhere else. -/
def writtenAt (keys : List (String × String)) (text : List Char) (offset : Nat) : List Char :=
  match keyAt? keys text offset with
  | some key => key.2.toList
  | none => if isInside keys text offset then [] else text[offset]?.toList

/-- The template in which all keys are replaced at once. -/
def replaced (keys : List (String × String)) (template : String) : String :=
  String.ofList ((List.range template.length).flatMap (writtenAt keys template.toList))

/-- The places of arguments, with the arguments. -/
def places (arguments : List String) : List (String × String) := ["$1", "$2"].zip arguments

section

variable {keys : List (String × String)} {c : Char} {text : List Char} {offset : Nat}

theorem isInside_cons_succ :
    isInside keys (c :: text) (offset + 1) =
      ((keyAt? keys (c :: text) 0).any (fun key ↦ offset + 1 < key.1.length) ||
        isInside keys text offset) := by
  rw [isInside, List.range_succ_eq_map, List.any_cons, List.any_map]
  congr 1
  · simp only [Nat.zero_add]
  · rw [isInside]
    congr 1
    funext start
    simp only [Function.comp_apply, Nat.succ_eq_add_one, Nat.add_right_comm start 1,
      Nat.add_lt_add_iff_right]
    rfl

/-- A key that begins at the first character has an effect on the characters it covers only. -/
theorem writtenAt_cons_succ
    (h : (keyAt? keys (c :: text) 0).all fun key ↦ key.1.length ≤ offset + 1) :
    writtenAt keys (c :: text) (offset + 1) = writtenAt keys text offset := by
  have covered : (keyAt? keys (c :: text) 0).any (fun key ↦ offset + 1 < key.1.length) = false := by
    cases hkey : keyAt? keys (c :: text) 0 with
    | none => rfl
    | some key =>
      rw [hkey] at h
      simpa using h
  rw [writtenAt, isInside_cons_succ, covered, Bool.false_or]
  rfl

theorem flatMap_writtenAt_cons (h : keyAt? keys (c :: text) 0 = none) :
    (List.range (c :: text).length).flatMap (writtenAt keys (c :: text)) =
      c :: (List.range text.length).flatMap (writtenAt keys text) := by
  have first : writtenAt keys (c :: text) 0 = [c] := by
    rw [writtenAt, h]
    rfl
  rw [List.length_cons, List.range_succ_eq_map, List.flatMap_cons, List.flatMap_map, first]
  rw [List.singleton_append]
  congr 1
  refine List.flatMap_congr fun offset _ ↦ writtenAt_cons_succ ?_
  rw [h]
  rfl

/-- A key of two characters is passed over as a whole. -/
theorem flatMap_writtenAt_key {d : Char} {key : String × String}
    (h : keyAt? keys (c :: d :: text) 0 = some key) (two : key.1.length = 2)
    (alone : keyAt? keys (d :: text) 0 = none) :
    (List.range (c :: d :: text).length).flatMap (writtenAt keys (c :: d :: text)) =
      key.2.toList ++ (List.range text.length).flatMap (writtenAt keys text) := by
  have first : writtenAt keys (c :: d :: text) 0 = key.2.toList := by
    rw [writtenAt, h]
  -- the digit is inside of the key and begins none itself
  have second : writtenAt keys (c :: d :: text) 1 = [] := by
    have inside : isInside keys (c :: d :: text) 1 := by
      rw [isInside_cons_succ, h]
      simp [two]
    change keyAt? keys (c :: d :: text) 1 = none at alone
    rw [writtenAt, alone]
    exact if_pos inside
  have behind (offset : Nat) :
      writtenAt keys (c :: d :: text) (offset + 1 + 1) = writtenAt keys text offset := by
    rw [writtenAt_cons_succ (by simp [h, two]), writtenAt_cons_succ (by simp [alone])]
  rw [List.length_cons, List.length_cons, List.range_succ_eq_map, List.range_succ_eq_map,
    List.flatMap_cons, List.flatMap_map, List.flatMap_cons, List.flatMap_map, first]
  simp only [Nat.succ_eq_add_one, Nat.zero_add, second, behind, List.nil_append]

end

theorem keyAt?_places (arguments : List String) (c d : Char) (text : List Char) :
    keyAt? (places arguments) (c :: d :: text) 0 =
      if c = '$' then (argument? arguments d).map fun argument ↦ (String.ofList ['$', d], argument)
      else none := by
  rw [keyAt?, List.drop_zero, argument?]
  split_ifs with dollar first second
  · subst dollar first
    cases arguments <;> simp [places]
  · subst dollar second
    match arguments with
    | [] | [_] | _ :: _ :: _ => simp [places]
  · subst dollar
    match arguments with
    | [] | [_] | _ :: _ :: _ => simp [places, Ne.symm first, Ne.symm second]
  · match arguments with
    | [] | [_] | _ :: _ :: _ => simp [places, Ne.symm dollar]

theorem keyAt?_places_singleton (arguments : List String) (c : Char) :
    keyAt? (places arguments) [c] 0 = none := by
  match arguments with
  | [] | [_] | _ :: _ :: _ => simp [keyAt?, places]

/-- No place begins with the digit of another one. -/
theorem keyAt?_digit {arguments : List String} {digit : Char} {argument : String}
    (h : argument? arguments digit = some argument) (text : List Char) :
    keyAt? (places arguments) (digit :: text) 0 = none := by
  have other : digit ≠ '$' := by
    rintro rfl
    cases h
  cases text with
  | nil => exact keyAt?_places_singleton arguments digit
  | cons d text => rw [keyAt?_places, if_neg other]

theorem fill_eq_flatMap (arguments : List String) (template : List Char) :
    fill (arguments.map String.toList) template =
      (List.range template.length).flatMap (writtenAt (places arguments) template) := by
  induction template using place_induction arguments with
  | nil => rfl
  | last c =>
    rw [flatMap_writtenAt_cons (keyAt?_places_singleton arguments c)]
    rfl
  | place digit template argument named ih =>
    have here := keyAt?_places arguments '$' digit template
    rw [if_pos rfl, named] at here
    rw [fill_map_place String.toList named, ih]
    exact (flatMap_writtenAt_key here String.length_ofList (keyAt?_digit named template)).symm
  | dollar d template none ih =>
    have here := keyAt?_places arguments '$' d template
    rw [if_pos rfl, none] at here
    rw [fill_map_dollar String.toList none, ih]
    exact (flatMap_writtenAt_cons here).symm
  | char c d template plain ih =>
    rw [fill_cons_of_ne plain, ih]
    exact (flatMap_writtenAt_cons (by rw [keyAt?_places, if_neg plain])).symm

/-- Filling a template is replacing the keys of its places. -/
theorem apply_eq_replaced (template : String) (arguments : List String) :
    apply template arguments = replaced (places arguments) template := by
  rw [apply, replaced, fill_eq_flatMap, String.length_toList]

end Template

namespace PlaceCursor

open Template

theorem dollar?_eq_none {text : List Char} (h : dollar? text = none) : '$' ∉ text := by
  induction text with
  | nil => exact List.not_mem_nil
  | cons c text ih =>
    rw [dollar?] at h
    split at h
    · cases h
    · next other =>
      rw [List.mem_cons, not_or]
      exact ⟨fun same ↦ other same.symm, ih (Option.map_eq_none_iff.1 h)⟩

theorem dollar?_eq_some {text : List Char} {offset : Nat} (h : dollar? text = some offset) :
    ∃ front back, text = front ++ '$' :: back ∧ '$' ∉ front ∧ Text.byteLength front = offset := by
  induction text generalizing offset with
  | nil => cases h
  | cons c text ih =>
    rw [dollar?] at h
    split at h
    · next same =>
      obtain rfl := Option.some.inj h
      exact ⟨[], text, by rw [same]; rfl, List.not_mem_nil, rfl⟩
    · next other =>
      obtain ⟨offset, found, rfl⟩ := Option.map_eq_some_iff.1 h
      obtain ⟨front, back, rfl, clean, rfl⟩ := ih found
      refine ⟨c :: front, back, rfl, ?_, rfl⟩
      rw [List.mem_cons, not_or]
      exact ⟨fun same ↦ other same.symm, clean⟩

theorem byteAt?_append (front text : List Char) :
    byteAt? (front ++ text) (Text.byteLength front) = byteAt? text 0 := by
  rw [byteAt?, ← Nat.add_zero (Text.byteLength front), Text.getElem?_bytes_append]
  rfl

/-- The byte that is looked at tells the character. -/
theorem argument?_byteAt? (arguments : List String) (text : List Char) :
    argument? arguments (byteAt? text 0) = placed? arguments text := by
  cases text with
  | nil => rfl
  | cons c text =>
    have nonempty : 0 < (String.utf8EncodeChar c).length := by
      rw [String.length_utf8EncodeChar]
      exact c.utf8Size_pos
    have first : byteAt? (c :: text) 0 = (String.utf8EncodeChar c)[0]? := by
      rw [byteAt?, List.flatMap_cons, List.getElem?_append_left nonempty]
    change _ = Template.argument? arguments c
    rw [first, argument?, Template.argument?]
    simp only [Text.utf8EncodeChar_head? (show '1'.toNat < 128 by decide),
      Text.utf8EncodeChar_head? (show '2'.toNat < 128 by decide)]

theorem exists_digit {arguments : List String} {text : List Char} {argument : String}
    (h : placed? arguments text = some argument) :
    ∃ digit rest, text = digit :: rest ∧ digit.utf8Size = 1 := by
  cases text with
  | nil => cases h
  | cons digit rest =>
    refine ⟨digit, rest, rfl, ?_⟩
    change Template.argument? arguments digit = some argument at h
    rw [Template.argument?] at h
    split at h
    · next same => exact same ▸ rfl
    · split at h
      · next same => exact same ▸ rfl
      · cases h

/-- Every cut falls where a character ends. -/
theorem advance?_eq (arguments : List String) (out : String) (front back : List Char) :
    advance? arguments (Text.byteLength front) ⟨out, front ++ '$' :: back⟩ =
      match placed? arguments back with
      | some argument => some ⟨out ++ String.ofList front ++ argument, back.tail⟩
      | none => some ⟨out ++ String.ofList front ++ "$", back⟩ := by
  have alone : front ++ '$' :: back = front ++ ['$'] ++ back := by simp
  have count : Text.byteLength front + 1 = Text.byteLength (front ++ ['$']) := by
    rw [Text.byteLength_append]
    rfl
  have peeked : argument? arguments (byteAt? (front ++ '$' :: back) (Text.byteLength front + 1)) =
      placed? arguments back := by
    rw [count, alone, byteAt?_append, argument?_byteAt?]
  rw [advance?]
  dsimp only
  rw [Text.splitBytes?_append, peeked]
  cases h : placed? arguments back with
  | none =>
    rw [count, alone, Text.splitBytes?_append]
    rfl
  | some argument =>
    obtain ⟨digit, rest, rfl, one⟩ := exists_digit h
    have together : front ++ '$' :: digit :: rest = front ++ ['$', digit] ++ rest := by simp
    have count : Text.byteLength front + 2 = Text.byteLength (front ++ ['$', digit]) := by
      rw [Text.byteLength_append, Text.byteLength_cons, Text.byteLength_cons, one]
      rfl
    rw [count, together, Text.splitBytes?_append]
    rfl

theorem finish?_of_dollar? {arguments : List String} {cursor next : PlaceCursor} {offset : Nat}
    (found : dollar? cursor.rest = some offset)
    (passed : advance? arguments offset cursor = some next) :
    finish? arguments cursor = finish? arguments next := by
  rw [finish?, found]
  dsimp only
  split
  · next stuck => cases stuck.symm.trans passed
  · next other h => rw [Option.some.inj (h.symm.trans passed)]

/-- The cursor comes to the end of every template, and has then written it with its places
filled. -/
theorem finish?_eq (arguments : List String) (cursor : PlaceCursor) :
    finish? arguments cursor =
      some (cursor.written ++ String.ofList (fill (arguments.map String.toList) cursor.rest)) := by
  induction cursor using finish?.induct arguments with
  | case1 cursor none =>
    rw [finish?, none, fill_of_notMem (dollar?_eq_none none)]
  | case2 cursor offset found stuck =>
    -- the template is never cut inside a character
    obtain ⟨front, back, hrest, -, rfl⟩ := dollar?_eq_some found
    obtain ⟨out, rest⟩ := cursor
    obtain rfl : rest = front ++ '$' :: back := hrest
    rw [advance?_eq] at stuck
    split at stuck <;> cases stuck
  | case3 cursor offset found next passed ih =>
    obtain ⟨front, back, hrest, clean, rfl⟩ := dollar?_eq_some found
    obtain ⟨out, rest⟩ := cursor
    obtain rfl : rest = front ++ '$' :: back := hrest
    rw [finish?_of_dollar? found passed, ih, fill_append clean, fill_dollar]
    rw [advance?_eq] at passed
    cases h : placed? arguments back with
    | some argument =>
      rw [h] at passed
      obtain rfl := Option.some.inj passed
      simp only [String.ofList_append, String.ofList_toList, String.append_assoc]
    | none =>
      rw [h] at passed
      obtain rfl := Option.some.inj passed
      have dollar (text : List Char) : String.ofList ('$' :: text) = "$" ++ String.ofList text :=
        @String.ofList_append ['$'] text
      simp only [String.ofList_append, dollar, String.append_assoc]

end PlaceCursor

end AsciiMath
