import AsciiMath.Proofs.Tex.Places
import Mathlib.Order.Bounds.Basic

/-!
# How many arguments a template takes

A symbol that is known by its template alone gets its category from the places that occur in the
template. This is how many arguments the template takes: it makes nothing of more of them, and with
fewer of them it keeps a place that would have been filled.
-/

namespace AsciiMath

namespace Symbol

theorem mentions_cons {digit c : Char} {template : List Char} :
    mentions digit (c :: template) ↔
      c = '$' ∧ template.head? = some digit ∨ mentions digit template := by
  rw [mentions, Bool.or_eq_true, Bool.and_eq_true, beq_iff_eq, beq_iff_eq]

theorem mentions_tail {digit c : Char} {template : List Char} (h : mentions digit template) :
    mentions digit (c :: template) := by
  rw [mentions, h, Bool.or_true]

end Symbol

namespace Template

open AsciiMath.Symbol Tex

/-- Only the arguments that have a place matter. -/
theorem fill_congr {first second : List (List Char)} {template : List Char}
    (same : ∀ digit, mentions digit template → argument? first digit = argument? second digit) :
    fill first template = fill second template := by
  induction template using place_induction first with
  | nil => rfl
  | last c => rfl
  | place digit template argument named ih =>
    have here := same digit (by simp [mentions])
    rw [fill_place named, fill_place (here ▸ named)]
    exact congrArg _ (ih fun digit mem ↦ same digit (mentions_tail (mentions_tail mem)))
  | dollar d template none ih =>
    have here := same d (by simp [mentions])
    rw [fill_char (by simp [none]), fill_char (by simp [← here, none])]
    exact congrArg _ (ih fun digit mem ↦ same digit (mentions_tail mem))
  | char c d template plain ih =>
    rw [fill_cons_of_ne plain, fill_cons_of_ne plain]
    exact congrArg _ (ih fun digit mem ↦ same digit (mentions_tail mem))

theorem fill_nil (template : List Char) : fill [] template = template := by
  have none (digit : Char) : argument? ([] : List (List Char)) digit = none := by
    simp [argument?]
  induction template using place_induction ([] : List (List Char)) with
  | nil => rfl
  | last c => rfl
  | place digit template argument named ih => cases (none digit).symm.trans named
  | dollar d template _ ih => rw [fill_char (by simp [none]), ih]
  | char c d template plain ih => rw [fill_cons_of_ne plain, ih]

section

variable {α : Type} {arguments : List α} {short long : α → List Char} {template : List Char}
  (grows : ∀ argument, (short argument).length ≤ (long argument).length)

include grows

/-- Longer arguments make no text shorter. -/
theorem length_fill_le :
    (fill (arguments.map short) template).length ≤
      (fill (arguments.map long) template).length := by
  induction template using place_induction arguments with
  | nil => exact Nat.le_refl _
  | last c => exact Nat.le_refl _
  | place digit template argument named ih =>
    rw [fill_map_place short named, fill_map_place long named, List.length_append,
      List.length_append]
    exact Nat.add_le_add (grows argument) ih
  | dollar d template none ih =>
    rw [fill_map_dollar short none, fill_map_dollar long none]
    exact Nat.succ_le_succ ih
  | char c d template plain ih =>
    rw [fill_cons_of_ne plain, fill_cons_of_ne plain]
    exact Nat.succ_le_succ ih

/-- A longer argument that has a place makes the text longer. -/
theorem length_fill_lt {digit : Char} {argument : α}
    (named : argument? arguments digit = some argument)
    (longer : (short argument).length < (long argument).length) (mem : mentions digit template) :
    (fill (arguments.map short) template).length <
      (fill (arguments.map long) template).length := by
  induction template using place_induction arguments with
  | nil => cases mem
  | last c => simp [mentions] at mem
  | place other template text here ih =>
    rw [fill_map_place short here, fill_map_place long here, List.length_append,
      List.length_append]
    rcases mentions_cons.1 mem with ⟨-, same⟩ | mem
    · obtain rfl := Option.some.inj same
      obtain rfl := Option.some.inj (here.symm.trans named)
      exact Nat.add_lt_add_of_lt_of_le longer (length_fill_le grows)
    · -- the place is not the one that begins here, and none begins with a digit
      have plain : other ≠ '$' := by
        rintro rfl
        cases here
      have mem := (mentions_cons.1 mem).resolve_left fun place ↦ plain place.1
      exact Nat.add_lt_add_of_le_of_lt (grows text) (ih mem)
  | dollar d template none ih =>
    rw [fill_map_dollar short none, fill_map_dollar long none]
    rcases mentions_cons.1 mem with ⟨-, same⟩ | mem
    · obtain rfl := Option.some.inj same
      cases none.symm.trans named
    · exact Nat.succ_lt_succ (ih mem)
  | char c d template plain ih =>
    rw [fill_cons_of_ne plain, fill_cons_of_ne plain]
    have mem := (mentions_cons.1 mem).resolve_left fun place ↦ plain place.1
    exact Nat.succ_lt_succ (ih mem)

end

/-- A template makes nothing of arguments beyond the given number of them. -/
def Takes (template : String) (count : Nat) : Prop :=
  ∀ arguments : List String, count ≤ arguments.length →
    apply template (arguments.take count) = apply template arguments

variable {template : String} {count : Nat}

/-- An argument that has a place shows, so that it can be told from another one. -/
theorem apply_ne_of_mentions {digit : Char} {index : Nat}
    (named : argument? (List.replicate index false ++ [true]) digit = some true)
    (mem : mentions digit template.toList) :
    apply template (List.replicate index "" ++ [""]) ≠
      apply template (List.replicate index "" ++ ["."]) := by
  intro equal
  let arguments := List.replicate index false ++ [true]
  let dotted : Bool → List Char := fun last ↦ if last then ['.'] else []
  have longer : (fill (arguments.map fun _ ↦ []) template.toList).length <
      (fill (arguments.map dotted) template.toList).length :=
    length_fill_lt (fun _ ↦ Nat.zero_le _) named (by decide) mem
  have texts := congrArg (·.toList.length) equal
  simp only [apply, String.toList_ofList, List.map_append, List.map_replicate] at texts
  simp only [arguments, List.map_append, List.map_replicate] at longer
  exact absurd texts (Nat.ne_of_lt longer)

/-- A template takes the argument of each of its places. -/
theorem lt_of_takes {digit : Char} {index : Nat}
    (named : argument? (List.replicate index false ++ [true]) digit = some true)
    (mem : mentions digit template.toList) (takes : Takes template count) : index < count := by
  refine Nat.lt_of_not_le fun few ↦ apply_ne_of_mentions named mem ?_
  have front (last : String) : apply template ((List.replicate index "").take count) =
      apply template (List.replicate index "" ++ [last]) := by
    have within : count ≤ (List.replicate index "").length := by simpa using few
    have enough : count ≤ (List.replicate index "" ++ [last]).length := within.trans (by simp)
    rw [← takes _ enough, List.take_append_of_le_length within]
  exact (front "").symm.trans (front ".")

theorem argument?_take {digit : Char} (first : digit = '1' → 1 ≤ count)
    (second : digit = '2' → 2 ≤ count) (arguments : List String) :
    argument? (arguments.take count) digit = argument? arguments digit := by
  unfold argument?
  split
  · next same => exact List.getElem?_take_of_lt (first same)
  · split
    · next same => exact List.getElem?_take_of_lt (second same)
    · rfl

/-- The arguments that a template takes serve all of its places. -/
theorem argument?_take_of_takes {digit : Char} (takes : Takes template count)
    (mem : mentions digit template.toList) (arguments : List String) :
    argument? (arguments.take count) digit = argument? arguments digit := by
  refine argument?_take ?_ ?_ arguments
  · rintro rfl
    exact lt_of_takes rfl mem takes
  · rintro rfl
    exact lt_of_takes rfl mem takes

theorem takes_iff :
    Takes template count ↔
      (mentions '1' template.toList → 1 ≤ count) ∧ (mentions '2' template.toList → 2 ≤ count) := by
  constructor
  · intro takes
    exact ⟨fun mem ↦ lt_of_takes rfl mem takes, fun mem ↦ lt_of_takes rfl mem takes⟩
  · rintro ⟨first, second⟩ arguments -
    rw [apply, apply]
    refine congrArg String.ofList (fill_congr fun digit mem ↦ ?_)
    rw [argument?_map, argument?_map, argument?_take]
    · rintro rfl
      exact first mem
    · rintro rfl
      exact second mem

theorem apply_of_takes_zero (takes : Takes template 0) (arguments : List String) :
    apply template arguments = template := by
  rw [← takes arguments (Nat.zero_le _), List.take_zero, apply, List.map_nil, fill_nil,
    String.ofList_toList]

/-- How many operands are read behind a keyword of a category, if it is known by its template. -/
def operands? : Category → Option Nat
  | .constant => some 0
  | .prefixUnary => some 1
  | .prefixBinary => some 2
  | _ => none

theorem operands?_eq_some (template : String) :
    ∃ count, operands? (ofTemplate template).category = some count ∧
      IsLeast {count | Takes template count} count := by
  by_cases second : mentions '2' template.toList
  · refine ⟨2, by simp [ofTemplate, second, operands?], ?_, fun count takes ↦ ?_⟩
    · exact takes_iff.2 ⟨fun _ ↦ by decide, fun _ ↦ by decide⟩
    · exact (takes_iff.1 takes).2 second
  · by_cases first : mentions '1' template.toList
    · refine ⟨1, by simp [ofTemplate, first, second, operands?], ?_, fun count takes ↦ ?_⟩
      · exact takes_iff.2 ⟨fun _ ↦ by decide, fun mem ↦ absurd mem second⟩
      · exact (takes_iff.1 takes).1 first
    · refine ⟨0, by simp [ofTemplate, first, second, operands?], ?_, fun count _ ↦ Nat.zero_le _⟩
      exact takes_iff.2 ⟨fun mem ↦ absurd mem first, fun mem ↦ absurd mem second⟩

/-- The category of a symbol that is known by its template asks for as many operands as the template
takes, and for no more: with fewer of them a place would be left. They serve every place that more
of them could fill. A constant is written as its template. -/
theorem operands?_ofTemplate (template : String) :
    ∃ count, operands? (ofTemplate template).category = some count ∧
      IsLeast {count | Takes template count} count ∧
      (∀ arguments : List String, ∀ digit, mentions digit template.toList →
        argument? (arguments.take count) digit = argument? arguments digit) ∧
      (count = 0 → ∀ arguments, apply template arguments = template) := by
  obtain ⟨count, named, least⟩ := operands?_eq_some template
  have takes : Takes template count := least.1
  refine ⟨count, named, least, ?_, ?_⟩
  · exact fun arguments digit mem ↦ argument?_take_of_takes takes mem arguments
  · rintro rfl
    exact apply_of_takes_zero takes

end Template

end AsciiMath
