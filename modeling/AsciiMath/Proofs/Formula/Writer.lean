import AsciiMath.Formula.Writer
import AsciiMath.Proofs.Tex.Places

/-!
# What is written of a formula

Writing a formula behind something writes its TeX there and never stops halfway. A template is
written with all of its places replaced at once. Neighbours show in one row, whether some of them
have a row of their own or not.
-/

namespace AsciiMath.Formula

open Template

theorem finish?_apply (arguments : List String) (template out : String) :
    PlaceCursor.finish? arguments ⟨out, template.toList⟩ = some (out ++ apply template arguments) :=
  PlaceCursor.finish?_eq arguments ⟨out, template.toList⟩

/-- An empty leaf writes nothing. -/
theorem tex_of_isEmpty {formula : Formula} (h : formula.isEmpty) : formula.tex = "" := by
  cases formula with
  | leaf template source => exact beq_iff_eq.1 h
  | _ => cases h

theorem intercalate_cons (separator part : String) (parts : List String) :
    separator.intercalate (part :: parts) = part ++ String.join (parts.map (separator ++ ·)) := by
  induction parts generalizing part with
  | nil => simp
  | cons next parts ih =>
    rw [String.intercalate_cons_cons, ih]
    simp [String.append_assoc]

/-- The parts that show, as they are written behind others or as the first ones. -/
def joined (first : Bool) (parts : List String) : String :=
  if first then joinShown parts else String.join ((parts.filter (· != "")).map (" " ++ ·))

theorem joined_nil (first : Bool) : joined first [] = "" := by
  cases first <;> rfl

theorem joined_empty (first : Bool) (parts : List String) :
    joined first ("" :: parts) = joined first parts := by
  cases first <;> rfl

theorem joined_cons {part : String} (h : part ≠ "") (first : Bool) (parts : List String) :
    joined first (part :: parts) =
      (if first then "" else " ") ++ part ++ joined false parts := by
  have shown : (part :: parts).filter (· != "") = part :: parts.filter (· != "") :=
    List.filter_cons_of_pos (by simpa using h)
  cases first with
  | true =>
    rw [joined, if_pos rfl, joinShown, shown, intercalate_cons]
    simp [joined]
  | false =>
    simp [joined, shown, String.append_assoc]

theorem intercalate_line (separator line : String) (lines : List String) :
    separator.intercalate (line :: lines) =
      (if lines.isEmpty then line else line ++ separator) ++ separator.intercalate lines := by
  cases lines with
  | nil => simp
  | cons next lines => rw [String.intercalate_cons_cons]; rfl

mutual

theorem write?_eq : ∀ (formula : Formula) (out : String),
    formula.write? out = some (out ++ formula.tex)
  | .leaf template source, out => rfl
  | .flat children, out => by
    rw [write?, writeJoined?_eq true children, tex, texOfList_eq_map]
    rfl
  | .unary template argument, out => by
    rw [write?, write?_eq argument, tex]
    exact finish?_apply [argument.tex] template out
  | .binary template first second, out => by
    rw [write?, write?_eq first, write?_eq second, tex]
    exact finish?_apply [first.tex, second.tex] template out
  | .matrix grid, out => by
    rw [write?, writeRows?_eq grid.rows, tex, arrayOf, texOfRows_eq_map]
    simp only [Option.bind_eq_bind, Option.bind_some, Option.pure_def, String.append_assoc]
  | .root children, out => by
    rw [write?, writeJoined?_eq true children, writeJoined?_eq true children, tex,
      texOfList_eq_map]
    split
    · unfold aligned
      simp [joined, String.append_assoc]
    · rfl
termination_by structural formula => formula

theorem writeJoined?_eq : ∀ (first : Bool) (children : List Formula) (out : String),
    writeJoined? first children out = some (out ++ joined first (children.map tex))
  | first, [], out => by
    rw [writeJoined?, List.map_nil, joined_nil, String.append_empty]
  | first, child :: children, out => by
    rw [writeJoined?, write?_eq child, List.map_cons]
    split
    · next empty => rw [writeJoined?_eq first children, tex_of_isEmpty empty, joined_empty]
    · change (if "" ++ child.tex = "" then _ else _) = _
      rw [String.empty_append]
      -- a child that is no empty leaf can still write nothing
      split
      · next none => rw [writeJoined?_eq first children, none, joined_empty]
      · next shows =>
        rw [writeJoined?_eq false children, joined_cons shows]
        cases first <;> simp [String.append_assoc]
termination_by structural _ children => children

theorem writeRows?_eq : ∀ (rows : List (List Formula)) (out : String),
    writeRows? rows out =
      some (out ++ (" " ++ rowBreak ++ " ").intercalate
        ((rows.map (·.map tex)).map (" & ".intercalate ·)))
  | [], out => by simp [writeRows?]
  | row :: rows, out => by
    rw [writeRows?, writeCells?_eq row]
    change writeRows? rows _ = _
    rw [writeRows?_eq rows, List.map_cons, List.map_cons, intercalate_line]
    cases rows <;> simp [rowBreak, String.append_assoc]
termination_by structural rows => rows

theorem writeCells?_eq : ∀ cells : List Formula, writeCells? cells = some (cells.map tex)
  | [] => rfl
  | cell :: cells => by
    rw [writeCells?, write?_eq cell, writeCells?_eq cells, List.map_cons]
    simp
termination_by structural cells => cells

end

/-- A template is written in one pass, which always comes to its end and puts what the arguments
write for the places, all of them at once: whatever the arguments bring in stays as it is. -/
theorem write?_replaced (template : String) (first second : Formula) :
    (∀ arguments out, PlaceCursor.finish? arguments ⟨out, template.toList⟩ =
      some (out ++ replaced (places arguments) template)) ∧
    (unary template first).tex = replaced [("$1", first.tex)] template ∧
    (binary template first second).tex =
      replaced [("$1", first.tex), ("$2", second.tex)] template ∧
    ∀ out, (unary template first).write? out = some (out ++ (unary template first).tex) ∧
      (binary template first second).write? out =
        some (out ++ (binary template first second).tex) := by
  refine ⟨fun arguments out ↦ ?_, ?_, ?_, fun out ↦ ⟨write?_eq _ out, write?_eq _ out⟩⟩
  · rw [finish?_apply, apply_eq_replaced]
  · rw [tex, apply_eq_replaced]
    rfl
  · rw [tex, apply_eq_replaced]
    rfl

/-- Dollar signs without a digit stay, and the argument that looks like a place is not filled. -/
example : replaced [("$1", "$2"), ("$2", "b")] "$2/$1 costs $$1$" = "b/$2 costs $$2$" := by decide

section

variable {first second parts : List String}

theorem intercalate_nested {separator : String} (h : parts ≠ []) :
    separator.intercalate (first ++ [separator.intercalate parts] ++ second) =
      separator.intercalate (first ++ parts ++ second) := by
  have front : separator.intercalate (first ++ [separator.intercalate parts]) =
      separator.intercalate (first ++ parts) := by
    cases first with
    | nil => exact String.intercalate_singleton
    | cons part first =>
      rw [String.intercalate_append_of_ne_nil (List.cons_ne_nil _ _) (List.cons_ne_nil _ _),
        String.intercalate_append_of_ne_nil (List.cons_ne_nil _ _) h, String.intercalate_singleton]
  cases second with
  | nil => rw [List.append_nil, List.append_nil, front]
  | cons part second =>
    rw [String.intercalate_append_of_ne_nil (by simp) (List.cons_ne_nil _ _), front,
      String.intercalate_append_of_ne_nil (by simp [h]) (List.cons_ne_nil _ _)]

theorem joinShown_eq_empty : joinShown parts = "" ↔ parts.filter (· != "") = [] := by
  constructor
  · intro h
    cases hshown : parts.filter (· != "") with
    | nil => rfl
    | cons part shown =>
      have shows : part ≠ "" := by
        have mem : part ∈ parts.filter (· != "") := hshown ▸ List.mem_cons_self
        simpa using (List.mem_filter.1 mem).2
      rw [joinShown, hshown, intercalate_cons, String.append_eq_empty_iff] at h
      exact absurd h.1 shows
  · intro h
    rw [joinShown, h, String.intercalate_nil]

/-- What neighbours write together is one part, or none. -/
theorem joinShown_nested :
    joinShown (first ++ [joinShown parts] ++ second) = joinShown (first ++ parts ++ second) := by
  simp only [joinShown, List.filter_append]
  by_cases h : parts.filter (· != "") = []
  · simp [h]
  · have shows : joinShown parts ≠ "" := mt joinShown_eq_empty.1 h
    rw [List.filter_cons_of_pos (by simpa [joinShown] using shows), List.filter_nil,
      intercalate_nested h]

end

theorem aligned_ne (body : String) : aligned body ≠ body := by
  intro h
  have lengths := congrArg String.length h
  unfold aligned at lengths
  rw [String.length_append, String.length_append] at lengths
  have : 0 < "\\begin\x7baligned\x7d ".length := by decide
  omega

theorem tex_flat (children : List Formula) :
    (flat children).tex = joinShown (children.map tex) := by
  rw [tex, texOfList_eq_map]

theorem tex_root (children : List Formula) :
    (root children).tex =
      if children.any isAlignPoint then aligned (flat children).tex else (flat children).tex := by
  rw [tex, tex]

/-- Neighbours in a row of their own write what they write among the neighbours of the row: the
parts that show, in order, with one space between two of them. The same holds for a whole formula,
unless the row keeps the only alignment points away from the root. -/
theorem tex_flat_nested (xs ys zs : List Formula) :
    let nested := xs ++ [flat ys] ++ zs
    let body := " ".intercalate (((xs ++ ys ++ zs).map tex).filter (· != ""))
    (flat nested).tex = (flat (xs ++ ys ++ zs)).tex ∧ (flat nested).tex = body ∧
    ((root nested).tex = (root (xs ++ ys ++ zs)).tex ↔
      (ys.any isAlignPoint → xs.any isAlignPoint ∨ zs.any isAlignPoint)) ∧
    ∀ (formula : Formula) (out : String), formula.write? out = some (out ++ formula.tex) := by
  intro nested body
  have whole : (flat (xs ++ ys ++ zs)).tex = body := tex_flat _
  have same : (flat nested).tex = body := by
    calc
      (flat nested).tex =
          joinShown (xs.map tex ++ [joinShown (ys.map tex)] ++ zs.map tex) := by
        rw [tex_flat, List.map_append, List.map_append, List.map_singleton, tex_flat ys]
      _ = joinShown (xs.map tex ++ ys.map tex ++ zs.map tex) := joinShown_nested
      _ = body := by
        rw [← List.map_append, ← List.map_append]
        rfl
  have points : nested.any isAlignPoint = (xs.any isAlignPoint || zs.any isAlignPoint) := by
    rw [List.any_append, List.any_append, List.any_cons, List.any_nil]
    simp [isAlignPoint]
  refine ⟨same.trans whole.symm, same, ?_, write?_eq⟩
  rw [tex_root, tex_root, same, whole, points, List.any_append, List.any_append]
  cases xs.any isAlignPoint <;> cases ys.any isAlignPoint <;> cases zs.any isAlignPoint <;>
    simp [(aligned_ne body).symm]

end AsciiMath.Formula
