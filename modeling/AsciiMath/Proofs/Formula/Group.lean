import AsciiMath.Proofs.Formula.Rows

/-!
# Groups as operands

Brackets without rows are a group of what stands between them. If both of them are brackets that an
operand loses, nothing is left of them where the group is an operand, and what is behind the closer
is left to be read.
-/

namespace AsciiMath

/-- The brackets between matching brackets match, placed as they are. -/
theorem Token.Matched.depthAfter? {tokens : List Token} (matched : Matched tokens) (leads : Bool) :
    Region.depthAfter? 0 (Placed.follow leads tokens) = some 0 := by
  rwa [depthAfter?_eq, Placed.map_token_follow]

/-- A bracket and what is behind it, each part placed on its own. -/
theorem Placed.follow_group (leads : Bool) {opener closer : Token}
    (opens : opener.category = .opener) (closes : closer.category = .closer)
    (inside back : List Token) :
    follow leads (opener :: (inside ++ closer :: back)) =
      ⟨opener, leads⟩ :: (follow false inside ++ ⟨closer, leadsBehind false inside⟩ ::
        follow false back) := by
  have still : opener.category.takesOperand = false := by rw [opens]; rfl
  have after : closer.category.takesOperand = false := by rw [closes]; rfl
  rw [follow, still, follow_append, follow, after]

/-- An opener and a closer that an operand loses. -/
structure Token.GroupBrackets (opener closer : Token) : Prop where
  opens : opener.category = .opener
  closes : closer.category = .closer
  fromOpener : opener.value ∈ Formula.groupOpeners
  fromCloser : closer.value ∈ Formula.groupClosers

namespace Formula

theorem groupBody?_group {opener closer : Token} (brackets : Token.GroupBrackets opener closer)
    (body : List Formula) :
    groupBody? (.flat (ofToken opener :: body ++ [ofToken closer])) = some body := by
  simp [groupBody?, ofToken, isLeafFrom, brackets.fromOpener, brackets.fromCloser]

variable {levels : Nat} {opener closer : Placed} {inside : List Placed}

/-- What stands behind a bracket is not looked at. -/
theorem bracketRegion_append (balanced : Region.depthAfter? 0 inside = some 0)
    (closes : closer.category = .closer) {deeper : Bool → Reader} (leading : List Formula)
    (token : Token) (after : List Placed) :
    bracketRegion deeper leading token (inside ++ closer :: after) =
      (fun found ↦ (found.1, after)) <$>
        bracketRegion deeper leading token (inside ++ [closer]) := by
  rw [bracketRegion, bracketRegion, Region.ofBrackets?_of_balanced balanced closes,
    Region.ofBrackets?_of_balanced balanced closes]
  dsimp only
  split
  · cases grid (deeper true) true leading inside with
    | error cause => rfl
    | ok cells =>
      dsimp only [bind, Except.bind]
      generalize cells.toMatrix _ _ _ = found
      cases found with
      | none => rfl
      | some found => rfl
  · cases sequence (deeper true) inside with
    | error cause => rfl
    | ok body => rfl

section

variable (brackets : Token.GroupBrackets opener.token closer.token)
  (balanced : Region.depthAfter? 0 inside = some 0) (rowless : Region.hasRows 0 inside = false)
  (after : List Placed)

include brackets balanced rowless

theorem read_group_alone :
    read (levels + 1) false opener (inside ++ closer :: after) =
      (fun body ↦ (.flat (ofToken opener.token :: body ++ [ofToken closer.token]), after)) <$>
        sequence (read levels true) inside := by
  simp only [read, readAlone, brackets.opens, bracketRegion,
    Region.ofBrackets?_of_balanced balanced brackets.closes, rowless]
  cases sequence (read levels true) inside with
  | error cause => rfl
  | ok body => rfl

/-- Of a group only what is between its brackets counts, if it is an operand. -/
theorem strippedOperand_group :
    strippedOperand (read (levels + 1)) (opener :: (inside ++ closer :: after)) =
      (fun body ↦ (ofList body, after)) <$> sequence (read levels true) inside := by
  have starts : opener.category ∉ [.separator, .alignMark, .closer] := by
    simp [Placed.category, brackets.opens]
  rw [strippedOperand, operand, if_neg starts, read_group_alone brackets balanced rowless]
  cases sequence (read levels true) inside with
  | error cause => rfl
  | ok body =>
    change Except.ok (stripBrackets (.flat _), after) = _
    rw [stripBrackets, groupBody?_group brackets]
    rfl

end

end Formula

end AsciiMath
