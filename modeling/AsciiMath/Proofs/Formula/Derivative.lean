import AsciiMath.Proofs.Formula.Chain
import AsciiMath.Proofs.Formula.Group

/-!
# Derivatives

A derivative names one variable for each time that its operator is written in the denominator.
Several variables stand in brackets, and then the order is left to them. With one variable or none
the order is written behind it, and without anything behind the function there is no denominator.
-/

namespace AsciiMath

open Formula

/-- The variables of a derivative. -/
inductive Differential where
  /-- Any number of names in brackets that an operand loses. -/
  | group (opener closer : Token) (names : List Token)
    (brackets : Token.GroupBrackets opener closer)
    (leaves : ∀ name ∈ names, name.category.isLeaf)
  | scripted (name : Token) (scripts : List LeafScript)
    (category : name.category ∈ [.letter, .run, .text]) (few : scripts.length ≤ 63)
  | nothing

namespace Differential

def tokens : Differential → List Token
  | group opener closer names _ _ => opener :: names ++ [closer]
  | scripted name scripts _ _ => name :: scripts.flatMap LeafScript.tokens
  | nothing => []

/-- What is written below the function, with the operator and the order of the derivative. -/
def denominator (operator : Formula) (order : List Formula) : Differential → Formula
  | group _ _ [] _ _ => .flat (operator :: order)
  | group _ _ [name] _ _ => .flat (operator :: ofToken name :: order)
  | group _ _ names _ _ => .flat (names.flatMap fun name ↦ [operator, ofToken name])
  | scripted name scripts _ _ =>
    .flat (operator :: scripts.foldl LeafScript.onto (ofToken name) :: order)
  | nothing => empty

end Differential

namespace Formula

theorem denominator_group (operator : Formula) (order : List Formula) {opener closer : Token}
    {names : List Token} (brackets leaves) :
    denominator operator order (names.map ofToken) =
      (Differential.group opener closer names brackets leaves).denominator operator order := by
  rcases names with _ | ⟨first, _ | ⟨second, names⟩⟩
  · rfl
  · rfl
  · simp [denominator, Differential.denominator, List.flatMap_map]

/-- Names in brackets that an operand loses are all there is by which to derive. -/
theorem derivativeTerms_group (levels limit : Nat) {opener closer : Token} {names : List Token}
    (brackets : Token.GroupBrackets opener closer)
    (leaves : ∀ name ∈ names, name.category.isLeaf) (leads : Bool) :
    derivativeTerms (read (levels + 2)) limit ⟨opener, leads⟩
        (Placed.follow false (names ++ [closer])) =
      .ok (names.map ofToken, []) := by
  have placed (name : Placed) (mem : name ∈ Placed.follow false names) :
      name.token.category.isLeaf := by
    refine leaves name.token ?_
    rw [← Placed.map_token_follow false names]
    exact List.mem_map_of_mem mem
  have still (name : Token) (mem : name ∈ names) : name.category ∉ [.opener, .closer] := by
    have leaf := leaves name mem
    cases category : name.category <;> simp_all [Category.isLeaf]
  have balanced : Region.depthAfter? 0 (Placed.follow false names) = some 0 :=
    (Token.matched_of_forall still).1.depthAfter? false
  have rowless : Region.hasRows 0 (Placed.follow false names) = false := by
    refine Region.hasRows_of_forall_not fun name mem ↦ ?_
    have leaf := placed name mem
    cases category : name.token.category <;> simp_all [Token.isRowSeparator, Category.isLeaf]
  have made : sequence (read (levels + 1) true) (Placed.follow false names) =
      .ok (names.map ofToken) := by
    rw [sequence_leaves levels placed]
    conv_rhs => rw [← Placed.map_token_follow false names, List.map_map]
    rfl
  have term : read (levels + 2) false ⟨opener, leads⟩ (Placed.follow false (names ++ [closer])) =
      .ok (.flat (ofToken opener :: names.map ofToken ++ [ofToken closer]), []) := by
    have group := @read_group_alone (levels + 1) ⟨opener, leads⟩
      ⟨closer, Placed.leadsBehind false names⟩ _ brackets balanced rowless []
    rw [made] at group
    rw [Placed.follow_append]
    exact group
  simp only [derivativeTerms, term, bind, Except.bind, groupBody?_group brackets]
  rfl

/-- A name is derived by together with its scripts. -/
theorem derivativeTerms_scripted (levels : Nat) {limit : Nat} {name : Token}
    (leaf : name.category.isLeaf) {scripts : List LeafScript} (few : scripts.length ≤ limit)
    (leads : Bool) :
    derivativeTerms (read (levels + 1)) limit ⟨name, leads⟩
        (Placed.follow false (scripts.flatMap LeafScript.tokens)) =
      .ok ([scripts.foldl LeafScript.onto (ofToken name)], []) := by
  have unopened : Unopened (scripts.flatMap LeafScript.tokens) := by
    have alone := @unopened_scripts scripts [] (by simp [Unopened])
    rwa [List.append_nil] at alone
  have attached := @attachScripts_ok levels limit (ofToken name) scripts few [] (by simp [Unopened])
    (by simp)
  rw [List.append_nil] at attached
  rw [derivativeTerms, read, readAlone_follow leaf unopened]
  change (attachScripts _ _ (ofToken name) _ >>= _) = _
  rw [attached]
  rfl

/-- The order of a derivative, as it is written. -/
def orderOf (order : Option LeafScript) : List Formula :=
  order.toList.map fun script ↦ .unary script.operator.template (ofToken script.argument)

/-- The order is a script with a leaf, or there is none before a leaf. -/
theorem derivativeOrder_ok (levels : Nat) {order : Option LeafScript}
    (above : ∀ script ∈ order, script.operator.value = "^") {function : Token}
    (leaf : function.category.isLeaf) (rest : List Token) :
    ∃ leads, derivativeOrder (read (levels + 1))
        (Placed.follow true (order.toList.flatMap LeafScript.tokens ++ function :: rest)) =
      .ok (orderOf order, Placed.follow leads (function :: rest)) := by
  cases order with
  | none =>
    have category : function.category ≠ .script := fun script ↦ by
      simp [script, Category.isLeaf] at leaf
    have other : leadingScript? isAbove (Placed.follow true (function :: rest)) = none := by
      simp [Placed.follow, leadingScript?, Placed.category, category]
    refine ⟨true, ?_⟩
    change derivativeOrder _ (Placed.follow true (function :: rest)) = _
    simp only [derivativeOrder, other]
    rfl
  | some script =>
    have unopened : Unopened (function :: rest) := by
      rintro next ⟨⟩ opens
      simp [opens, Category.isLeaf] at leaf
    have found : leadingScript? isAbove
        (Placed.follow true (script.operator :: script.argument :: function :: rest)) =
          some (script.operator, Placed.follow script.operator.category.takesOperand
            (script.argument :: function :: rest)) := by
      rw [Placed.follow, leadingScript?, if_pos]
      simp [Placed.category, script.category, isAbove, above script rfl]
    have argument := strippedOperand_leaf levels script.leaf unopened
      script.operator.category.takesOperand
    refine ⟨false, ?_⟩
    change derivativeOrder _ (Placed.follow true
      (script.operator :: script.argument :: function :: rest)) = _
    simp only [derivativeOrder, found, argument, bind, Except.bind]
    rfl

/-- Where variables begin, they are read, and make the denominator. -/
theorem exists_derivativeTerms (differential : Differential) :
    differential = .nothing ∨ ∃ token tokens terms, startsVariable token.category ∧
      Placed.follow false differential.tokens = token :: tokens ∧
      derivativeTerms (read 63) 63 token tokens = .ok (terms, []) ∧
      ∀ operator order, Formula.denominator operator order terms =
        differential.denominator operator order := by
  cases differential with
  | nothing => exact .inl rfl
  | group opener closer names brackets leaves =>
    have still : opener.category.takesOperand = false := by rw [brackets.opens]; rfl
    refine .inr ⟨⟨opener, false⟩, Placed.follow false (names ++ [closer]), names.map ofToken,
      ?_, ?_, derivativeTerms_group 61 63 brackets leaves false,
      fun operator order ↦ denominator_group operator order brackets leaves⟩
    · simp [startsVariable, Placed.category, brackets.opens]
    · rw [← still]
      rfl
  | scripted name scripts category few =>
    obtain ⟨leaf, starts⟩ : name.category.isLeaf ∧ startsVariable name.category := by
      simp only [List.mem_cons, List.not_mem_nil, or_false] at category
      rcases category with h | h | h <;> rw [h] <;> exact ⟨rfl, rfl⟩
    refine .inr ⟨⟨name, false⟩, Placed.follow false (scripts.flatMap LeafScript.tokens), _, starts,
      ?_, derivativeTerms_scripted 62 leaf few false, fun operator order ↦ rfl⟩
    rw [← takesOperand_of_isLeaf leaf]
    rfl

/-- A derivative is a fraction of the operator with its order and the function, above the operator
in front of each variable. -/
theorem ofTokens_derivative {operator function : Token} (category : operator.category = .derivative)
    {order : Option LeafScript} (above : ∀ script ∈ order, script.operator.value = "^")
    (leaf : function.category.isLeaf) (unruled : function.flag ≠ some .rowRule)
    (differential : Differential) :
    ofTokens (operator :: order.toList.flatMap LeafScript.tokens ++
        function :: differential.tokens) =
      .ok (.root [.binary fractionTemplate
        (.flat (ofToken operator :: orderOf order ++ [ofToken function]))
        (differential.denominator (ofToken operator) (orderOf order))]) := by
  have levels : maxLevels = 63 + 1 := rfl
  have first : operator.category.takesOperand = true := by rw [category]; rfl
  obtain ⟨leads, readOrder⟩ := derivativeOrder_ok 62 above leaf differential.tokens
  have readFunction : strippedOperand (read 63) (Placed.follow leads
      (function :: differential.tokens)) =
      .ok (ofToken function, Placed.follow false differential.tokens) := by
    rw [strippedOperand, operand_unruled 62 leaf (fun flag ↦ absurd flag unruled)]
    rfl
  have fraction : derivativeOf (read 63) 63 operator (Placed.follow true
      (order.toList.flatMap LeafScript.tokens ++ function :: differential.tokens)) =
      .ok (.binary fractionTemplate
        (.flat (ofToken operator :: orderOf order ++ [ofToken function]))
        (differential.denominator (ofToken operator) (orderOf order)), []) := by
    simp only [derivativeOf, readOrder, readFunction, bind, Except.bind]
    rcases exists_derivativeTerms differential with
      rfl | ⟨token, tokens, terms, starts, placed, read, written⟩
    · rfl
    · simp only [placed, starts, read, written]
      rfl
  rw [ofTokens, Placed.ofTokens, levels, List.cons_append, Placed.follow, first, sequence_cons,
    Formula.read, readAlone]
  simp only [category, fraction]
  rfl

/-- The second derivative of `f` by `x` and by `y`, with the order written once. -/
theorem ofTokens_derivative_twoNames :
    let operator : Token := ⟨"pp", "\\partial", .derivative, true, none, ⟨1, 1⟩⟩
    let names : List Token := [.literal ['x'] .run ⟨1, 8⟩, .literal ['y'] .run ⟨1, 10⟩]
    ofTokens ([operator, ⟨"^", "^\x7b $1 \x7d", .script, true, none, ⟨1, 3⟩⟩,
        .literal ['2'] .number ⟨1, 4⟩, .literal ['f'] .run ⟨1, 6⟩,
        ⟨"(", "\\left(", .opener, true, none, ⟨1, 7⟩⟩] ++ names ++
        [⟨":\x7d", "\\right.", .closer, true, none, ⟨1, 11⟩⟩]) =
      .ok (.root [.binary "\\frac\x7b $1 \x7d\x7b $2 \x7d"
        (.flat [.leaf "\\partial" "pp", .unary "^\x7b $1 \x7d" (.leaf "2" "2"), .leaf "f" "f"])
        (.flat [.leaf "\\partial" "pp", .leaf "x" "x", .leaf "\\partial" "pp",
          .leaf "y" "y"])]) := by
  intro operator names
  let order : LeafScript := ⟨⟨"^", "^\x7b $1 \x7d", .script, true, none, ⟨1, 3⟩⟩,
    .literal ['2'] .number ⟨1, 4⟩, rfl, rfl⟩
  exact @ofTokens_derivative operator (.literal ['f'] .run ⟨1, 6⟩) rfl (some order)
    (fun script mem ↦ by obtain rfl := Option.some.inj mem; rfl) rfl (by decide)
    (.group ⟨"(", "\\left(", .opener, true, none, ⟨1, 7⟩⟩
      ⟨":\x7d", "\\right.", .closer, true, none, ⟨1, 11⟩⟩ names
      ⟨rfl, rfl, by decide, by decide⟩ (by decide))

end Formula

end AsciiMath
