import AsciiMath.Proofs.Formula.Group

/-!
# Scripts in either order

An operator over and under which something may be written takes the two scripts in either order.
What stands behind a script is read alike wherever it stands, with one exception. A leaf that draws
a rule takes a bracket behind it, so the order counts if such a leaf can come last before a bracket.
-/

namespace AsciiMath

open Formula

/-- A leaf, or a bracket up to its closer with anything inside. -/
inductive ScriptOperand where
  | leaf (token : Token) (category : token.category.isLeaf)
  | group (opener closer : Token) (inside : List Token) (opens : opener.category = .opener)
    (closes : closer.category = .closer) (matched : Token.Matched inside)

namespace ScriptOperand

def tokens : ScriptOperand → List Token
  | leaf token _ => [token]
  | group opener closer inside _ _ _ => opener :: inside ++ [closer]

/-- Nothing that stands behind the operand is taken into it. -/
def EndsBefore (rest : List Token) : ScriptOperand → Prop
  | leaf token _ => Unruled token rest
  | group _ _ _ _ _ _ => True

/-- What is read of the operand alone, behind a script and with the given number of levels. -/
def node (levels : Nat) (operand : ScriptOperand) : Except ConversionError Formula :=
  Prod.fst <$> Formula.operand (Formula.read levels) (Placed.follow true operand.tokens)

theorem node_leaf (levels : Nat) {token : Token} (category : token.category.isLeaf) :
    (leaf token category).node (levels + 1) = .ok (ofToken token) := by
  have unruled : Unruled token [] := fun _ ↦ by simp [Unopened]
  rw [node, tokens, operand_unruled levels category unruled]
  rfl

/-- The operand is read as if it stood alone. -/
theorem operand_eq (levels : Nat) (operand : ScriptOperand) {rest : List Token}
    (ends : operand.EndsBefore rest) :
    Formula.operand (Formula.read (levels + 1)) (Placed.follow true (operand.tokens ++ rest)) =
      (·, Placed.follow false rest) <$> operand.node (levels + 1) := by
  cases operand with
  | leaf token category =>
    rw [node_leaf, tokens, List.singleton_append, operand_unruled levels category ends]
    rfl
  | group opener closer inside opens closes matched =>
    have starts : (⟨opener, true⟩ : Placed).category ∉ [.separator, .alignMark, .closer] := by
      simp [Placed.category, opens]
    have balanced := matched.depthAfter? false
    have last : (⟨closer, Placed.leadsBehind false inside⟩ : Placed).category = .closer := closes
    have region (rest : List Token) : Formula.operand (Formula.read (levels + 1))
        (Placed.follow true (opener :: inside ++ [closer] ++ rest)) =
          (fun found ↦ (found.1, Placed.follow false rest)) <$>
            bracketRegion (Formula.read levels) [] opener (Placed.follow false inside ++
              [⟨closer, Placed.leadsBehind false inside⟩]) := by
      rw [← bracketRegion_append balanced last, List.append_assoc, List.singleton_append,
        List.cons_append, Placed.follow_group true opens closes, Formula.operand, if_neg starts,
        Formula.read, readAlone]
      simp only [opens]
      cases bracketRegion (Formula.read levels) [] opener _ <;> rfl
    have alone := region []
    rw [List.append_nil] at alone
    rw [node, tokens, region, alone, Functor.map_map, Functor.map_map]

/-- No bracket opens right behind an operand that a script follows. -/
theorem endsBefore_script (operand : ScriptOperand) {script : Token}
    (category : script.category = .script) (rest : List Token) :
    operand.EndsBefore (script :: rest) := by
  cases operand with
  | leaf token leaf =>
    rintro - next ⟨⟩
    simp [category]
  | group => trivial

end ScriptOperand

theorem bind_eq_ok {ε α β : Type} {first : Except ε α} {next : α → Except ε β} {found : β} :
    first >>= next = .ok found ↔ ∃ a, first = .ok a ∧ next a = .ok found := by
  cases first <;> simp [bind, Except.bind]

namespace Formula

/-- The whole formula when its first part has been read and the rest of the tokens is left. -/
def rootFrom (first : Formula) (rest : List Token) : Except ConversionError Formula := do
  let (first, after) ← attachFollowers (read 63) 63 63 first (Placed.follow false rest)
  return .root (first :: (← sequence (read 64 true) after))

section

variable {operator first second : Token} (script : first.category = .script)
  (script' : second.category = .script) (differs : isAbove second = !isAbove first)
  (operand operand' : ScriptOperand) {rest : List Token} (ends : operand'.EndsBefore rest)

include script script' differs ends

/-- Two different scripts are taken, and what the first one is decides which of them is above. -/
theorem optionalScripts_pair (levels : Nat) :
    optionalScripts (read (levels + 1)) operator (Placed.follow true
        (first :: (operand.tokens ++ second :: (operand'.tokens ++ rest)))) =
      operand.node (levels + 1) >>= fun found ↦ operand'.node (levels + 1) >>= fun found' ↦
        .ok (if isAbove first then
            .binary operator.template found.stripBrackets found'.stripBrackets
          else .binary operator.template found'.stripBrackets found.stripBrackets,
          Placed.follow false rest) := by
  have takes : first.category.takesOperand = true := by rw [script]; rfl
  have takes' : second.category.takesOperand = true := by rw [script']; rfl
  have leading : leadingScript? (fun _ ↦ true) (Placed.follow true
      (first :: (operand.tokens ++ second :: (operand'.tokens ++ rest)))) =
      some (first, Placed.follow true (operand.tokens ++ second :: (operand'.tokens ++ rest))) := by
    rw [Placed.follow, takes, leadingScript?, if_pos]
    simp [Placed.category, script]
  have leading' : leadingScript? (isAbove · != isAbove first)
      (Placed.follow false (second :: (operand'.tokens ++ rest))) =
      some (second, Placed.follow true (operand'.tokens ++ rest)) := by
    rw [Placed.follow, takes', leadingScript?, if_pos]
    simp [Placed.category, script', differs]
  have read := operand.operand_eq levels
    (operand.endsBefore_script script' (operand'.tokens ++ rest))
  have read' := operand'.operand_eq levels ends
  simp only [optionalScripts, leading, strippedOperand, read]
  cases operand.node (levels + 1) with
  | error cause => rfl
  | ok found =>
    simp only [Functor.map, Except.map, bind, Except.bind, pure, Except.pure, leading', read']
    cases operand'.node (levels + 1) with
    | error cause => rfl
    | ok found' => rfl

theorem ofTokens_optionalScripts_pair (category : operator.category = .optionalScripts) :
    ofTokens (operator :: first :: (operand.tokens ++ second :: (operand'.tokens ++ rest))) =
      operand.node 63 >>= fun found ↦ operand'.node 63 >>= fun found' ↦
        rootFrom (if isAbove first then
            .binary operator.template found.stripBrackets found'.stripBrackets
          else .binary operator.template found'.stripBrackets found.stripBrackets) rest := by
  have levels : maxLevels = 63 + 1 := rfl
  have takes : operator.category.takesOperand = true := by rw [category]; rfl
  have pair := @optionalScripts_pair operator first second script script' differs operand operand'
    rest ends 62
  rw [ofTokens, Placed.ofTokens, levels, Placed.follow, takes, sequence_cons, read, readAlone]
  simp only [category, pair]
  cases operand.node 63 with
  | error cause => rfl
  | ok found =>
    cases operand'.node 63 with
    | error cause => rfl
    | ok found' =>
      simp only [bind, Except.bind, rootFrom, if_true]
      cases attachFollowers (read 63) 63 63 _ (Placed.follow false rest) with
      | error cause => rfl
      | ok head =>
        dsimp only
        cases sequence (read 64 true) head.2 with
        | error cause => rfl
        | ok others => rfl

end

section

variable {operator above below : Token} (category : operator.category = .optionalScripts)
  (script : above.category = .script) (aboveValue : above.value = "^")
  (script' : below.category = .script) (belowValue : below.value = "_")
  (upper lower : ScriptOperand) {rest : List Token} (ends : upper.EndsBefore rest)
  (ends' : lower.EndsBefore rest)

include category script aboveValue script' belowValue ends ends'

/-- Both orders give the same formula if they give one. A script that cannot be read is an error in
both, but of two such scripts the first one is reported. -/
theorem ofTokens_optionalScripts (formula : Formula) :
    (ofTokens (operator :: above :: (upper.tokens ++ below :: (lower.tokens ++ rest))) =
        .ok formula ↔
      ofTokens (operator :: below :: (lower.tokens ++ above :: (upper.tokens ++ rest))) =
        .ok formula) ∧
    (ofTokens (operator :: above :: (upper.tokens ++ below :: (lower.tokens ++ rest))) =
        .ok formula ↔
      ∃ raised lowered, upper.node 63 = .ok raised ∧ lower.node 63 = .ok lowered ∧
        rootFrom (.binary operator.template raised.stripBrackets lowered.stripBrackets) rest =
          .ok formula) := by
  have isAbove : isAbove above = true := by rw [Formula.isAbove, aboveValue]; rfl
  have isBelow : Formula.isAbove below = false := by rw [Formula.isAbove, belowValue]; rfl
  have upperFirst := ofTokens_optionalScripts_pair script script' (by rw [isAbove, isBelow]; rfl)
    upper lower ends' category
  have lowerFirst := ofTokens_optionalScripts_pair script' script (by rw [isAbove, isBelow]; rfl)
    lower upper ends category
  simp only [upperFirst, lowerFirst, isAbove, isBelow, bind_eq_ok, if_true, Bool.false_eq_true,
    if_false, exists_and_left, and_true]
  grind

end

/-- An arrow has what is above and what is below it in either order. -/
theorem ofTokens_arrowScripts :
    let operator : Token :=
      ⟨"xrarr", "\\xrightarrow[ $2 ]\x7b $1 \x7d", .optionalScripts, true, none, ⟨1, 1⟩⟩
    let above : Token := ⟨"^", "^\x7b $1 \x7d", .script, true, none, ⟨1, 6⟩⟩
    let below : Token := ⟨"_", "_\x7b $1 \x7d", .script, true, none, ⟨1, 8⟩⟩
    let opener : Token := ⟨"(", "\\left(", .opener, true, none, ⟨1, 9⟩⟩
    let minus : Token := ⟨"-", "-", .sign, true, none, ⟨1, 10⟩⟩
    let closer : Token := ⟨")", "\\right)", .closer, true, none, ⟨1, 12⟩⟩
    let f : Token := .literal ['f'] .run ⟨1, 7⟩
    let g : Token := .literal ['g'] .run ⟨1, 11⟩
    let x : Token := .literal ['x'] .run ⟨1, 14⟩
    let formula : Formula := .root [.binary operator.template (ofToken f)
      (.flat [ofToken minus, ofToken g]), ofToken x]
    ofTokens [operator, above, f, below, opener, minus, g, closer, x] = .ok formula ∧
      ofTokens [operator, below, opener, minus, g, closer, above, f, x] = .ok formula := by
  intro operator above below opener minus closer f g x formula
  have commute := @ofTokens_optionalScripts operator above below rfl rfl rfl rfl rfl
    (.leaf f rfl) (.group opener closer [minus, g] rfl rfl (by decide)) [x]
    (fun flag ↦ absurd flag (by decide)) trivial formula
  have inOrder := commute.2.2 ⟨ofToken f, _, ScriptOperand.node_leaf 62 rfl, rfl, rfl⟩
  exact ⟨inOrder, commute.1.1 inOrder⟩

/-- If a script is a leaf that draws a rule, a bracket behind both scripts belongs to it when it
comes last. -/
theorem ofTokens_ruleScript_ne :
    let operator : Token :=
      ⟨"xrarr", "\\xrightarrow[ $2 ]\x7b $1 \x7d", .optionalScripts, true, none, ⟨1, 1⟩⟩
    let above : Token := ⟨"^", "^\x7b $1 \x7d", .script, true, none, ⟨1, 1⟩⟩
    let below : Token := ⟨"_", "_\x7b $1 \x7d", .script, true, none, ⟨1, 1⟩⟩
    let rule : Token := ⟨"hline", "\\hline", .letter, true, some .rowRule, ⟨1, 1⟩⟩
    let opener : Token := ⟨"(", "\\left(", .opener, true, none, ⟨1, 1⟩⟩
    let closer : Token := ⟨")", "\\right)", .closer, true, none, ⟨1, 1⟩⟩
    let f : Token := .literal ['f'] .run ⟨1, 1⟩
    let x : Token := .literal ['x'] .run ⟨1, 1⟩
    ofTokens [operator, above, rule, below, f, opener, x, closer] =
        .ok (.root [.binary operator.template (ofToken rule) (ofToken f),
          .flat [ofToken opener, ofToken x, ofToken closer]]) ∧
      ofTokens [operator, below, f, above, rule, opener, x, closer] =
        .ok (.root [.binary operator.template
          (.flat [ofToken rule, ofToken opener, ofToken x, ofToken closer]) (ofToken f)]) ∧
      ofTokens [operator, above, rule, below, f, opener, x, closer] ≠
        ofTokens [operator, below, f, above, rule, opener, x, closer] := by
  intro operator above below rule opener closer f x
  refine ⟨rfl, rfl, fun same ↦ ?_⟩
  cases same

end Formula

end AsciiMath
