import AsciiMath.Proofs.Formula.Outcome
import AsciiMath.Proofs.Tex.Compose

/-!
# Formulas with nested TeX

A formula writes well nested TeX if its leaves do, apart from the first and the last leaf of a
group, which open and close a pair of delimiters. Groups lose these two leaves together when they
become operands. Whatever tokens a formula is read from, it is of this kind if each token opens,
closes and takes arguments as its category asks.
-/

namespace AsciiMath.Formula

open Tex

inductive Nests : Formula → Prop where
  | leaf {template source : String} (h : Nested template.toList) : Nests (.leaf template source)
  | flat {children : List Formula} (h : ∀ child ∈ children, Nests child) : Nests (.flat children)
  /-- What stands before the opener is no opener itself. -/
  | group {leading body : List Formula} {left leftSource right rightSource : String}
      (hleading : ∀ child ∈ leading, Nests child)
      (plain : ∀ child ∈ leading, ¬ child.isLeafFrom groupOpeners)
      (opens : Turns [] [.delimiters] left.toList) (hbody : ∀ child ∈ body, Nests child)
      (closes : Turns [.delimiters] [] right.toList) :
      Nests (.flat (leading ++ .leaf left leftSource :: body ++ [.leaf right rightSource]))
  | unary {template : String} {argument : Formula} (nests : Tex.Nests 1 template)
      (h : Nests argument) : Nests (.unary template argument)
  | binary {template : String} {first second : Formula} (nests : Tex.Nests 2 template)
      (hfirst : Nests first) (hsecond : Nests second) : Nests (.binary template first second)
  | matrix {grid : Matrix Formula} (opens : Turns [] [.delimiters] grid.left.toList)
      (closes : Turns [.delimiters] [] grid.right.toList)
      (h : ∀ row ∈ grid.rows, ∀ cell ∈ row, Nests cell) : Nests (.matrix grid)

theorem isInert_of_mem_columnSpec (grid : Matrix Formula) :
    ∀ c ∈ grid.columnSpec.toList, isInert c := by
  intro c hc
  rw [Matrix.columnSpec, String.toList_ofList] at hc
  obtain ⟨boundary, -, hc⟩ := List.mem_flatMap.1 hc
  rcases List.mem_append.1 hc with hc | hc
  · split at hc
    · obtain rfl := List.mem_singleton.1 hc
      decide
    · simp at hc
  · split at hc
    · obtain rfl := List.mem_singleton.1 hc
      cases grid.alignment <;> decide
    · simp at hc

theorem nested_of_nests {formula : Formula} (h : Nests formula) : Nested formula.tex.toList := by
  induction h with
  | leaf h => exact h
  | @flat children _ ih =>
    rw [tex, texOfList_eq_map]
    exact turns_joinShown (Chain.of_nested (List.forall_mem_map.2 ih) [])
  | @group leading body left _ right _ _ _ opens _ closes ihLeading ihBody =>
    have front := Chain.of_nested (List.forall_mem_map.2 ihLeading) []
    have inside := Chain.of_nested (List.forall_mem_map.2 ihBody) [.delimiters]
    have whole := front.append (.cons opens (inside.append (.cons closes (.nil []))))
    rw [tex, texOfList_eq_map]
    refine turns_joinShown ?_
    simpa [tex] using whole
  | unary nests _ ih =>
    rw [tex]
    exact nested_apply nests (List.forall_mem_singleton.2 ih)
  | binary nests _ _ ihFirst ihSecond =>
    rw [tex]
    refine nested_apply nests ?_
    exact List.forall_mem_cons.2 ⟨ihFirst, List.forall_mem_singleton.2 ihSecond⟩
  | @matrix grid opens closes _ ih =>
    rw [tex, texOfRows_eq_map]
    refine nested_arrayOf opens closes (isInert_of_mem_columnSpec grid) ?_
    exact List.forall_mem_map.2 fun row hrow ↦ List.forall_mem_map.2 (ih row hrow)

theorem nested_of_root {children : List Formula} (h : ∀ child ∈ children, Nests child) :
    Nested (tex (.root children)).toList := by
  have body : Nested (tex (.flat children)).toList := nested_of_nests (.flat h)
  rw [tex] at body
  rw [tex]
  split
  · exact nested_aligned body
  · exact body

/-- Whether a token of a category opens, closes and takes arguments as the category asks. -/
def nestsAs (token : Token) : Category → Bool
  | .opener => Turns [] [.delimiters] token.template.toList
  | .closer => Turns [.delimiters] [] token.template.toList
  | .bar => decide (Turns [] [.delimiters] ("\\left" ++ token.template).toList) &&
      decide (Turns [.delimiters] [] ("\\right" ++ token.template).toList) &&
      decide (Nested (barRelation token).toList)
  | .script | .prefixUnary => Tex.Nests 1 token.template
  | .prefixBinary | .optionalScripts => Tex.Nests 2 token.template
  | .infixOp => decide (Tex.Nests 2 token.template) && decide (Nested token.value.toList)
  | .postfixOp => decide (Tex.Nests 1 token.template) && decide (Nested token.value.toList)
  | _ => Nested token.template.toList

def tokenNests (token : Token) : Bool :=
  (token.flag != some .rowRule || token.value ∉ groupOpeners) && nestsAs token token.category

theorem nestsAs_of_tokenNests {token : Token} (h : tokenNests token) {category : Category}
    (hcategory : token.category = category) : nestsAs token category :=
  hcategory ▸ (Bool.and_eq_true_iff.1 h).2

theorem opens_of_tokenNests {token : Token} (h : tokenNests token)
    (category : token.category = .opener) : Turns [] [.delimiters] token.template.toList :=
  of_decide_eq_true (nestsAs_of_tokenNests h category)

theorem closes_of_tokenNests {token : Token} (h : tokenNests token)
    (category : token.category = .closer) : Turns [.delimiters] [] token.template.toList :=
  of_decide_eq_true (nestsAs_of_tokenNests h category)

theorem nested_of_tokenNests {token : Token} (h : tokenNests token)
    (category : token.category.isLeaf ∨
      token.category ∈ [.sign, .separator, .alignMark, .derivative]) :
    Nested token.template.toList := by
  have here := nestsAs_of_tokenNests h rfl
  cases hcategory : token.category <;> rw [hcategory] at here category <;>
    first
      | exact of_decide_eq_true here
      | simp [Category.isLeaf] at category

theorem nests_one_of_tokenNests {token : Token} (h : tokenNests token)
    (category : token.category ∈ [.script, .prefixUnary, .postfixOp]) :
    Tex.Nests 1 token.template := by
  have here := nestsAs_of_tokenNests h rfl
  simp only [List.mem_cons, List.not_mem_nil, or_false] at category
  rcases category with hcategory | hcategory | hcategory <;> rw [hcategory] at here
  · exact of_decide_eq_true here
  · exact of_decide_eq_true here
  · exact of_decide_eq_true (Bool.and_eq_true_iff.1 here).1

theorem nests_two_of_tokenNests {token : Token} (h : tokenNests token)
    (category : token.category ∈ [.prefixBinary, .infixOp, .optionalScripts]) :
    Tex.Nests 2 token.template := by
  have here := nestsAs_of_tokenNests h rfl
  simp only [List.mem_cons, List.not_mem_nil, or_false] at category
  rcases category with hcategory | hcategory | hcategory <;> rw [hcategory] at here
  · exact of_decide_eq_true here
  · exact of_decide_eq_true (Bool.and_eq_true_iff.1 here).1
  · exact of_decide_eq_true here

theorem nested_value_of_tokenNests {token : Token} (h : tokenNests token)
    (category : token.category = .infixOp ∨ token.category = .postfixOp) :
    Nested token.value.toList := by
  have here := nestsAs_of_tokenNests h rfl
  rcases category with hcategory | hcategory <;> rw [hcategory] at here
  · exact of_decide_eq_true (Bool.and_eq_true_iff.1 here).2
  · exact of_decide_eq_true (Bool.and_eq_true_iff.1 here).2

theorem bar_of_tokenNests {token : Token} (h : tokenNests token)
    (category : token.category = .bar) :
    Turns [] [.delimiters] ("\\left" ++ token.template).toList ∧
      Turns [.delimiters] [] ("\\right" ++ token.template).toList ∧
      Nested (barRelation token).toList := by
  have here := nestsAs_of_tokenNests h category
  rw [nestsAs, Bool.and_eq_true, Bool.and_eq_true] at here
  obtain ⟨⟨opens, closes⟩, alone⟩ := here
  exact ⟨of_decide_eq_true opens, of_decide_eq_true closes, of_decide_eq_true alone⟩

/-- What leads into a bracket is no opener. -/
theorem leads_nests {leading : List Formula}
    (leads : Leads (fun token ↦ tokenNests token) leading) :
    (∀ child ∈ leading, Nests child) ∧ ∀ child ∈ leading, ¬ child.isLeafFrom groupOpeners := by
  cases leads with
  | nothing => simp
  | rule token can category flag =>
    have hplain := (Bool.and_eq_true_iff.1 can).1
    refine ⟨List.forall_mem_singleton.2 (.leaf (nested_of_tokenNests can (.inl category))), ?_⟩
    simpa [flag, ofToken, isLeafFrom] using hplain

/-- Groups lose their first and last leaf together. -/
theorem nests_of_groupBody? {formula : Formula} {body : List Formula} (h : Nests formula)
    (grouped : formula.groupBody? = some body) : ∀ child ∈ body, Nests child := by
  obtain ⟨first, last, rfl, opens, -⟩ := groupBody?_eq_some grouped
  generalize hchildren : first :: body ++ [last] = children at h
  cases h with
  | flat h => exact fun child hchild ↦ h child (by simp [← hchildren, hchild])
  | @group leading inside left leftSource right rightSource _ plain _ hbody _ =>
    cases leading with
    | nil =>
      have hbodies : body = inside := by simpa using congrArg (·.tail.dropLast) hchildren
      exact hbodies ▸ hbody
    | cons child leading =>
      -- A rule keyword stands before the opener, and such a group keeps its brackets.
      obtain rfl : first = child := (List.cons.inj hchildren).1
      exact absurd opens (plain first List.mem_cons_self)

theorem turns_of_delimits {left right : String}
    (delimited : Delimits (fun token ↦ tokenNests token) left right) :
    Turns [] [.delimiters] left.toList ∧ Turns [.delimiters] [] right.toList := by
  cases delimited with
  | brackets opener closer canOpen canClose opens closes =>
    exact ⟨opens_of_tokenNests canOpen opens, closes_of_tokenNests canClose closes⟩
  | bars bar can category =>
    obtain ⟨opens, closes, -⟩ := bar_of_tokenNests can category
    exact ⟨opens, closes⟩

theorem closed_nests : Closed (fun token ↦ tokenNests token) Nests where
  empty := .leaf (turns_nil [])
  leaf _ can category := .leaf (nested_of_tokenNests can category)
  strayCloser token can category := by
    have opens : Turns [] [.delimiters] "\\left. ".toList := by decide
    have closes := closes_of_tokenNests can category
    apply Nests.leaf
    rw [String.toList_append]
    exact opens.append_of_settled closes (by decide)
  strayOperator _ can category := .leaf (nested_value_of_tokenNests can category)
  loneBar _ can category := .leaf (bar_of_tokenNests can category).2.2
  unary _ can category _ h := .unary (nests_one_of_tokenNests can category) h
  binary _ can category _ _ hfirst hsecond :=
    .binary (nests_two_of_tokenNests can category) hfirst hsecond
  fraction _ _ hnumerator hdenominator := .binary (by decide) hnumerator hdenominator
  flat _ h := .flat h
  body _ _ h grouped := nests_of_groupBody? h grouped
  unclosed leading leads opener can category body h := by
    obtain ⟨hleading, plain⟩ := leads_nests leads
    exact .group hleading plain (opens_of_tokenNests can category) h (by decide +kernel)
  group leading leads opener closer canOpen canClose category closes body h := by
    obtain ⟨hleading, plain⟩ := leads_nests leads
    exact .group hleading plain (opens_of_tokenNests canOpen category) h
      (closes_of_tokenNests canClose closes)
  barGroup bar can category body h := by
    obtain ⟨opens, closes, -⟩ := bar_of_tokenNests can category
    exact @Nests.group [] body _ _ _ _ (by simp) (by simp) opens h closes
  matrix grid delimited _ h := by
    obtain ⟨opens, closes⟩ := turns_of_delimits delimited
    exact .matrix opens closes h

/-- Formulas that are read from such tokens write nested TeX. -/
theorem nested_of_ofTokens {tokens : List Token} {formula : Formula}
    (read : ofTokens tokens = .ok formula) (can : ∀ token ∈ tokens, tokenNests token) :
    Nested formula.tex.toList := by
  obtain ⟨children, rfl, reads⟩ := reads_of_ofTokens read
  have placed : ∀ placed ∈ Placed.ofTokens tokens, tokenNests placed.token :=
    fun placed hplaced ↦ can placed.token (Placed.token_mem_of_mem_ofTokens hplaced)
  exact nested_of_root (reads.keeps closed_nests placed)

end AsciiMath.Formula
