import AsciiMath.Formula.Tex
import AsciiMath.Proofs.Formula.Outcome

/-!
# Alignment points at the top level

A walk at the top level goes on behind each bracketed region and each pair of bars. Readers take
whole regions, and no reader takes an alignment point for an operand, so each one outside all
regions begins a formula. It stays a formula of its own unless a script or an operator follows it,
for which it is the base. Nothing else is written like an alignment point but a text, and such a
text is always the operand of its keyword.
-/

namespace AsciiMath

/-- The tokens behind a region whose opener has been read. -/
def Region.behindBrackets (tokens : List Placed) : List Placed :=
  match ofBrackets? 0 tokens with
  | none => []
  | some region => region.after

def Region.behindBars (bar : String) (tokens : List Placed) : List Placed :=
  match ofBars? bar 0 tokens with
  | none => tokens
  | some region => region.after

/-- A token with which a region may begin. -/
def Category.opensRegion : Category → Bool
  | .opener | .bar => true
  | _ => false

/-- The tokens behind one, and behind its region if it opens one. -/
def Placed.behind (placed : Placed) (tokens : List Placed) : List Placed :=
  match placed.category with
  | .opener => Region.behindBrackets tokens
  | .bar => Region.behindBars placed.token.value tokens
  | _ => tokens

namespace Formula

/-- The tokens from a place on that is outside all regions. -/
inductive TopLevel : List Placed → List Placed → Prop where
  | here {tokens : List Placed} : TopLevel tokens tokens
  | beyond {placed : Placed} {tokens rest : List Placed}
      (more : TopLevel (placed.behind tokens) rest) : TopLevel (placed :: tokens) rest

/-- An alignment point outside all regions that no script or operator takes for its base. -/
def FreeMark (tokens : List Placed) : Prop :=
  ∃ mark rest, TopLevel tokens (mark :: rest) ∧ mark.category = .alignMark ∧
    ∀ next ∈ rest.head?, ¬ next.category.follows

theorem not_freeMark_nil : ¬ FreeMark [] := by
  rintro ⟨mark, rest, top, -⟩
  cases top

theorem freeMark_cons {placed : Placed} {tokens : List Placed} :
    FreeMark (placed :: tokens) ↔
      (placed.category = .alignMark ∧ ∀ next ∈ tokens.head?, ¬ next.category.follows) ∨
        FreeMark (placed.behind tokens) := by
  constructor
  · rintro ⟨mark, rest, top, category, free⟩
    cases top with
    | here => exact .inl ⟨category, free⟩
    | beyond more => exact .inr ⟨mark, rest, more, category, free⟩
  · rintro (⟨category, free⟩ | ⟨mark, rest, top, category, free⟩)
    · exact ⟨placed, tokens, .here, category, free⟩
    · exact ⟨mark, rest, .beyond top, category, free⟩

/-- The tokens that a walk at the top level comes to without passing an alignment point. -/
inductive Skips : List Placed → List Placed → Prop where
  | here {tokens : List Placed} : Skips tokens tokens
  | past {placed : Placed} {tokens after : List Placed} (category : placed.category ≠ .alignMark)
      (more : Skips (placed.behind tokens) after) : Skips (placed :: tokens) after

theorem Skips.trans {tokens middle after : List Placed} (first : Skips tokens middle)
    (second : Skips middle after) : Skips tokens after := by
  induction first with
  | here => exact second
  | past category _ ih => exact .past category (ih second)

theorem Skips.freeMark_iff {tokens after : List Placed} (h : Skips tokens after) :
    FreeMark tokens ↔ FreeMark after := by
  induction h with
  | here => rfl
  | past category _ ih => rw [freeMark_cons, ih, or_iff_right fun marked ↦ category marked.1]

/-- A walk past the first token, whatever that is, and on past no alignment point. -/
def Steps (tokens after : List Placed) : Prop :=
  ∃ placed rest, tokens = placed :: rest ∧ Skips (placed.behind rest) after

theorem Steps.trans {tokens middle after : List Placed} (first : Steps tokens middle)
    (second : Skips middle after) : Steps tokens after := by
  obtain ⟨placed, rest, rfl, more⟩ := first
  exact ⟨placed, rest, rfl, more.trans second⟩

theorem Steps.skips {placed : Placed} {tokens after : List Placed}
    (h : Steps (placed :: tokens) after) (category : placed.category ≠ .alignMark) :
    Skips (placed :: tokens) after := by
  obtain ⟨_, _, same, more⟩ := h
  obtain ⟨rfl, rfl⟩ := List.cons.inj same
  exact .past category more

theorem not_opensRegion_of_isLeaf {category : Category} (h : category.isLeaf) :
    ¬ category.opensRegion := by
  cases category <;> simp_all [Category.isLeaf, Category.opensRegion]

theorem behind_eq_self {placed : Placed} (h : ¬ placed.category.opensRegion)
    (tokens : List Placed) : placed.behind tokens = tokens := by
  unfold Placed.behind
  split <;> simp_all [Category.opensRegion]

theorem skips_behindBrackets {placed : Placed} {tokens after : List Placed}
    (category : placed.category = .opener) (h : after = Region.behindBrackets tokens) :
    Skips (placed.behind tokens) after := by
  rw [h, Placed.behind, category]
  exact .here

theorem skips_behindBars {placed : Placed} {tokens after : List Placed}
    (category : placed.category = .bar)
    (h : Region.behindBars placed.token.value tokens = after) :
    Skips (placed.behind tokens) after := by
  rw [← h, Placed.behind, category]
  exact .here

theorem steps_of_skips {placed : Placed} {tokens after : List Placed}
    (single : ¬ placed.category.opensRegion) (more : Skips tokens after) :
    Steps (placed :: tokens) after :=
  ⟨placed, tokens, rfl, by rwa [behind_eq_self single]⟩

theorem skips_of_follows {placed : Placed} {tokens after : List Placed}
    (h : placed.category.follows) (more : Skips tokens after) : Skips (placed :: tokens) after := by
  have step : Steps (placed :: tokens) after := by
    refine steps_of_skips ?_ more
    generalize placed.category = category at h
    cases category <;> simp_all [Category.follows, Category.opensRegion]
  exact step.skips fun category ↦ by simp [category, Category.follows] at h

/-- What stands alone and a formula are walked past; the rest is too, and no alignment point is
passed there. -/
abbrev Judgment.Walks : Judgment → Prop
  | alone _ tokens _ after | whole _ tokens _ after | terms _ tokens _ after => Steps tokens after
  | operand _ tokens _ after | scripts _ _ _ tokens _ after | followers _ _ _ tokens _ after
  | order _ tokens _ after => Skips tokens after
  | brackets _ _ _ tokens _ after => after = Region.behindBrackets tokens
  | sequence _ _ _ | pieces _ _ _ _ _ => True

theorem Reads.walks {judgment : Judgment} (h : Reads judgment) : judgment.Walks := by
  induction h with
  | leaf category => exact steps_of_skips (not_opensRegion_of_isLeaf category) .here
  | ruledRegion category _ opens _ ih =>
    refine steps_of_skips (not_opensRegion_of_isLeaf category) (.past (by simp [opens]) ?_)
    exact skips_behindBrackets opens ih
  | bracketRegion category _ ih => exact ⟨_, _, rfl, skips_behindBrackets category ih⟩
  | loneBar category unmatched =>
    exact ⟨_, _, rfl, skips_behindBars category (by rw [Region.behindBars, unmatched])⟩
  | barGroup category matched =>
    exact ⟨_, _, rfl, skips_behindBars category (by rw [Region.behindBars, matched])⟩
  | barGrid category matched =>
    exact ⟨_, _, rfl, skips_behindBars category (by rw [Region.behindBars, matched])⟩
  | prefixed category _ ih =>
    exact steps_of_skips (by rcases category with h | h <;> simp [h, Category.opensRegion]) ih
  | prefixedPair category _ _ ihFirst ihSecond =>
    exact steps_of_skips (by simp [category, Category.opensRegion]) (ihFirst.trans ihSecond)
  | leadingSign category _ _ ih =>
    exact steps_of_skips (by simp [category, Category.opensRegion]) ih
  | sign category | unscripted category | strayCloser category =>
    exact steps_of_skips (by simp [category, Category.opensRegion]) .here
  | mark category | strayOperator category =>
    exact steps_of_skips (by rcases category with h | h <;> simp [h, Category.opensRegion]) .here
  | scriptedOnce category scripted _ _ ih =>
    refine steps_of_skips (by simp [category, Category.opensRegion]) ?_
    exact skips_of_follows (by simp [scripted, Category.follows]) ih
  | scriptedTwice category scripted _ otherScripted _ _ ihFirst ihSecond =>
    refine steps_of_skips (by simp [category, Category.opensRegion]) ?_
    refine skips_of_follows (by simp [scripted, Category.follows]) (ihFirst.trans ?_)
    exact skips_of_follows (by simp [otherScripted, Category.follows]) ihSecond
  | derivativeBare category _ _ _ ihOrder ihFunction =>
    exact steps_of_skips (by simp [category, Category.opensRegion]) (ihOrder.trans ihFunction)
  | derivativeBy category _ _ starts _ ihOrder ihFunction ihTerms =>
    refine steps_of_skips (by simp [category, Category.opensRegion])
      (ihOrder.trans (ihFunction.trans (ihTerms.skips ?_)))
    intro marks
    simp [marks, startsVariable] at starts
  | whole _ _ ih ihFollows => exact ih.trans ihFollows
  | missing => exact .here
  | present starts _ ih =>
    exact ih.skips fun category ↦ starts (by simp [category, endsOperand])
  | scriptsEnd | followersEnd | noOrder => exact .here
  | scriptsStep category _ _ ih ihMore | scriptFollows category _ _ ih ihMore =>
    exact skips_of_follows (by simp [category, Category.follows]) (ih.trans ihMore)
  | infixFollows category _ _ _ ih ihScripts ihMore =>
    exact skips_of_follows (by simp [category, Category.follows])
      (ih.trans (ihScripts.trans ihMore))
  | postfixFollows category _ ihMore =>
    exact skips_of_follows (by simp [category, Category.follows]) ihMore
  | unclosed unmatched => simp only [Judgment.Walks, Region.behindBrackets, unmatched]
  | group matched | grid matched => simp only [Judgment.Walks, Region.behindBrackets, matched]
  | withOrder category _ _ ih => exact skips_of_follows (by simp [category, Category.follows]) ih
  | groupTerms _ _ ih => exact ih
  | singleTerm _ _ _ ih ihScripts => exact ih.trans ihScripts
  | sequenceEnd | sequenceStep | piecesEnd | pieceMark | pieceFormula => trivial

end Formula

/-- A text that is written like an alignment point. -/
def Token.disguised (token : Token) : Bool :=
  token.category == .text && (Formula.ofToken token).isAlignPoint

/-- Alignment points are written as such, and no other token is unless it is a text. -/
def Token.distinct (token : Token) : Bool :=
  match token.category with
  | .alignMark => (Formula.ofToken token).isAlignPoint
  | .text => true
  | .infixOp | .postfixOp => !(Formula.leaf token.value token.value).isAlignPoint
  | .bar => !(Formula.leaf (Formula.barRelation token) token.value).isAlignPoint
  | _ => !(Formula.ofToken token).isAlignPoint

namespace Formula

theorem not_isAlignPoint_of_length {template : String} (h : 2 < template.length)
    (source : String) : (leaf template source).isAlignPoint = false := by
  rw [isAlignPoint, Bool.or_eq_false_iff, beq_eq_false_iff_ne, beq_eq_false_iff_ne]
  constructor <;> intro same <;> rw [same] at h <;> revert h <;> decide

theorem isAlignPoint_ofToken {token : Token} (distinct : token.distinct)
    (plain : ¬ token.disguised) (category : token.category ∉ [.infixOp, .postfixOp, .bar]) :
    (ofToken token).isAlignPoint ↔ token.category = .alignMark := by
  unfold Token.distinct at distinct
  unfold Token.disguised at plain
  cases hcategory : token.category <;> simp_all

theorem not_isAlignPoint_bar {token : Token} (distinct : token.distinct)
    (category : token.category = .bar) :
    (leaf (barRelation token) token.value).isAlignPoint = false := by
  rw [Token.distinct, category] at distinct
  simpa using distinct

theorem not_isAlignPoint_operator {token : Token} (distinct : token.distinct)
    (category : token.category = .infixOp ∨ token.category = .postfixOp) :
    (leaf token.value token.value).isAlignPoint = false := by
  unfold Token.distinct at distinct
  rcases category with h | h <;> simpa [h] using distinct

theorem not_isAlignPoint_strayCloser (token : Token) :
    (leaf ("\\left. " ++ token.template) token.value).isAlignPoint = false := by
  refine not_isAlignPoint_of_length ?_ token.value
  rw [String.length_append]
  exact Nat.lt_of_lt_of_le (by decide) (Nat.le_add_right _ _)

theorem not_mem_of_isLeaf {category : Category} (h : category.isLeaf) :
    category ∉ [.infixOp, .postfixOp, .bar] := by
  cases category <;> simp_all [Category.isLeaf]

theorem Reads.isAlignPoint_brackets {levels : Nat} {leading : List Formula} {opener : Token}
    {tokens after : List Placed} {found : Formula}
    (h : Reads (.brackets levels leading opener tokens found after)) :
    found.isAlignPoint = false := by
  cases h <;> rfl

/-- What stands alone is written like an alignment point if and only if it is one. -/
theorem Reads.isAlignPoint_alone {levels : Nat} {placed : Placed} {rest after : List Placed}
    {found : Formula} (h : Reads (.alone levels (placed :: rest) found after))
    (distinct : placed.token.distinct) (plain : ¬ placed.token.disguised) :
    found.isAlignPoint ↔ placed.category = .alignMark := by
  have same := isAlignPoint_ofToken distinct plain
  have none {category : Category} (h : placed.category = category) (ne : category ≠ .alignMark) :
      false = true ↔ placed.category = .alignMark :=
    iff_of_false Bool.false_ne_true (h ▸ ne)
  cases h with
  | leaf category => exact same (not_mem_of_isLeaf category)
  | ruledRegion category _ _ region =>
    rw [region.isAlignPoint_brackets]
    refine iff_of_false Bool.false_ne_true fun marks ↦ ?_
    simp [marks, Category.isLeaf] at category
  | bracketRegion category region =>
    rw [region.isAlignPoint_brackets]
    exact none category (by decide)
  | loneBar category =>
    rw [not_isAlignPoint_bar distinct category]
    exact none category (by decide)
  | sign category => exact same (by simp [show placed.token.category = .sign from category])
  | mark category =>
    rw [Placed.category] at category
    exact same (by rcases category with h | h <;> simp [h])
  | strayCloser category =>
    rw [not_isAlignPoint_strayCloser]
    exact none category (by decide)
  | strayOperator category =>
    rw [not_isAlignPoint_operator distinct category]
    rcases category with h | h <;> exact none h (by decide)
  | prefixed category => rcases category with h | h <;> exact none h (by decide)
  | scriptedOnce category => split <;> exact none category (by decide)
  | scriptedTwice category => split <;> exact none category (by decide)
  | _ => exact none ‹placed.category = _› (by decide)

theorem Reads.after_of_alignMark {levels : Nat} {placed : Placed} {rest after : List Placed}
    {found : Formula} (h : Reads (.alone levels (placed :: rest) found after))
    (category : placed.category = .alignMark) : after = rest := by
  cases h <;> simp_all [Category.isLeaf]

/-- What follows a formula makes another formula of it, which is no alignment point. -/
abbrev Judgment.Conceals : Judgment → Prop
  | followers _ _ base _ found _ => base.isAlignPoint = false → found.isAlignPoint = false
  | _ => True

theorem Reads.conceals {judgment : Judgment} (h : Reads judgment) : judgment.Conceals := by
  induction h with
  | followersEnd => exact id
  | scriptFollows _ _ _ _ ihMore => exact fun _ ↦ ihMore rfl
  | infixFollows _ _ _ _ _ _ ihMore => exact fun _ ↦ ihMore rfl
  | postfixFollows _ _ ihMore => exact fun _ ↦ ihMore rfl
  | _ => trivial

theorem Reads.isAlignPoint_followers {levels links : Nat} {base found : Formula}
    {tokens after : List Placed} (h : Reads (.followers levels links base tokens found after)) :
    found.isAlignPoint ↔ base.isAlignPoint ∧ ∀ next ∈ tokens.head?, ¬ next.category.follows := by
  have concealed {next : Placed} {rest : List Placed} (hnext : next.category.follows)
      (hfound : found.isAlignPoint = false) : found.isAlignPoint ↔
        base.isAlignPoint ∧ ∀ other ∈ (next :: rest).head?, ¬ other.category.follows := by
    rw [hfound]
    exact iff_of_false Bool.false_ne_true fun free ↦ free.2 next rfl hnext
  cases h with
  | followersEnd ends => exact (and_iff_left ends).symm
  | scriptFollows category _ more =>
    exact concealed (by simp [category, Category.follows]) (more.conceals rfl)
  | infixFollows category _ _ more =>
    exact concealed (by simp [category, Category.follows]) (more.conceals rfl)
  | postfixFollows category more =>
    exact concealed (by simp [category, Category.follows]) (more.conceals rfl)

/-- A formula is written like an alignment point if and only if it is one that nothing follows. -/
theorem Reads.isAlignPoint_whole {levels : Nat} {placed : Placed} {rest after : List Placed}
    {found : Formula} (h : Reads (.whole levels (placed :: rest) found after))
    (distinct : placed.token.distinct) (plain : ¬ placed.token.disguised) :
    found.isAlignPoint ↔
      placed.category = .alignMark ∧ ∀ next ∈ rest.head?, ¬ next.category.follows := by
  cases h with
  | whole reads follows =>
    rw [follows.isAlignPoint_followers, reads.isAlignPoint_alone distinct plain]
    exact and_congr_right fun category ↦ by rw [reads.after_of_alignMark category]

end Formula

/-- A keyword that takes whatever comes next for its operand. -/
def Category.isPrefix : Category → Bool
  | .prefixUnary | .prefixBinary => true
  | _ => false

namespace Formula

/-- A text that is written like an alignment point stands right behind its keyword. -/
def Led (tokens : List Placed) : Prop :=
  tokens.IsChain fun placed next ↦ next.token.disguised → placed.category.isPrefix

def Clear (tokens : List Placed) : Prop := ∀ next ∈ tokens.head?, ¬ next.token.disguised

theorem not_isPrefix_of_isLeaf {category : Category} (h : category.isLeaf) :
    ¬ category.isPrefix := by
  cases category <;> simp_all [Category.isLeaf, Category.isPrefix]

theorem Led.tail {placed : Placed} {tokens : List Placed} (led : Led (placed :: tokens)) :
    Led tokens := List.IsChain.tail led

theorem Led.after {tokens after : List Placed} (led : Led tokens) (h : Takes tokens after) :
    Led after := by
  obtain ⟨taken, rfl, -⟩ := h
  exact List.IsChain.right_of_append led

theorem Led.clear {placed : Placed} {tokens : List Placed} (led : Led (placed :: tokens))
    (h : ¬ placed.category.isPrefix) : Clear tokens :=
  fun _ hnext disguised ↦ h (led.rel_head? hnext disguised)

theorem Led.clear_after {inside after : List Placed} {closer : Placed}
    (led : Led (inside ++ closer :: after)) (h : ¬ closer.category.isPrefix) : Clear after :=
  Led.clear (List.IsChain.right_of_append led) h

/-- No text that is written like an alignment point is left, as it is the operand of its keyword. -/
abbrev Judgment.Clears : Judgment → Prop
  | alone _ tokens _ after | whole _ tokens _ after | operand _ tokens _ after
  | brackets _ _ _ tokens _ after | terms _ tokens _ after => Led tokens → Clear after
  | scripts _ _ _ tokens _ after | followers _ _ _ tokens _ after | order _ tokens _ after =>
    Led tokens → Clear tokens → Clear after
  | sequence _ _ _ | pieces _ _ _ _ _ => True

theorem Reads.clears {judgment : Judgment} (h : Reads judgment) : judgment.Clears := by
  induction h with
  | leaf category => exact fun led ↦ led.clear (not_isPrefix_of_isLeaf category)
  | ruledRegion _ _ _ _ ih => exact fun led ↦ ih led.tail.tail
  | bracketRegion _ _ ih | prefixed _ _ ih | leadingSign _ _ _ ih => exact fun led ↦ ih led.tail
  | barGroup category matched | barGrid category matched =>
    obtain ⟨rfl, hcloser, -⟩ := Region.ofBars?_eq_some matched
    exact fun led ↦ led.tail.clear_after (by simp [hcloser, Category.isPrefix])
  | prefixedPair category readsFirst _ ihFirst ihSecond =>
    exact fun led ↦ ihSecond (led.tail.after readsFirst.proceeds)
  | loneBar category | sign category | unscripted category | strayCloser category =>
    exact fun led ↦ led.clear (by simp [category, Category.isPrefix])
  | mark category | strayOperator category =>
    exact fun led ↦ led.clear (by rcases category with h | h <;> simp [h, Category.isPrefix])
  | scriptedOnce _ _ _ _ ih => exact fun led ↦ ih led.tail.tail
  | scriptedTwice category scripted readsFirst otherScripted _ _ ihFirst ihSecond =>
    exact fun led ↦ ihSecond (led.tail.tail.after readsFirst.proceeds).tail
  | derivativeBare category readsOrder _ _ ihOrder ihFunction =>
    exact fun led ↦ ihFunction (led.tail.after readsOrder.proceeds)
  | derivativeBy category readsOrder readsFunction _ _ ihOrder ihFunction ihTerms =>
    exact fun led ↦ ihTerms ((led.tail.after readsOrder.proceeds).after readsFunction.proceeds)
  | whole reads _ ih ihFollows =>
    exact fun led ↦ ihFollows (led.after reads.proceeds.takes) (ih led)
  | missing ends =>
    intro _ next hnext disguised
    have category := ends next hnext
    simp only [Token.disguised, Bool.and_eq_true, beq_iff_eq] at disguised
    simp [Placed.category, disguised.1, endsOperand] at category
  | present _ _ ih => exact ih
  | scriptsEnd | followersEnd | noOrder => exact fun _ clear ↦ clear
  | scriptsStep category reads _ ih ihMore | scriptFollows category reads _ ih ihMore =>
    exact fun led _ ↦ ihMore (led.tail.after reads.proceeds) (ih led.tail)
  | infixFollows category reads readsScripts _ ih ihScripts ihMore =>
    intro led _
    have scripted := ihScripts (led.tail.after reads.proceeds) (ih led.tail)
    exact ihMore ((led.tail.after reads.proceeds).after readsScripts.proceeds) scripted
  | postfixFollows category _ ihMore =>
    exact fun led _ ↦ ihMore led.tail (led.clear (by simp [category, Category.isPrefix]))
  | unclosed => exact fun _ ↦ by simp [Clear]
  | group matched | grid matched =>
    obtain ⟨rfl, hcloser, -⟩ := Region.ofBrackets?_eq_some matched
    exact fun led ↦ led.clear_after (by simp [hcloser, Category.isPrefix])
  | withOrder category _ _ ih => exact fun led _ ↦ ih led.tail
  | groupTerms _ _ ih => exact ih
  | singleTerm reads _ _ ih ihScripts =>
    exact fun led ↦ ihScripts (led.after reads.proceeds.takes) (ih led)
  | sequenceEnd | sequenceStep | piecesEnd | pieceMark | pieceFormula => trivial

/-- Of the formulas in a row some is written like an alignment point if and only if a free one is
among the tokens. -/
abbrev Judgment.Aligns : Judgment → Prop
  | sequence _ tokens found => (∀ placed ∈ tokens, placed.token.distinct) → Led tokens →
    Clear tokens → (found.any isAlignPoint ↔ FreeMark tokens)
  | _ => True

theorem Reads.aligns {judgment : Judgment} (h : Reads judgment) : judgment.Aligns := by
  induction h with
  | sequenceEnd => exact fun _ _ _ ↦ iff_of_false Bool.false_ne_true not_freeMark_nil
  | sequenceStep reads _ _ ih =>
    intro distinct led clear
    obtain ⟨placed, rest, rfl, walk⟩ := reads.walks
    have takes := reads.proceeds.takes
    have first := reads.isAlignPoint_whole (distinct placed (by simp)) (clear placed rfl)
    have others := ih (takes.forall_mem distinct) (led.after takes) (reads.clears led)
    rw [List.any_cons, Bool.or_eq_true, first, others, freeMark_cons, walk.freeMark_iff]
  | _ => trivial

theorem led_ofTokens {tokens : List Token} :
    Led (Placed.ofTokens tokens) ↔
      tokens.IsChain fun token next ↦ next.disguised → token.category.isPrefix := by
  conv => rhs; rw [← Placed.map_token_ofTokens tokens, List.isChain_map]
  rfl

theorem clear_ofTokens {tokens : List Token} :
    Clear (Placed.ofTokens tokens) ↔ ∀ next ∈ tokens.head?, ¬ next.disguised := by
  conv => rhs; rw [← Placed.map_token_ofTokens tokens, List.head?_map]
  simp [Clear]

/-- If alignment points are told apart from other tokens, a formula is set in an aligned environment
if and only if one is free among its tokens. -/
theorem aligned_of_ofTokens {tokens : List Token} {formula : Formula}
    (read : ofTokens tokens = .ok formula) (distinct : ∀ token ∈ tokens, token.distinct)
    (led : tokens.IsChain fun token next ↦ next.disguised → token.category.isPrefix)
    (clear : ∀ next ∈ tokens.head?, ¬ next.disguised) :
    ∃ children, formula = .root children ∧
      (children.any isAlignPoint ↔ FreeMark (Placed.ofTokens tokens)) := by
  obtain ⟨children, rfl, reads⟩ := reads_of_ofTokens read
  have told := fun placed hplaced ↦ distinct _ (@Placed.token_mem_of_mem_ofTokens _ placed hplaced)
  exact ⟨children, rfl, reads.aligns told (led_ofTokens.2 led) (clear_ofTokens.2 clear)⟩

end Formula

end AsciiMath
