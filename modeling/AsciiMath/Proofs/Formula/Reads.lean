import AsciiMath.Formula.OfTokens
import AsciiMath.Proofs.Formula.Region

/-!
# The grammar of formulas

Each thing that a reader can find is a judgment: from which tokens, with how many levels left, and
which tokens it leaves. A judgment holds if it has a derivation, whose rules are those of the
readers without their budgets and errors. All statements about the formulas that are read go by
induction on derivations.
-/

namespace AsciiMath

/-- The categories whose tokens are written as they stand. -/
def Category.isLeaf : Category → Bool
  | .constant | .letter | .text | .number | .run => true
  | _ => false

theorem Category.ne_unused_of_isLeaf {category : Category} (h : category.isLeaf) :
    category ≠ .unused := by
  rintro rfl
  simp [Category.isLeaf] at h

namespace Formula

inductive Judgment where
  /-- A formula by itself, which may nest as many levels. -/
  | alone (levels : Nat) (tokens : List Placed) (found : Formula) (after : List Placed)
  /-- A formula with what follows it. -/
  | whole (levels : Nat) (tokens : List Placed) (found : Formula) (after : List Placed)
  | operand (levels : Nat) (tokens : List Placed) (found : Formula) (after : List Placed)
  | scripts (levels links : Nat) (base : Formula) (tokens : List Placed) (found : Formula)
    (after : List Placed)
  | followers (levels links : Nat) (base : Formula) (tokens : List Placed) (found : Formula)
    (after : List Placed)
  /-- What an opener makes of the tokens behind it. -/
  | brackets (levels : Nat) (leading : List Formula) (opener : Token) (tokens : List Placed)
    (found : Formula) (after : List Placed)
  | sequence (levels : Nat) (tokens : List Placed) (found : List Formula)
  | pieces (levels : Nat) (ruled cellBegun : Bool) (tokens : List Placed) (found : List GridPiece)
  /-- The order of a derivative. -/
  | order (levels : Nat) (tokens : List Placed) (found : List Formula) (after : List Placed)
  /-- What a derivative is by. -/
  | terms (levels : Nat) (tokens : List Placed) (found : List Formula) (after : List Placed)

namespace Judgment

def tokens : Judgment → List Placed
  | alone _ tokens _ _ | whole _ tokens _ _ | operand _ tokens _ _ | scripts _ _ _ tokens _ _
  | followers _ _ _ tokens _ _ | brackets _ _ _ tokens _ _ | sequence _ tokens _
  | pieces _ _ _ tokens _ | order _ tokens _ _ | terms _ tokens _ _ => tokens

/-- A sequence and the pieces of a grid take all tokens. -/
def after : Judgment → List Placed
  | alone _ _ _ after | whole _ _ _ after | operand _ _ _ after | scripts _ _ _ _ _ after
  | followers _ _ _ _ _ after | brackets _ _ _ _ _ after | order _ _ _ after
  | terms _ _ _ after => after
  | sequence _ _ _ | pieces _ _ _ _ _ => []

end Judgment

/-- A token before which an operand is missing. -/
def endsOperand (category : Category) : Bool := category ∈ [.separator, .alignMark, .closer]

inductive Reads : Judgment → Prop where
  | leaf {levels placed tokens} (category : placed.category.isLeaf)
      (unruled : ∀ next ∈ tokens.head?, placed.token.flag = some .rowRule →
        next.category ≠ .opener) :
      Reads (.alone (levels + 1) (placed :: tokens) (ofToken placed.token) tokens)
  | ruledRegion {levels placed next tokens found after} (category : placed.category.isLeaf)
      (flag : placed.token.flag = some .rowRule) (opens : next.category = .opener)
      (region : Reads (.brackets levels [ofToken placed.token] next.token tokens found after)) :
      Reads (.alone (levels + 1) (placed :: next :: tokens) found after)
  | bracketRegion {levels placed tokens found after} (category : placed.category = .opener)
      (region : Reads (.brackets levels [] placed.token tokens found after)) :
      Reads (.alone (levels + 1) (placed :: tokens) found after)
  | loneBar {levels placed tokens} (category : placed.category = .bar)
      (unmatched : Region.ofBars? placed.token.value 0 tokens = none) :
      Reads (.alone (levels + 1) (placed :: tokens)
        (.leaf (barRelation placed.token) placed.token.value) tokens)
  | barGroup {levels placed tokens region body} (category : placed.category = .bar)
      (matched : Region.ofBars? placed.token.value 0 tokens = some region)
      (inside : Reads (.sequence levels region.inside body)) :
      Reads (.alone (levels + 1) (placed :: tokens)
        (.flat (.leaf ("\\left" ++ placed.token.template) placed.token.value :: body ++
          [.leaf ("\\right" ++ placed.token.template) placed.token.value])) region.after)
  | barGrid {levels placed tokens region found grid} (category : placed.category = .bar)
      (matched : Region.ofBars? placed.token.value 0 tokens = some region)
      (rows : Region.hasRows 0 region.inside)
      (inside : Reads (.pieces levels false false region.inside found))
      (fits : (Grid.ofPieces [] [] found).toMatrix ("\\left" ++ placed.token.template)
        ("\\right" ++ placed.token.template) .center = some grid) :
      Reads (.alone (levels + 1) (placed :: tokens) (.matrix grid) region.after)
  | prefixed {levels placed tokens argument after}
      (category : placed.category = .script ∨ placed.category = .prefixUnary)
      (reads : Reads (.operand levels tokens argument after)) :
      Reads (.alone (levels + 1) (placed :: tokens)
        (.unary placed.token.template argument.stripBrackets) after)
  | prefixedPair {levels placed tokens first middle second after}
      (category : placed.category = .prefixBinary)
      (readsFirst : Reads (.operand levels tokens first middle))
      (readsSecond : Reads (.operand levels middle second after)) :
      Reads (.alone (levels + 1) (placed :: tokens)
        (.binary placed.token.template first.stripBrackets second.stripBrackets) after)
  | leadingSign {levels placed tokens term after} (category : placed.category = .sign)
      (leads : placed.leads) (reads : Reads (.operand levels tokens term after)) :
      Reads (.alone (levels + 1) (placed :: tokens) (.flat [ofToken placed.token, term]) after)
  | sign {levels placed tokens} (category : placed.category = .sign) (plain : ¬ placed.leads) :
      Reads (.alone (levels + 1) (placed :: tokens) (ofToken placed.token) tokens)
  | unscripted {levels placed tokens} (category : placed.category = .optionalScripts)
      (unmatched : ∀ next ∈ tokens.head?, next.category ≠ .script) :
      Reads (.alone (levels + 1) (placed :: tokens) (.binary placed.token.template empty empty)
        tokens)
  | scriptedOnce {levels placed script tokens first after}
      (category : placed.category = .optionalScripts) (scripted : script.category = .script)
      (reads : Reads (.operand levels tokens first after))
      (unmatched : leadingScript? (isAbove · != isAbove script.token) after = none) :
      Reads (.alone (levels + 1) (placed :: script :: tokens)
        (if isAbove script.token then .binary placed.token.template first.stripBrackets empty
          else .binary placed.token.template empty first.stripBrackets) after)
  | scriptedTwice {levels placed script tokens first other middle second after}
      (category : placed.category = .optionalScripts) (scripted : script.category = .script)
      (readsFirst : Reads (.operand levels tokens first (other :: middle)))
      (otherScripted : other.category = .script)
      (differs : isAbove other.token != isAbove script.token)
      (readsSecond : Reads (.operand levels middle second after)) :
      Reads (.alone (levels + 1) (placed :: script :: tokens)
        (if isAbove script.token then
          .binary placed.token.template first.stripBrackets second.stripBrackets
        else .binary placed.token.template second.stripBrackets first.stripBrackets) after)
  | derivativeBare {levels placed tokens power middle function after}
      (category : placed.category = .derivative)
      (readsOrder : Reads (.order levels tokens power middle))
      (readsFunction : Reads (.operand levels middle function after))
      (unmatched : ∀ next ∈ after.head?, ¬ startsVariable next.category) :
      Reads (.alone (levels + 1) (placed :: tokens)
        (.binary fractionTemplate
          (.flat (ofToken placed.token :: power ++ [function.stripBrackets])) empty) after)
  | derivativeBy {levels placed tokens power middle function next rest found after}
      (category : placed.category = .derivative)
      (readsOrder : Reads (.order levels tokens power middle))
      (readsFunction : Reads (.operand levels middle function (next :: rest)))
      (starts : startsVariable next.category)
      (readsTerms : Reads (.terms levels (next :: rest) found after)) :
      Reads (.alone (levels + 1) (placed :: tokens)
        (.binary fractionTemplate
          (.flat (ofToken placed.token :: power ++ [function.stripBrackets]))
          (denominator (ofToken placed.token) power found)) after)
  | mark {levels placed tokens}
      (category : placed.category = .separator ∨ placed.category = .alignMark) :
      Reads (.alone (levels + 1) (placed :: tokens) (ofToken placed.token) tokens)
  | strayCloser {levels placed tokens} (category : placed.category = .closer) :
      Reads (.alone (levels + 1) (placed :: tokens)
        (.leaf ("\\left. " ++ placed.token.template) placed.token.value) tokens)
  | strayOperator {levels placed tokens}
      (category : placed.category = .infixOp ∨ placed.category = .postfixOp) :
      Reads (.alone (levels + 1) (placed :: tokens)
        (.leaf placed.token.value placed.token.value) tokens)
  | whole {levels tokens base middle found after}
      (reads : Reads (.alone (levels + 1) tokens base middle))
      (follows : Reads (.followers levels levels base middle found after)) :
      Reads (.whole (levels + 1) tokens found after)
  | missing {levels tokens} (ends : ∀ next ∈ tokens.head?, endsOperand next.category) :
      Reads (.operand levels tokens empty tokens)
  | present {levels placed tokens found after} (starts : ¬ endsOperand placed.category)
      (reads : Reads (.alone levels (placed :: tokens) found after)) :
      Reads (.operand levels (placed :: tokens) found after)
  | scriptsEnd {levels links base tokens}
      (ends : ∀ next ∈ tokens.head?, next.category ≠ .script) :
      Reads (.scripts levels links base tokens base tokens)
  | scriptsStep {levels links base script tokens argument middle found after}
      (category : script.category = .script)
      (reads : Reads (.operand levels tokens argument middle))
      (more : Reads (.scripts levels links (withScript base script.token argument.stripBrackets)
        middle found after)) :
      Reads (.scripts levels (links + 1) base (script :: tokens) found after)
  | followersEnd {levels links base tokens}
      (ends : ∀ next ∈ tokens.head?, ¬ next.category.follows) :
      Reads (.followers levels links base tokens base tokens)
  | scriptFollows {levels links base script tokens argument middle found after}
      (category : script.category = .script)
      (reads : Reads (.operand levels tokens argument middle))
      (more : Reads (.followers levels links (withScript base script.token argument.stripBrackets)
        middle found after)) :
      Reads (.followers levels (links + 1) base (script :: tokens) found after)
  | infixFollows {levels links base operator tokens second middle scripted rest found after}
      (category : operator.category = .infixOp)
      (reads : Reads (.operand levels tokens second middle))
      (readsScripts : Reads (.scripts levels levels second middle scripted rest))
      (more : Reads (.followers levels links
        (.binary operator.token.template base.stripBrackets scripted.stripBrackets)
        rest found after)) :
      Reads (.followers levels (links + 1) base (operator :: tokens) found after)
  | postfixFollows {levels links base operator tokens found after}
      (category : operator.category = .postfixOp)
      (more : Reads (.followers levels links (.unary operator.token.template base)
        tokens found after)) :
      Reads (.followers levels (links + 1) base (operator :: tokens) found after)
  | unclosed {levels leading opener tokens body}
      (unmatched : Region.ofBrackets? 0 tokens = none)
      (inside : Reads (.sequence levels tokens body)) :
      Reads (.brackets levels leading opener tokens
        (.flat (leading ++ ofToken opener :: body ++ [.leaf "\\right." ""])) [])
  | group {levels leading opener tokens region body}
      (matched : Region.ofBrackets? 0 tokens = some region)
      (rows : ¬ Region.hasRows 0 region.inside)
      (inside : Reads (.sequence levels region.inside body)) :
      Reads (.brackets levels leading opener tokens
        (.flat (leading ++ ofToken opener :: body ++ [ofToken region.closer.token])) region.after)
  | grid {levels leading opener tokens region found grid}
      (matched : Region.ofBrackets? 0 tokens = some region)
      (rows : Region.hasRows 0 region.inside)
      (inside : Reads (.pieces levels true (!leading.isEmpty) region.inside found))
      (fits : (Grid.ofPieces [] leading found).toMatrix opener.template
        region.closer.token.template (if opener.value == "\x7b" &&
          region.closer.token.value == ":\x7d" then .left else .center) = some grid) :
      Reads (.brackets levels leading opener tokens (.matrix grid) region.after)
  | sequenceEnd {levels} : Reads (.sequence levels [] [])
  | sequenceStep {levels tokens first middle others}
      (reads : Reads (.whole levels tokens first middle))
      (more : Reads (.sequence levels middle others)) :
      Reads (.sequence levels tokens (first :: others))
  | piecesEnd {levels ruled cellBegun} : Reads (.pieces levels ruled cellBegun [] [])
  | pieceMark {levels ruled cellBegun placed tokens piece found}
      (ends : endsCell ruled cellBegun placed.token = some piece)
      (more : Reads (.pieces levels ruled false tokens found)) :
      Reads (.pieces levels ruled cellBegun (placed :: tokens) (piece :: found))
  | pieceFormula {levels ruled cellBegun placed tokens first middle found}
      (inside : endsCell ruled cellBegun placed.token = none)
      (reads : Reads (.whole levels (placed :: tokens) first middle))
      (more : Reads (.pieces levels ruled true middle found)) :
      Reads (.pieces levels ruled cellBegun (placed :: tokens) (.formula first :: found))
  | noOrder {levels tokens} (unmatched : leadingScript? isAbove tokens = none) :
      Reads (.order levels tokens [] tokens)
  | withOrder {levels script tokens argument after} (category : script.category = .script)
      (above : isAbove script.token) (reads : Reads (.operand levels tokens argument after)) :
      Reads (.order levels (script :: tokens) [.unary script.token.template argument.stripBrackets]
        after)
  | groupTerms {levels tokens term body after} (reads : Reads (.alone levels tokens term after))
      (grouped : term.groupBody? = some body) :
      Reads (.terms levels tokens body after)
  | singleTerm {levels tokens term middle scripted after}
      (reads : Reads (.alone levels tokens term middle))
      (single : term.groupBody? = none)
      (readsScripts : Reads (.scripts levels levels term middle scripted after)) :
      Reads (.terms levels tokens [scripted] after)

/-- The tokens in front of those that are left, all of which have a use. -/
def Takes (tokens after : List Placed) : Prop :=
  ∃ taken, tokens = taken ++ after ∧ ∀ placed ∈ taken, placed.category ≠ .unused

theorem Takes.refl (tokens : List Placed) : Takes tokens tokens := ⟨[], rfl, by simp⟩

theorem Takes.trans {tokens middle after : List Placed} (first : Takes tokens middle)
    (second : Takes middle after) : Takes tokens after := by
  obtain ⟨front, rfl, hfront⟩ := first
  obtain ⟨back, rfl, hback⟩ := second
  refine ⟨front ++ back, by simp, ?_⟩
  intro placed hplaced
  exact (List.mem_append.1 hplaced).elim (hfront placed) (hback placed)

theorem Takes.cons {placed : Placed} {tokens after : List Placed}
    (category : placed.category ≠ .unused) (h : Takes tokens after) :
    Takes (placed :: tokens) after :=
  .trans ⟨[placed], rfl, by simpa using category⟩ h

theorem Takes.single {placed : Placed} (category : placed.category ≠ .unused)
    (tokens : List Placed) : Takes (placed :: tokens) tokens := .cons category (.refl tokens)

theorem Takes.append {inside : List Placed} (h : Takes inside []) {tokens after : List Placed}
    (rest : Takes tokens after) : Takes (inside ++ tokens) after := by
  obtain ⟨taken, htaken, hused⟩ := h
  rw [List.append_nil] at htaken
  exact .trans ⟨taken, by rw [htaken], hused⟩ rest

theorem Takes.length_le {tokens after : List Placed} (h : Takes tokens after) :
    after.length ≤ tokens.length := by
  obtain ⟨taken, rfl, _⟩ := h
  simp

theorem Takes.forall_mem {P : Placed → Prop} {tokens after : List Placed} (h : Takes tokens after)
    (all : ∀ placed ∈ tokens, P placed) : ∀ placed ∈ after, P placed := by
  obtain ⟨taken, rfl, _⟩ := h
  exact (List.forall_mem_append.1 all).2

theorem category_ne_unused_of_endsCell {ruled cellBegun : Bool} {placed : Placed}
    {piece : GridPiece} (h : endsCell ruled cellBegun placed.token = some piece) :
    placed.category ≠ .unused := by
  intro hunused
  have hcategory : placed.token.category = .unused := hunused
  simp [endsCell, hcategory] at h

/-- Tokens are taken from the front, and a formula takes its first token. -/
abbrev Judgment.Proceeds : Judgment → Prop
  | alone _ tokens _ after | whole _ tokens _ after =>
    ∃ placed rest, tokens = placed :: rest ∧ placed.category ≠ .unused ∧ Takes rest after
  | judgment => Takes judgment.tokens judgment.after

theorem Judgment.Proceeds.takes {judgment : Judgment} (h : judgment.Proceeds) :
    Takes judgment.tokens judgment.after := by
  cases judgment with
  | alone | whole =>
    obtain ⟨placed, rest, rfl, hcategory, hrest⟩ := h
    exact .cons hcategory hrest
  | _ => exact h

/-- What is left behind a formula needs less of a budget. -/
theorem Judgment.Proceeds.length_le {levels budget : Nat} {tokens after : List Placed}
    {found : Formula} (h : Proceeds (.whole levels tokens found after))
    (enough : tokens.length ≤ budget + 1) : after.length ≤ budget := by
  obtain ⟨placed, rest, rfl, _, hrest⟩ := h
  have := hrest.length_le
  rw [List.length_cons] at enough
  omega

theorem Reads.proceeds {judgment : Judgment} (h : Reads judgment) : judgment.Proceeds := by
  induction h with
  | leaf category => exact ⟨_, _, rfl, Category.ne_unused_of_isLeaf category, .refl _⟩
  | ruledRegion category _ opens _ ih =>
    exact ⟨_, _, rfl, Category.ne_unused_of_isLeaf category, .cons (by simp [opens]) ih⟩
  | bracketRegion category _ ih => exact ⟨_, _, rfl, by simp [category], ih⟩
  | loneBar category => exact ⟨_, _, rfl, by simp [category], .refl _⟩
  | barGroup category matched _ ih =>
    obtain ⟨rfl, hcloser, _⟩ := Region.ofBars?_eq_some matched
    exact ⟨_, _, rfl, by simp [category], ih.append (.single (by simp [hcloser]) _)⟩
  | barGrid category matched _ _ _ ih =>
    obtain ⟨rfl, hcloser, _⟩ := Region.ofBars?_eq_some matched
    exact ⟨_, _, rfl, by simp [category], ih.append (.single (by simp [hcloser]) _)⟩
  | prefixed category _ ih => exact ⟨_, _, rfl, by rcases category with h | h <;> simp [h], ih⟩
  | prefixedPair category _ _ ihFirst ihSecond =>
    exact ⟨_, _, rfl, by simp [category], ihFirst.trans ihSecond⟩
  | leadingSign category _ _ ih => exact ⟨_, _, rfl, by simp [category], ih⟩
  | sign category => exact ⟨_, _, rfl, by simp [category], .refl _⟩
  | unscripted category => exact ⟨_, _, rfl, by simp [category], .refl _⟩
  | scriptedOnce category scripted _ _ ih =>
    exact ⟨_, _, rfl, by simp [category], .cons (by simp [scripted]) ih⟩
  | scriptedTwice category scripted _ otherScripted _ _ ihFirst ihSecond =>
    exact ⟨_, _, rfl, by simp [category], .cons (by simp [scripted])
      (ihFirst.trans (.cons (by simp [otherScripted]) ihSecond))⟩
  | derivativeBare category _ _ _ ihOrder ihFunction =>
    exact ⟨_, _, rfl, by simp [category], ihOrder.trans ihFunction⟩
  | derivativeBy category _ _ _ _ ihOrder ihFunction ihTerms =>
    exact ⟨_, _, rfl, by simp [category], ihOrder.trans (ihFunction.trans ihTerms)⟩
  | mark category => exact ⟨_, _, rfl, by rcases category with h | h <;> simp [h], .refl _⟩
  | strayCloser category => exact ⟨_, _, rfl, by simp [category], .refl _⟩
  | strayOperator category =>
    exact ⟨_, _, rfl, by rcases category with h | h <;> simp [h], .refl _⟩
  | whole _ _ ih ihFollows =>
    obtain ⟨placed, rest, rfl, hcategory, hrest⟩ := ih
    exact ⟨placed, rest, rfl, hcategory, hrest.trans ihFollows⟩
  | missing => exact .refl _
  | present _ _ ih => exact ih.takes
  | scriptsEnd => exact .refl _
  | scriptsStep category _ _ ih ihMore => exact .cons (by simp [category]) (ih.trans ihMore)
  | followersEnd => exact .refl _
  | scriptFollows category _ _ ih ihMore => exact .cons (by simp [category]) (ih.trans ihMore)
  | infixFollows category _ _ _ ih ihScripts ihMore =>
    exact .cons (by simp [category]) (ih.trans (ihScripts.trans ihMore))
  | postfixFollows category _ ihMore => exact .cons (by simp [category]) ihMore
  | unclosed _ _ ih => exact ih
  | group matched _ _ ih =>
    obtain ⟨rfl, hcloser, _⟩ := Region.ofBrackets?_eq_some matched
    exact ih.append (.single (by simp [hcloser]) _)
  | grid matched _ _ _ ih =>
    obtain ⟨rfl, hcloser, _⟩ := Region.ofBrackets?_eq_some matched
    exact ih.append (.single (by simp [hcloser]) _)
  | sequenceEnd => exact .refl _
  | sequenceStep _ _ ih ihMore => exact ih.takes.trans ihMore
  | piecesEnd => exact .refl _
  | pieceMark ends _ ih => exact .cons (category_ne_unused_of_endsCell ends) ih
  | pieceFormula _ _ _ ih ihMore => exact ih.takes.trans ihMore
  | noOrder => exact .refl _
  | withOrder category _ _ ih => exact .cons (by simp [category]) ih
  | groupTerms _ _ ih => exact ih.takes
  | singleTerm _ _ _ ih ihScripts => exact ih.takes.trans ihScripts

end Formula

end AsciiMath
