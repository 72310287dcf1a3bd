import AsciiMath.Proofs.Formula.Lookahead
import AsciiMath.Proofs.Formula.Matched

/-!
# Bars in pairs

A stack of open brackets tells for each bar in which region it stands. Closers without an opener cut
what stands outside all brackets into stretches. In a stretch the first bar goes with the second,
the third with the fourth, and a last one without a partner stands for a relation. Readers that look
ahead for the partner of each bar find the same pairs.
-/

namespace AsciiMath

open Formula
open BracketStack (strayCloser)

/-- A formula of a region, a bar that has no partner yet, or a closer that closes nothing. -/
inductive RegionPart where
  | formula (formula : Formula)
  | bar (token : Token)
  | stray (closer : Token)

/-- The formulas in front of the first bar, and each bar with the formulas up to the next one. -/
structure Stretch where
  front : List Formula
  bars : List (Token × List Formula)

namespace Stretch

def group (bar : Token) (inside : List Formula) : Formula :=
  .flat (.leaf ("\\left" ++ bar.template) bar.value :: inside ++
    [.leaf ("\\right" ++ bar.template) bar.value])

def relation (bar : Token) : Formula := .leaf (barRelation bar) bar.value

/-- Two bars that follow one another are a pair. -/
def pairs : List (Token × List Formula) → List Formula
  | [] => []
  | [(bar, behind)] => relation bar :: behind
  | (bar, inside) :: (_, behind) :: bars => group bar inside :: behind ++ pairs bars

def formulas (stretch : Stretch) : List Formula := stretch.front ++ pairs stretch.bars

/-- The first stretch of a region, and each stray closer with the stretch behind it. -/
def cut : List RegionPart → Stretch × List (Token × Stretch)
  | [] => (⟨[], []⟩, [])
  | .formula formula :: parts =>
    let (first, others) := cut parts
    (⟨formula :: first.front, first.bars⟩, others)
  | .bar bar :: parts =>
    let (first, others) := cut parts
    (⟨[], (bar, first.front) :: first.bars⟩, others)
  | .stray closer :: parts =>
    let (first, others) := cut parts
    (⟨[], []⟩, (closer, first) :: others)

end Stretch

/-- What stands in a region when its bars are paired. -/
def RegionPart.paired (parts : List RegionPart) : List Formula :=
  let (first, others) := Stretch.cut parts
  first.formulas ++ others.flatMap fun (closer, stretch) ↦ strayCloser closer :: stretch.formulas

namespace RegionPart

theorem cut_formulas (formulas : List Formula) (parts : List RegionPart) :
    Stretch.cut (formulas.map formula ++ parts) =
      (⟨formulas ++ (Stretch.cut parts).1.front, (Stretch.cut parts).1.bars⟩,
        (Stretch.cut parts).2) := by
  induction formulas with
  | nil => rfl
  | cons first formulas ih => rw [List.map_cons, List.cons_append, Stretch.cut, ih]; rfl

theorem paired_lone {parts : List RegionPart} (lone : (Stretch.cut parts).1.bars = [])
    (bar : Token) : paired (.bar bar :: parts) = Stretch.relation bar :: paired parts := by
  simp [paired, Stretch.cut, Stretch.formulas, lone, Stretch.pairs]

theorem paired_pair (bar other : Token) (inside : List Formula) (parts : List RegionPart) :
    paired (.bar bar :: (inside.map formula ++ .bar other :: parts)) =
      Stretch.group bar inside :: paired parts := by
  simp [paired, Stretch.cut, cut_formulas, Stretch.formulas, Stretch.pairs]

end RegionPart

open RegionPart

theorem nextDepth?_of_isLeaf {category : Category} (leaf : category.isLeaf) (depth : Nat) :
    Region.nextDepth? category depth = some depth :=
  Region.nextDepth?_eq_self (by rintro rfl; cases leaf) (by rintro rfl; cases leaf) depth

inductive RegionStack where
  | bottom (parts : List RegionPart)
  /-- The region of an opener that is not closed, as far as it is read. -/
  | region (outer : RegionStack) (opener : Token) (parts : List RegionPart)

namespace RegionStack

def add : RegionStack → List RegionPart → RegionStack
  | bottom parts, more => bottom (parts ++ more)
  | region outer opener parts, more => region outer opener (parts ++ more)

def close : RegionStack → Token → RegionStack
  | bottom parts, closer => bottom (parts ++ [.stray closer])
  | region outer opener parts, closer =>
    outer.add [.formula (.flat (ofToken opener :: paired parts ++ [ofToken closer]))]

def push (stack : RegionStack) (token : Token) : RegionStack :=
  match token.category with
  | .opener => region stack token []
  | .closer => stack.close token
  | .bar => stack.add [.bar token]
  | _ => stack.add [.formula (ofToken token)]

def run (stack : RegionStack) (tokens : List Placed) : RegionStack :=
  tokens.foldl (fun stack placed ↦ stack.push placed.token) stack

/-- All that was read, if the innermost region ends with the given parts. -/
def endWith : RegionStack → List RegionPart → List RegionPart
  | bottom parts, more => parts ++ more
  | region outer opener parts, more =>
    outer.endWith
      [.formula (.flat (ofToken opener :: paired (parts ++ more) ++ [.leaf "\\right." ""]))]

/-- The formulas outside all brackets. Regions that are still open run to the end. -/
def ofTokens (tokens : List Token) : List Formula :=
  paired ((tokens.foldl push (bottom [])).endWith [])

@[simp] theorem run_cons (stack : RegionStack) (placed : Placed) (tokens : List Placed) :
    stack.run (placed :: tokens) = (stack.push placed.token).run tokens := rfl

theorem run_append (stack : RegionStack) (front back : List Placed) :
    stack.run (front ++ back) = (stack.run front).run back := List.foldl_append

@[simp] theorem add_nil (stack : RegionStack) : stack.add [] = stack := by
  cases stack <;> simp [add]

theorem add_add (stack : RegionStack) (first second : List RegionPart) :
    (stack.add first).add second = stack.add (first ++ second) := by
  cases stack <;> simp [add]

theorem endWith_add (stack : RegionStack) (first second : List RegionPart) :
    (stack.add first).endWith second = stack.endWith (first ++ second) := by
  cases stack <;> simp [add, endWith]

/-- Running over some tokens adds parts to the innermost region, whatever stack that is in, as far
as the tokens close no bracket of the stack. -/
structure Adds (tokens : List Placed) (parts : List RegionPart) : Prop where
  balanced : Region.depthAfter? 0 tokens = some 0 → ∀ stack, run stack tokens = stack.add parts
  unclosed : Region.depthAfter? 0 tokens ≠ none →
    ∀ stack, (run stack tokens).endWith [] = stack.endWith parts
  bottom : ∀ before, (run (bottom before) tokens).endWith [] = before ++ parts

namespace Adds

theorem nil : Adds [] [] where
  balanced _ stack := stack.add_nil.symm
  unclosed _ _ := rfl
  bottom _ := rfl

variable {placed : Placed} {tokens : List Placed} {parts : List RegionPart}

/-- A token that leaves the depth as it is, and the part that it stands for. -/
theorem cons {part : RegionPart} (more : Adds tokens parts)
    (stays : Region.nextDepth? placed.category 0 = some 0)
    (pushed : ∀ stack : RegionStack, stack.push placed.token = stack.add [part]) :
    Adds (placed :: tokens) (part :: parts) where
  balanced h stack := by
    rw [Region.depthAfter?_cons stays] at h
    rw [run_cons, pushed, more.balanced h, add_add, List.singleton_append]
  unclosed h stack := by
    rw [Region.depthAfter?_cons stays] at h
    rw [run_cons, pushed, more.unclosed h, endWith_add, List.singleton_append]
  bottom before := by
    rw [run_cons, pushed, add, more.bottom, List.append_assoc, List.singleton_append]

theorem stray (more : Adds tokens parts) (closes : placed.category = .closer) :
    Adds (placed :: tokens) (.stray placed.token :: parts) where
  balanced h := by simp [Region.depthAfter?, closes, Region.nextDepth?] at h
  unclosed h := by simp [Region.depthAfter?, closes, Region.nextDepth?] at h
  bottom before := by
    have pushed : (RegionStack.bottom before).push placed.token =
        .bottom (before ++ [.stray placed.token]) := by
      simp [push, show placed.token.category = .closer from closes, close]
    rw [run_cons, pushed, more.bottom, List.append_assoc, List.singleton_append]

theorem append {front : List Placed} {first : List RegionPart} (h : Adds front first)
    (balanced : Region.depthAfter? 0 front = some 0) (more : Adds tokens parts) :
    Adds (front ++ tokens) (first ++ parts) := by
  have depth : Region.depthAfter? 0 (front ++ tokens) = Region.depthAfter? 0 tokens := by
    rw [Region.depthAfter?_append, balanced]
    rfl
  have made (stack : RegionStack) : stack.run (front ++ tokens) = (stack.add first).run tokens := by
    rw [run_append, h.balanced balanced]
  refine ⟨fun h stack ↦ ?_, fun h stack ↦ ?_, fun before ↦ ?_⟩
  · rw [made, more.balanced (depth ▸ h), add_add]
  · rw [made, more.unclosed (depth ▸ h), endWith_add]
  · rw [made, add, more.bottom, List.append_assoc]

theorem leaf (more : Adds tokens parts) (leaf : placed.category.isLeaf) :
    Adds (placed :: tokens) (.formula (ofToken placed.token) :: parts) := by
  rw [Placed.category] at leaf
  refine more.cons ?_ fun stack ↦ ?_
  · exact nextDepth?_of_isLeaf leaf 0
  · unfold push
    split <;> simp_all [Category.isLeaf]

theorem bar (more : Adds tokens parts) (category : placed.category = .bar) :
    Adds (placed :: tokens) (.bar placed.token :: parts) := by
  refine more.cons (by rw [category]; rfl) fun stack ↦ ?_
  rw [push, show placed.token.category = .bar from category]

variable (opens : placed.category = .opener)

include opens

theorem push_opener (stack : RegionStack) :
    stack.push placed.token = region stack placed.token [] := by
  simp [push, show placed.token.category = .opener from opens]

theorem open_region (inside : Adds tokens parts) (unmatched : Region.ofBrackets? 0 tokens = none) :
    Adds (placed :: tokens)
      [.formula (.flat (ofToken placed.token :: paired parts ++ [.leaf "\\right." ""]))] := by
  have unclosed := Region.depthAfter?_ne_none_of_ofBrackets? unmatched
  have ends (stack : RegionStack) : (stack.run (placed :: tokens)).endWith [] = stack.endWith
      [.formula (.flat (ofToken placed.token :: paired parts ++ [.leaf "\\right." ""]))] := by
    rw [run_cons, push_opener opens, inside.unclosed unclosed]
    rfl
  refine ⟨fun h ↦ ?_, fun _ ↦ ends, fun before ↦ ends (.bottom before)⟩
  have opened := Region.nextDepth?_of_opener opens 0
  rw [Region.depthAfter?_cons opened] at h
  obtain ⟨region, matched⟩ := Region.exists_ofBrackets? h
  rw [matched] at unmatched
  cases unmatched

theorem group {region : Region} {more : List RegionPart}
    (matched : Region.ofBrackets? 0 tokens = some region) (inside : Adds region.inside parts)
    (after : Adds region.after more) :
    Adds (placed :: tokens)
      (.formula (.flat (ofToken placed.token :: paired parts ++ [ofToken region.closer.token])) ::
        more) := by
  obtain ⟨rfl, closes, balanced⟩ := Region.ofBrackets?_eq_some matched
  have opened := Region.nextDepth?_of_opener opens 0
  have depth := (Region.depthAfter?_cons opened _).trans (Region.depthAfter?_region balanced closes)
  have made (stack : RegionStack) : stack.run (placed :: (region.inside ++ region.closer ::
      region.after)) = (stack.add [.formula (.flat (ofToken placed.token :: paired parts ++
        [ofToken region.closer.token]))]).run region.after := by
    rw [run_cons, push_opener opens, run_append, inside.balanced balanced, run_cons]
    simp [push, show region.closer.token.category = .closer from closes, add, close]
  refine ⟨fun h stack ↦ ?_, fun h stack ↦ ?_, fun before ↦ ?_⟩
  · rw [made, after.balanced (depth ▸ h), add_add, List.singleton_append]
  · rw [made, after.unclosed (depth ▸ h), endWith_add, List.singleton_append]
  · rw [made, add, after.bottom, List.append_assoc, List.singleton_append]

end Adds

end RegionStack

/-- A bracket, a leaf that takes nothing in, or a bar of one kind. -/
def Token.Barred (bar : String) (token : Token) : Prop :=
  token.Plain ∨ token.category = .bar ∧ token.value = bar

instance (bar : String) (token : Token) : Decidable (token.Barred bar) :=
  inferInstanceAs (Decidable (_ ∨ _))

namespace Token.Barred

variable {bar : String} {token : Token} (barred : token.Barred bar)

include barred

theorem category : token.category.isLeaf ∨ token.category ∈ [.opener, .closer, .bar] := by
  rcases barred with (opens | closes | ⟨leaf, -⟩) | ⟨category, -⟩
  · simp [opens]
  · simp [closes]
  · exact .inl leaf
  · simp [category]

theorem not_follows : ¬ token.category.follows := by
  rcases barred with plain | ⟨category, -⟩
  · exact plain.not_follows
  · simp [category, Category.follows]

theorem not_isRowSeparator : token.isRowSeparator = false := by
  rcases barred with plain | ⟨category, -⟩
  · exact plain.not_isRowSeparator
  · simp [isRowSeparator, category]

theorem value (category : token.category = .bar) : token.value = bar := by
  rcases barred with (opens | closes | ⟨leaf, -⟩) | ⟨-, value⟩
  · simp [category] at opens
  · simp [category] at closes
  · simp [category, Category.isLeaf] at leaf
  · exact value

theorem unruled (leaf : token.category.isLeaf) : token.flag ≠ some .rowRule := by
  rcases barred with (category | category | ⟨-, unruled⟩) | ⟨category, -⟩
  · simp [category, Category.isLeaf] at leaf
  · simp [category, Category.isLeaf] at leaf
  · exact unruled
  · simp [category, Category.isLeaf] at leaf

end Token.Barred

namespace Formula

variable {bar : String} {levels : Nat} {placed : Placed} {tokens : List Placed}

/-- What a bracket, a leaf or a bar makes of the tokens behind it. -/
inductive BarredStep (levels : Nat) (placed : Placed) (tokens : List Placed) :
    Formula → List Placed → Prop where
  | leaf (category : placed.category.isLeaf) :
      BarredStep levels placed tokens (ofToken placed.token) tokens
  | stray (category : placed.category = .closer) :
      BarredStep levels placed tokens (strayCloser placed.token) tokens
  | unclosed {body : List Formula} (category : placed.category = .opener)
      (unmatched : Region.ofBrackets? 0 tokens = none)
      (inside : Reads (.sequence levels tokens body)) :
      BarredStep levels placed tokens
        (.flat (ofToken placed.token :: body ++ [.leaf "\\right." ""])) []
  | group {region : Region} {body : List Formula} (category : placed.category = .opener)
      (matched : Region.ofBrackets? 0 tokens = some region)
      (inside : Reads (.sequence levels region.inside body)) :
      BarredStep levels placed tokens
        (.flat (ofToken placed.token :: body ++ [ofToken region.closer.token])) region.after
  | relation (category : placed.category = .bar)
      (unmatched : Region.ofBars? placed.token.value 0 tokens = none) :
      BarredStep levels placed tokens (Stretch.relation placed.token) tokens
  | pair {region : Region} {body : List Formula} (category : placed.category = .bar)
      (matched : Region.ofBars? placed.token.value 0 tokens = some region)
      (inside : Reads (.sequence levels region.inside body)) :
      BarredStep levels placed tokens (Stretch.group placed.token body) region.after

theorem Reads.followers_eq {links : Nat} {base found : Formula} {after : List Placed}
    (h : Reads (.followers levels links base tokens found after))
    (ends : ∀ next ∈ tokens.head?, ¬ next.category.follows) : found = base ∧ after = tokens := by
  cases h with
  | followersEnd => exact ⟨rfl, rfl⟩
  | scriptFollows category | infixFollows category | postfixFollows category =>
    exact absurd (by simp [category, Category.follows]) (ends _ rfl)

theorem not_hasRows_of_barred {inside : List Placed}
    (barred : ∀ placed ∈ inside, placed.token.Barred bar) : ¬ Region.hasRows 0 inside := by
  rw [Region.hasRows_of_forall_not fun placed mem ↦ (barred placed mem).not_isRowSeparator]
  exact Bool.false_ne_true

theorem Reads.barredStep {found : Formula} {after : List Placed}
    (h : Reads (.whole levels (placed :: tokens) found after))
    (barred : ∀ next ∈ placed :: tokens, next.token.Barred bar) :
    ∃ inner, BarredStep inner placed tokens found after := by
  obtain ⟨here, more⟩ := List.forall_mem_cons.1 barred
  cases h with
  | @whole inner _ base middle _ _ reads follows =>
    have taken := reads.proceeds.takes.forall_mem barred
    obtain ⟨rfl, rfl⟩ := follows.followers_eq fun next hnext ↦
      (taken next (List.mem_of_mem_head? hnext)).not_follows
    have known : placed.category.isLeaf ∨ placed.category ∈ [.opener, .closer, .bar] :=
      here.category
    refine ⟨inner, ?_⟩
    cases reads with
    | leaf category => exact .leaf category
    | ruledRegion category flag => exact absurd flag (here.unruled category)
    | bracketRegion category region =>
      cases region with
      | unclosed unmatched inside => exact .unclosed category unmatched inside
      | group matched _ inside => exact .group category matched inside
      | grid matched rows =>
        obtain ⟨rfl, -, -⟩ := Region.ofBrackets?_eq_some matched
        exact absurd rows (not_hasRows_of_barred (List.forall_mem_append.1 more).1)
    | loneBar category unmatched => exact .relation category unmatched
    | barGroup category matched inside => exact .pair category matched inside
    | barGrid category matched rows =>
      obtain ⟨rfl, -, -, -⟩ := Region.ofBars?_eq_some matched
      exact absurd rows (not_hasRows_of_barred (List.forall_mem_append.1 more).1)
    | strayCloser category => exact .stray category
    | prefixed category | mark category | strayOperator category =>
      rcases category with h | h <;> simp [h, Category.isLeaf] at known
    | prefixedPair category | leadingSign category | sign category | unscripted category
    | scriptedOnce category | scriptedTwice category | derivativeBare category
    | derivativeBy category => simp [category, Category.isLeaf] at known

/-- The parts of some tokens, and what is known of them where no bar of the kind is ahead. -/
structure Parted (bar : String) (tokens : List Placed) (found : List Formula)
    (parts : List RegionPart) : Prop where
  adds : RegionStack.Adds tokens parts
  paired : RegionPart.paired parts = found
  lone : Region.ofBars? bar 0 tokens = none → (Stretch.cut parts).1.bars = []
  formulas : Region.ofBars? bar 0 tokens = none → Region.depthAfter? 0 tokens = some 0 →
    parts = found.map .formula

namespace Parted

variable {found body : List Formula} {parts more : List RegionPart}

theorem nil (bar : String) : Parted bar [] [] [] := ⟨.nil, rfl, fun _ ↦ rfl, fun _ _ ↦ rfl⟩

/-- A formula in front, behind which no more brackets are open than before it. -/
theorem cons {first : Formula} {after : List Placed} (h : Parted bar after found parts)
    (adds : RegionStack.Adds (placed :: tokens) (.formula first :: parts))
    (ahead : Region.ofBars? bar 0 (placed :: tokens) = none → Region.ofBars? bar 0 after = none)
    (depth : Region.depthAfter? 0 (placed :: tokens) = Region.depthAfter? 0 after) :
    Parted bar (placed :: tokens) (first :: found) (.formula first :: parts) where
  adds := adds
  paired := congrArg (first :: ·) h.paired
  lone none := h.lone (ahead none)
  formulas none balanced := by rw [h.formulas (ahead none) (depth ▸ balanced), List.map_cons]

theorem leaf (h : Parted bar tokens found parts) (category : placed.category.isLeaf) :
    Parted bar (placed :: tokens) (ofToken placed.token :: found)
      (.formula (ofToken placed.token) :: parts) := by
  have stays := nextDepth?_of_isLeaf category 0
  refine h.cons (h.adds.leaf category) (fun none ↦ ?_) (Region.depthAfter?_cons stays tokens)
  have other : placed.category ≠ .bar := by
    rintro bar
    simp [bar, Category.isLeaf] at category
  simpa [Region.ofBars?_cons, stays, other] using none

theorem stray (h : Parted bar tokens found parts) (category : placed.category = .closer) :
    Parted bar (placed :: tokens) (strayCloser placed.token :: found)
      (.stray placed.token :: parts) where
  adds := h.adds.stray category
  paired := congrArg (_ :: ·) h.paired
  lone _ := rfl
  formulas _ balanced := by simp [Region.depthAfter?, category, Region.nextDepth?] at balanced

theorem unclosed (inside : Parted bar tokens body parts) (category : placed.category = .opener)
    (unmatched : Region.ofBrackets? 0 tokens = none) :
    Parted bar (placed :: tokens)
      [.flat (ofToken placed.token :: body ++ [.leaf "\\right." ""])]
      [.formula (.flat (ofToken placed.token :: body ++ [.leaf "\\right." ""]))] where
  adds := inside.paired ▸ inside.adds.open_region category unmatched
  paired := rfl
  lone _ := rfl
  formulas _ _ := rfl

theorem group {region : Region} (h : Parted bar region.after found more)
    (matched : Region.ofBrackets? 0 tokens = some region)
    (inside : Parted bar region.inside body parts) (category : placed.category = .opener) :
    Parted bar (placed :: tokens)
      (.flat (ofToken placed.token :: body ++ [ofToken region.closer.token]) :: found)
      (.formula (.flat (ofToken placed.token :: body ++ [ofToken region.closer.token])) ::
        more) := by
  obtain ⟨split, closes, balanced⟩ := Region.ofBrackets?_eq_some matched
  have opened := Region.nextDepth?_of_opener category 0
  have depth : Region.depthAfter? 0 (placed :: tokens) = Region.depthAfter? 0 region.after := by
    rw [Region.depthAfter?_cons opened, split]
    exact Region.depthAfter?_region balanced closes
  refine h.cons ?_ (fun none ↦ ?_) depth
  · rw [← inside.paired]
    exact .group category matched inside.adds h.adds
  · rw [← Region.ofBars?_eq_none_of_ofBrackets? matched]
    simpa [Region.ofBars?_cons, category, Region.nextDepth?] using none

/-- Where a bar of the kind is ahead there is nothing to say of formulas alone. -/
theorem of_bar (adds : RegionStack.Adds (placed :: tokens) parts)
    (paired : RegionPart.paired parts = found) (category : placed.category = .bar)
    (value : placed.token.value = bar) : Parted bar (placed :: tokens) found parts := by
  have ahead : Region.ofBars? bar 0 (placed :: tokens) ≠ none := by
    simp [Region.ofBars?_cons, category, value, Region.nextDepth?]
  exact ⟨adds, paired, fun none ↦ absurd none ahead, fun none ↦ absurd none ahead⟩

theorem relation (h : Parted bar tokens found parts) (category : placed.category = .bar)
    (value : placed.token.value = bar) (unmatched : Region.ofBars? bar 0 tokens = none) :
    Parted bar (placed :: tokens) (Stretch.relation placed.token :: found)
      (.bar placed.token :: parts) := by
  refine of_bar (h.adds.bar category) ?_ category value
  rw [paired_lone (h.lone unmatched), h.paired]

theorem pair {region : Region} (h : Parted bar region.after found more)
    (matched : Region.ofBars? bar 0 tokens = some region)
    (inside : Parted bar region.inside body parts) (category : placed.category = .bar)
    (value : placed.token.value = bar) :
    Parted bar (placed :: tokens) (Stretch.group placed.token body :: found)
      (.bar placed.token :: (body.map .formula ++ .bar region.closer.token :: more)) := by
  obtain ⟨split, closes, -, balanced⟩ := Region.ofBars?_eq_some matched
  have formulas := inside.formulas (Region.ofBars?_inside matched) balanced
  have adds := (inside.adds.append balanced (h.adds.bar closes)).bar category
  rw [← split, formulas] at adds
  refine of_bar adds ?_ category value
  rw [paired_pair, h.paired]

end Parted

theorem Reads.sequence_nil {found : List Formula} (h : Reads (.sequence levels [] found)) :
    found = [] := by
  cases h with
  | sequenceEnd => rfl
  | sequenceStep reads =>
    obtain ⟨placed, tokens, nothing, -⟩ := reads.proceeds
    cases nothing

/-- What is read one after the other is what the parts of the tokens are with their bars paired. -/
theorem exists_parted {found : List Formula} (reads : Reads (.sequence levels tokens found))
    (barred : ∀ placed ∈ tokens, placed.token.Barred bar) :
    ∃ parts, Parted bar tokens found parts := by
  -- What stands in a region and what follows it are both shorter than the tokens from its start on.
  induction hlength : tokens.length using Nat.strongRecOn generalizing levels tokens found with
  | _ length ih =>
    subst hlength
    cases reads with
    | sequenceEnd => exact ⟨[], .nil bar⟩
    | sequenceStep reads more =>
      obtain ⟨placed, rest, rfl, -, takes⟩ := reads.proceeds
      obtain ⟨here, later⟩ := List.forall_mem_cons.1 barred
      obtain ⟨inner, step⟩ := reads.barredStep barred
      have shorter := takes.length_le
      obtain ⟨parts, parted⟩ := ih _ (Nat.lt_succ_of_le shorter) more (takes.forall_mem later) rfl
      cases step with
      | leaf category => exact ⟨_, parted.leaf category⟩
      | stray category => exact ⟨_, parted.stray category⟩
      | unclosed category unmatched inside =>
        obtain ⟨body, within⟩ := ih _ (Nat.lt_succ_self _) inside later rfl
        rw [more.sequence_nil]
        exact ⟨_, within.unclosed category unmatched⟩
      | @group region _ category matched inside =>
        obtain ⟨split, -, -⟩ := Region.ofBrackets?_eq_some matched
        rw [split] at later
        have less : region.inside.length < (placed :: rest).length := by
          simp only [split, List.length_cons, List.length_append]
          omega
        obtain ⟨body, within⟩ := ih _ less inside (List.forall_mem_append.1 later).1 rfl
        exact ⟨_, parted.group matched within category⟩
      | relation category unmatched =>
        have value := here.value category
        exact ⟨_, parted.relation category value (value ▸ unmatched)⟩
      | @pair region _ category matched inside =>
        have value := here.value category
        obtain ⟨split, -, -, -⟩ := Region.ofBars?_eq_some matched
        rw [split] at later
        have less : region.inside.length < (placed :: rest).length := by
          simp only [split, List.length_cons, List.length_append]
          omega
        obtain ⟨body, within⟩ := ih _ less inside (List.forall_mem_append.1 later).1 rfl
        exact ⟨_, parted.pair (value ▸ matched) within category value⟩

/-- In a list of brackets, leaves and bars of one kind that can be read, consecutive bars of a
stretch are paired, and no bars of two regions. -/
theorem ofTokens_barred {bar : String} {tokens : List Token}
    (barred : ∀ token ∈ tokens, token.Barred bar) {formula : Formula}
    (read : ofTokens tokens = .ok formula) : formula = .root (RegionStack.ofTokens tokens) := by
  obtain ⟨found, rfl, reads⟩ := reads_of_ofTokens read
  obtain ⟨parts, parted⟩ := exists_parted reads fun placed mem ↦
    barred placed.token (Placed.token_mem_of_mem_ofTokens mem)
  have stacked : RegionStack.run (.bottom []) (Placed.ofTokens tokens) =
      tokens.foldl RegionStack.push (.bottom []) := by
    conv_rhs => rw [← Placed.map_token_ofTokens tokens, List.foldl_map]
    rfl
  rw [RegionStack.ofTokens, ← stacked, parted.adds.bottom [], List.nil_append, parted.paired]

/-- A pair around a bar in brackets, and two bars with a stray closer between them. -/
def barsInRegions : List Token :=
  let bar (column : Nat) : Token := ⟨"|", "|", .bar, true, none, ⟨1, column⟩⟩
  let closer (column : Nat) : Token := ⟨")", "\\right)", .closer, true, none, ⟨1, column⟩⟩
  [bar 1, ⟨"(", "\\left(", .opener, true, none, ⟨1, 2⟩⟩, bar 3, closer 4, bar 5, bar 6, closer 7,
    bar 8]

theorem ofTokens_barsInRegions : ∃ formula, ofTokens barsInRegions = .ok formula ∧
    formula = .root [.flat [.leaf "\\left|" "|",
        .flat [.leaf "\\left(" "(", .leaf "\\mid" "|", .leaf "\\right)" ")"],
        .leaf "\\right|" "|"],
      .leaf "\\mid" "|", .leaf "\\left. \\right)" ")", .leaf "\\mid" "|"] :=
  ⟨_, rfl, @ofTokens_barred "|" barsInRegions (by decide) _ rfl⟩

end Formula

end AsciiMath
