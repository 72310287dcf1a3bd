import AsciiMath.Proofs.Formula.Lookahead

/-!
# Chains of followers

Scripts and operators behind a leaf fold to the left: each takes for its base all that stands in
front of it. Only the scripts right behind the second operand of an operator belong to that operand.
A chain is refused at the first follower for which no level is left, or at the first script of an
operand for which none is left, whichever comes first. The two are counted apart.
-/

namespace AsciiMath

open Formula

/-- A script with a leaf for its argument. -/
structure LeafScript where
  operator : Token
  argument : Token
  category : operator.category = .script
  leaf : argument.category.isLeaf

namespace LeafScript

def tokens (script : LeafScript) : List Token := [script.operator, script.argument]

def onto (base : Formula) (script : LeafScript) : Formula :=
  .flat [base, .unary script.operator.template (ofToken script.argument)]

/-- A base with a script is no group of brackets. -/
theorem stripBrackets_onto (script : LeafScript) (base : Formula) :
    (script.onto base).stripBrackets = script.onto base := by
  rw [onto, stripBrackets, groupBody?]
  simp [isLeafFrom]

theorem stripBrackets_foldl (scripts : List LeafScript) (leaf : Token) :
    (scripts.foldl onto (ofToken leaf)).stripBrackets = scripts.foldl onto (ofToken leaf) := by
  rcases List.eq_nil_or_concat scripts with rfl | ⟨scripts, script, rfl⟩
  · rfl
  · rw [List.concat_eq_append, List.foldl_append]
    exact script.stripBrackets_onto _

end LeafScript

/-- What takes the formula in front of it for its base, with leaves for all other operands. -/
inductive Follower where
  | scripted (script : LeafScript)
  | operated (operator : Token) (category : operator.category = .postfixOp)
  | joined (operator operand : Token) (scripts : List LeafScript)
    (category : operator.category = .infixOp) (leaf : operand.category.isLeaf)

namespace Follower

def operator : Follower → Token
  | scripted script => script.operator
  | operated operator _ | joined operator _ _ _ _ => operator

/-- The scripts of the second operand. -/
def scripts : Follower → List LeafScript
  | joined _ _ scripts _ _ => scripts
  | scripted _ | operated _ _ => []

/-- The tokens behind the operator. -/
def operands : Follower → List Token
  | scripted script => [script.argument]
  | operated _ _ => []
  | joined _ operand scripts _ _ => operand :: scripts.flatMap LeafScript.tokens

def tokens (follower : Follower) : List Token := follower.operator :: follower.operands

def onto (base : Formula) : Follower → Formula
  | scripted script => script.onto base
  | operated operator _ => .unary operator.template base
  | joined operator operand scripts _ _ =>
    .binary operator.template base (scripts.foldl LeafScript.onto (ofToken operand))

theorem stripBrackets_onto (follower : Follower) (base : Formula) :
    (follower.onto base).stripBrackets = follower.onto base := by
  cases follower with
  | scripted script => exact script.stripBrackets_onto base
  | operated | joined => rfl

/-- A script behind an operand belongs to that operand and is no follower of its own. -/
abbrev Apart (first next : Follower) : Prop :=
  next.operator.category = .script → first.operator.category ≠ .infixOp

theorem follows (follower : Follower) : follower.operator.category.follows := by
  cases follower with
  | scripted script => simp [operator, script.category, Category.follows]
  | operated operator category => simp [Follower.operator, category, Category.follows]
  | joined operator operand scripts category => simp [Follower.operator, category, Category.follows]

/-- The first operator that is one too many, as a follower or as a script of an operand. -/
def Exceeds (limit : Nat) (followers : List Follower) (operator : Token) : Prop :=
  ∃ front follower back, followers = front ++ follower :: back ∧ front.length ≤ limit ∧
    (∀ earlier ∈ front, earlier.scripts.length ≤ limit) ∧
      (front.length = limit ∧ operator = follower.operator ∨
        front.length < limit ∧ ∃ script, follower.scripts[limit]? = some script ∧
          operator = script.operator)

theorem exists_exceeds {limit : Nat} {followers : List Follower}
    (h : ¬ (followers.length ≤ limit ∧ ∀ follower ∈ followers, follower.scripts.length ≤ limit)) :
    ∃ operator, Exceeds limit followers operator := by
  induction followers using List.reverseRecOn with
  | nil => simp at h
  | append_singleton followers follower ih =>
    by_cases earlier : followers.length ≤ limit ∧
        ∀ follower ∈ followers, follower.scripts.length ≤ limit
    · rcases earlier.1.eq_or_lt with full | room
      · exact ⟨follower.operator, followers, follower, [], rfl, earlier.1, earlier.2,
          .inl ⟨full, rfl⟩⟩
      · have long : limit < follower.scripts.length := by
          by_contra short
          refine h ⟨by simpa using Nat.succ_le_of_lt room, fun other mem ↦ ?_⟩
          rcases List.mem_append.1 mem with mem | mem
          · exact earlier.2 other mem
          · rw [List.mem_singleton.1 mem]
            exact Nat.le_of_not_lt short
        exact ⟨follower.scripts[limit].operator, followers, follower, [], rfl, earlier.1, earlier.2,
          .inr ⟨room, _, List.getElem?_eq_getElem long, rfl⟩⟩
    · obtain ⟨operator, front, first, back, rfl, spec⟩ := ih earlier
      exact ⟨operator, front, first, back ++ [follower], by simp, spec⟩

end Follower

namespace Formula

theorem head?_follow (leads : Bool) (tokens : List Token) :
    (Placed.follow leads tokens).head? = tokens.head?.map (⟨·, leads⟩) := by
  cases tokens <;> rfl

/-- No bracket opens a region at the start of the tokens. -/
def Unopened (tokens : List Token) : Prop := ∀ next ∈ tokens.head?, next.category ≠ .opener

/-- The token takes no bracket behind it into a matrix. -/
def Unruled (token : Token) (rest : List Token) : Prop := token.flag = some .rowRule → Unopened rest

theorem takesOperand_of_isLeaf {category : Category} (h : category.isLeaf) :
    category.takesOperand = false := by
  cases category <;> simp_all [Category.isLeaf, Category.takesOperand]

theorem readAlone_unruled {deeper : Bool → Reader} {levels : Nat} {leaf : Token}
    (category : leaf.category.isLeaf) {rest : List Token} (unruled : Unruled leaf rest)
    (leads : Bool) :
    readAlone deeper levels ⟨leaf, leads⟩ (Placed.follow false rest) =
      .ok (ofToken leaf, Placed.follow false rest) := by
  refine readAlone_leaf category fun next hnext flag ↦ ?_
  rw [head?_follow] at hnext
  obtain ⟨token, htoken, rfl⟩ := Option.map_eq_some_iff.1 hnext
  exact unruled flag token htoken

theorem readAlone_follow {deeper : Bool → Reader} {levels : Nat} {leaf : Token}
    (category : leaf.category.isLeaf) {rest : List Token} (unopened : Unopened rest)
    (leads : Bool) :
    readAlone deeper levels ⟨leaf, leads⟩ (Placed.follow false rest) =
      .ok (ofToken leaf, Placed.follow false rest) :=
  readAlone_unruled category (fun _ ↦ unopened) leads

theorem operand_unruled (levels : Nat) {leaf : Token} (category : leaf.category.isLeaf)
    {rest : List Token} (unruled : Unruled leaf rest) (leads : Bool) :
    operand (read (levels + 1)) (Placed.follow leads (leaf :: rest)) =
      .ok (ofToken leaf, Placed.follow false rest) := by
  have starts : (⟨leaf, leads⟩ : Placed).category ∉ [.separator, .alignMark, .closer] := by
    cases h : leaf.category <;> simp_all [Placed.category, Category.isLeaf]
  rw [Placed.follow, takesOperand_of_isLeaf category, operand, if_neg starts, read,
    readAlone_unruled category unruled]
  rfl

theorem operand_leaf (levels : Nat) {leaf : Token} (category : leaf.category.isLeaf)
    {rest : List Token} (unopened : Unopened rest) (leads : Bool) :
    operand (read (levels + 1)) (Placed.follow leads (leaf :: rest)) =
      .ok (ofToken leaf, Placed.follow false rest) :=
  operand_unruled levels category (fun _ ↦ unopened) leads

theorem strippedOperand_leaf (levels : Nat) {leaf : Token} (category : leaf.category.isLeaf)
    {rest : List Token} (unopened : Unopened rest) (leads : Bool) :
    strippedOperand (read (levels + 1)) (Placed.follow leads (leaf :: rest)) =
      .ok (ofToken leaf, Placed.follow false rest) := by
  rw [strippedOperand, operand_leaf levels category unopened]
  rfl

theorem unopened_scripts (scripts : List LeafScript) {rest : List Token}
    (unopened : Unopened rest) : Unopened (scripts.flatMap LeafScript.tokens ++ rest) := by
  cases scripts with
  | nil => exact unopened
  | cons script scripts =>
    rintro next ⟨⟩
    simp [script.category]

/-- Scripts fold onto their base as long as links are left. -/
theorem attachScripts_scripts (levels links : Nat) (base : Formula) (scripts : List LeafScript)
    {rest : List Token} (unopened : Unopened rest) :
    attachScripts (read (levels + 1)) (links + scripts.length) base
        (Placed.follow false (scripts.flatMap LeafScript.tokens ++ rest)) =
      attachScripts (read (levels + 1)) links (scripts.foldl LeafScript.onto base)
        (Placed.follow false rest) := by
  induction scripts generalizing base with
  | nil => rfl
  | cons script scripts ih =>
    have here : (⟨script.operator, false⟩ : Placed).category = .script := script.category
    have more := unopened_scripts scripts unopened
    rw [List.flatMap_cons, LeafScript.tokens, List.length_cons, ← Nat.add_assoc]
    change attachScripts _ _ base
      (⟨script.operator, false⟩ :: Placed.follow script.operator.category.takesOperand
        (script.argument :: (scripts.flatMap LeafScript.tokens ++ rest))) = _
    rw [attachScripts, if_pos here, strippedOperand_leaf levels script.leaf more]
    exact ih (script.onto base)

theorem attachScripts_eq_self {deeper : Bool → Reader} {links : Nat} {base : Formula}
    {tokens : List Placed} (ends : ∀ next ∈ tokens.head?, next.category ≠ .script) :
    attachScripts deeper links base tokens = .ok (base, tokens) := by
  cases tokens with
  | nil => cases links <;> rfl
  | cons next tokens =>
    unfold attachScripts
    exact if_neg (ends next rfl)

theorem attachScripts_ok (levels : Nat) {limit : Nat} (base : Formula) {scripts : List LeafScript}
    (short : scripts.length ≤ limit) {rest : List Token} (unopened : Unopened rest)
    (ends : ∀ next ∈ rest.head?, next.category ≠ .script) :
    attachScripts (read (levels + 1)) limit base
        (Placed.follow false (scripts.flatMap LeafScript.tokens ++ rest)) =
      .ok (scripts.foldl LeafScript.onto base, Placed.follow false rest) := by
  obtain ⟨links, rfl⟩ := Nat.exists_eq_add_of_le' short
  rw [attachScripts_scripts levels links base scripts unopened]
  refine attachScripts_eq_self fun next hnext ↦ ?_
  rw [head?_follow] at hnext
  obtain ⟨token, htoken, rfl⟩ := Option.map_eq_some_iff.1 hnext
  exact ends token htoken

theorem attachScripts_error (levels : Nat) {limit : Nat} (base : Formula)
    {scripts : List LeafScript} {script : LeafScript} (found : scripts[limit]? = some script)
    {rest : List Token} (unopened : Unopened rest) :
    attachScripts (read (levels + 1)) limit base
        (Placed.follow false (scripts.flatMap LeafScript.tokens ++ rest)) =
      .error (.nestingTooDeep script.operator.position) := by
  obtain ⟨long, rfl⟩ := List.getElem?_eq_some_iff.1 found
  have split : scripts.flatMap LeafScript.tokens ++ rest =
      (scripts.take limit).flatMap LeafScript.tokens ++
        ((scripts.drop limit).flatMap LeafScript.tokens ++ rest) := by
    rw [← List.append_assoc, ← List.flatMap_append, List.take_append_drop]
  have full : 0 + (scripts.take limit).length = limit := by
    rw [Nat.zero_add, List.length_take_of_le long.le]
  have folded := attachScripts_scripts levels 0 base (scripts.take limit)
    (unopened_scripts (scripts.drop limit) unopened)
  rw [full, ← split] at folded
  rw [folded, List.drop_eq_getElem_cons long]
  exact if_pos scripts[limit].category

section

variable (levels : Nat) {limit : Nat} {base : Formula} {follower : Follower} {rest : List Token}
  (unopened : Unopened rest)

include unopened

theorem withFollower_ok (bare : base.stripBrackets = base)
    (short : follower.scripts.length ≤ limit)
    (ends : follower.operator.category = .infixOp →
      ∀ next ∈ rest.head?, next.category ≠ .script) :
    withFollower (read (levels + 1)) limit base follower.operator
        (Placed.follow follower.operator.category.takesOperand (follower.operands ++ rest)) =
      .ok (follower.onto base, Placed.follow false rest) := by
  cases follower with
  | scripted script =>
    have argument := strippedOperand_leaf levels script.leaf unopened
    simp only [withFollower, Follower.operator, script.category, Follower.operands,
      List.singleton_append, argument]
    rfl
  | operated operator category =>
    simp only [withFollower, Follower.operator, category]
    rfl
  | joined operator leaf scripts category isLeaf =>
    have second := operand_leaf levels isLeaf (unopened_scripts scripts unopened)
    have scripted := attachScripts_ok levels (ofToken leaf) short unopened (ends category)
    simp only [Follower.scripts] at scripted
    simp only [withFollower, Follower.operator, category, Follower.operands, List.cons_append,
      second, bind, Except.bind, scripted, bare, LeafScript.stripBrackets_foldl]
    rfl

theorem withFollower_error {script : LeafScript}
    (found : follower.scripts[limit]? = some script) :
    withFollower (read (levels + 1)) limit base follower.operator
        (Placed.follow follower.operator.category.takesOperand (follower.operands ++ rest)) =
      .error (.nestingTooDeep script.operator.position) := by
  cases follower with
  | scripted | operated => simp [Follower.scripts] at found
  | joined operator leaf scripts category isLeaf =>
    have second := operand_leaf levels isLeaf (unopened_scripts scripts unopened)
    have refused := attachScripts_error levels (ofToken leaf) found unopened
    simp only [Follower.scripts] at refused
    simp only [withFollower, Follower.operator, category, Follower.operands, List.cons_append,
      second, bind, Except.bind, refused]

end

theorem unopened_followers (followers : List Follower) :
    Unopened (followers.flatMap Follower.tokens) := by
  cases followers with
  | nil => simp [Unopened]
  | cons follower followers =>
    rintro next ⟨⟩ opens
    have follows := follower.follows
    simp [opens, Category.follows] at follows

theorem not_script_of_apart {follower : Follower} {followers : List Follower}
    (apart : (follower :: followers).IsChain Follower.Apart)
    (category : follower.operator.category = .infixOp) :
    ∀ next ∈ (followers.flatMap Follower.tokens).head?, next.category ≠ .script := by
  cases followers with
  | nil => simp
  | cons next followers =>
    rintro token ⟨⟩ script
    exact (List.isChain_cons_cons.1 apart).1 script category

/-- The followers at the front fold onto the base, each for one of the links. -/
theorem attachFollowers_followers (levels : Nat) {limit : Nat} (links : Nat) {base : Formula}
    (bare : base.stripBrackets = base) {front back : List Follower}
    (apart : (front ++ back).IsChain Follower.Apart)
    (short : ∀ follower ∈ front, follower.scripts.length ≤ limit) :
    attachFollowers (read (levels + 1)) limit (links + front.length) base
        (Placed.follow false ((front ++ back).flatMap Follower.tokens)) =
      attachFollowers (read (levels + 1)) limit links (front.foldl Follower.onto base)
        (Placed.follow false (back.flatMap Follower.tokens)) := by
  induction front generalizing base with
  | nil => rfl
  | cons follower front ih =>
    obtain ⟨here, short⟩ := List.forall_mem_cons.1 short
    have follows : (⟨follower.operator, false⟩ : Placed).category.follows := follower.follows
    have first := withFollower_ok levels (unopened_followers (front ++ back)) bare here
      (not_script_of_apart apart)
    rw [List.length_cons, ← Nat.add_assoc, List.cons_append, List.flatMap_cons, Follower.tokens,
      List.cons_append, Placed.follow, attachFollowers, if_pos follows, first]
    exact ih (follower.stripBrackets_onto base) (List.IsChain.tail apart) short

/-- Behind a leaf a chain of followers folds to the left, unless it has an operator too many. -/
theorem attachFollowers_chain (levels limit : Nat) (leaf : Token) {followers : List Follower}
    (apart : followers.IsChain Follower.Apart) :
    (followers.length ≤ limit → (∀ follower ∈ followers, follower.scripts.length ≤ limit) →
      attachFollowers (read (levels + 1)) limit limit (ofToken leaf)
          (Placed.follow false (followers.flatMap Follower.tokens)) =
        .ok (followers.foldl Follower.onto (ofToken leaf), [])) ∧
    ∀ operator, Follower.Exceeds limit followers operator →
      attachFollowers (read (levels + 1)) limit limit (ofToken leaf)
          (Placed.follow false (followers.flatMap Follower.tokens)) =
        .error (.nestingTooDeep operator.position) := by
  have bare : (ofToken leaf).stripBrackets = ofToken leaf := rfl
  constructor
  · intro few short
    obtain ⟨links, rfl⟩ := Nat.exists_eq_add_of_le' few
    have whole : (followers ++ []).IsChain Follower.Apart := by rwa [List.append_nil]
    have folded := attachFollowers_followers levels links bare whole short
    rw [List.append_nil] at folded
    rw [folded]
    exact attachFollowers_eq_self (by simp [Placed.follow])
  · rintro operator ⟨front, follower, back, rfl, few, short, which⟩
    have follows : (⟨follower.operator, false⟩ : Placed).category.follows := follower.follows
    rcases which with ⟨full, rfl⟩ | ⟨room, script, found, rfl⟩
    · have folded := attachFollowers_followers levels 0 bare apart short
      rw [Nat.zero_add, full] at folded
      rw [folded]
      exact if_pos follows
    · obtain ⟨links, hlimit⟩ : ∃ links, limit = links + 1 + front.length :=
        ⟨limit - front.length - 1, by omega⟩
      have folded := attachFollowers_followers levels (links + 1) bare apart short
      rw [← hlimit] at folded
      rw [folded, List.flatMap_cons, Follower.tokens, List.cons_append, Placed.follow,
        attachFollowers, if_pos follows, withFollower_error levels (unopened_followers back) found]
      rfl

theorem ofTokens_leaf_cons {leaf : Token} (category : leaf.category.isLeaf) {rest : List Token}
    (unopened : Unopened rest) :
    ofTokens (leaf :: rest) =
      attachFollowers (read 63) 63 63 (ofToken leaf) (Placed.follow false rest) >>= fun found ↦
        (fun formulas ↦ .root (found.1 :: formulas)) <$> sequence (read 64 true) found.2 := by
  have levels : maxLevels = 63 + 1 := rfl
  rw [ofTokens, Placed.ofTokens, Placed.follow, takesOperand_of_isLeaf category, sequence_cons,
    levels, read, readAlone_follow category unopened]
  change root <$> (attachFollowers _ _ _ _ _ >>= fun found ↦ (found.1 :: ·) <$> _) = _
  simp only [map_bind, Functor.map_map]

/-- A leaf with up to sixty-three followers, each with up to sixty-three scripts behind its operand,
is read as the fold of the followers to the left. Of the operators beyond, the first one is
reported. -/
theorem ofTokens_chain (leaf : Token) (category : leaf.category.isLeaf)
    (followers : List Follower) (apart : followers.IsChain Follower.Apart) :
    (followers.length ≤ 63 ∧ (∀ follower ∈ followers, follower.scripts.length ≤ 63) →
      ofTokens (leaf :: followers.flatMap Follower.tokens) =
        .ok (.root [followers.foldl Follower.onto (ofToken leaf)])) ∧
    (¬ (followers.length ≤ 63 ∧ ∀ follower ∈ followers, follower.scripts.length ≤ 63) →
      ∃ operator, Follower.Exceeds 63 followers operator ∧
        ofTokens (leaf :: followers.flatMap Follower.tokens) =
          .error (.nestingTooDeep operator.position)) := by
  have chain := attachFollowers_chain 62 63 leaf apart
  rw [ofTokens_leaf_cons category (unopened_followers followers)]
  constructor
  · rintro ⟨few, short⟩
    rw [chain.1 few short]
    rfl
  · intro long
    obtain ⟨operator, exceeds⟩ := Follower.exists_exceeds long
    refine ⟨operator, exceeds, ?_⟩
    rw [chain.2 operator exceeds]
    rfl

/-- The letter `a` with a fraction, whose operand has two scripts, and with a factorial. -/
def fractionThenFactorial : List Follower :=
  [.joined ⟨"/", "\\frac\x7b $1 \x7d\x7b $2 \x7d", .infixOp, true, none, ⟨1, 2⟩⟩
      (.literal ['b'] .run ⟨1, 3⟩)
      [⟨⟨"_", "_\x7b $1 \x7d", .script, true, none, ⟨1, 4⟩⟩, .literal ['1'] .number ⟨1, 5⟩, rfl,
          rfl⟩,
        ⟨⟨"^", "^\x7b $1 \x7d", .script, true, none, ⟨1, 6⟩⟩, .literal ['2'] .number ⟨1, 7⟩, rfl,
          rfl⟩] rfl rfl,
    .operated ⟨"!", "$1 !", .postfixOp, true, none, ⟨1, 8⟩⟩ rfl]

theorem ofTokens_fractionThenFactorial :
    ofTokens (.literal ['a'] .run ⟨1, 1⟩ :: fractionThenFactorial.flatMap Follower.tokens) =
      .ok (.root [.unary "$1 !" (.binary "\\frac\x7b $1 \x7d\x7b $2 \x7d" (.leaf "a" "a")
        (.flat [.flat [.leaf "b" "b", .unary "_\x7b $1 \x7d" (.leaf "1" "1")],
          .unary "^\x7b $1 \x7d" (.leaf "2" "2")]))]) :=
  (ofTokens_chain (.literal ['a'] .run ⟨1, 1⟩) rfl fractionThenFactorial (by decide)).1
    ⟨by decide, by decide⟩

end Formula

end AsciiMath
