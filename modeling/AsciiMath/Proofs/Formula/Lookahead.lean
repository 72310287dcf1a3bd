import AsciiMath.Proofs.Formula.Outcome
import AsciiMath.Proofs.Formula.Stack

/-!
# Looking ahead for closers

Readers take the region of an opener at once, up to the closer that they find by looking ahead. On
brackets and leaves this finds the same formulas as a stack of open brackets does, and it stops at
the same token where the brackets nest too deep.
-/

namespace AsciiMath

namespace Region

theorem depthAfter?_ne_none_of_ofBrackets? {depth : Nat} {tokens : List Placed}
    (h : ofBrackets? depth tokens = none) : depthAfter? depth tokens ≠ none := by
  induction tokens generalizing depth with
  | nil => simp [depthAfter?_nil]
  | cons token tokens ih =>
    rw [ofBrackets?_cons] at h
    cases hnext : nextDepth? token.category depth with
    | none => simp [hnext] at h
    | some next =>
      rw [hnext, Option.map_eq_none_iff] at h
      rw [depthAfter?_cons hnext]
      exact ih h

theorem hasRows_of_forall_not {depth : Nat} {tokens : List Placed}
    (h : ∀ placed ∈ tokens, placed.token.isRowSeparator = false) :
    hasRows depth tokens = false := by
  induction tokens generalizing depth with
  | nil => rfl
  | cons token tokens ih =>
    obtain ⟨here, more⟩ := List.forall_mem_cons.1 h
    rw [hasRows]
    split
    · exact ih more
    · exact ih more
    · rw [here, Bool.and_false, Bool.false_or]
      exact ih more

end Region

theorem Token.Plain.not_isRowSeparator {token : Token} (plain : token.Plain) :
    token.isRowSeparator = false := by
  have other : token.category ≠ .separator := by
    rintro separator
    rcases plain with category | category | ⟨leaf, -⟩
    · simp [category] at separator
    · simp [category] at separator
    · simp [separator, Category.isLeaf] at leaf
  simp [isRowSeparator, other]

theorem Category.not_follows_of_isLeaf {category : Category} (leaf : category.isLeaf) :
    ¬ category.follows := by
  cases category <;> simp_all [Category.follows, Category.isLeaf]

theorem Token.Plain.not_follows {token : Token} (plain : token.Plain) :
    ¬ token.category.follows := by
  rcases plain with category | category | ⟨leaf, -⟩
  · simp [category, Category.follows]
  · simp [category, Category.follows]
  · exact Category.not_follows_of_isLeaf leaf

namespace Formula

theorem sequence_cons (levels : Nat) (placed : Placed) (tokens : List Placed) :
    sequence (read levels true) (placed :: tokens) =
      read levels true placed tokens >>= fun found ↦
        (found.1 :: ·) <$> sequence (read levels true) found.2 := by
  rw [sequence, List.length_cons, readEach]
  cases hread : read levels true placed tokens with
  | error cause => rfl
  | ok found =>
    have more := readEach_budget levels (length_le_of_read hread) (Nat.le_refl _)
    simp only [bind, Except.bind, more]
    rfl

theorem attachFollowers_eq_self {deeper : Bool → Reader} {levels links : Nat} {base : Formula}
    {tokens : List Placed} (ends : ∀ next ∈ tokens.head?, ¬ next.category.follows) :
    attachFollowers deeper levels links base tokens = .ok (base, tokens) := by
  cases tokens with
  | nil => cases links <;> rfl
  | cons next tokens =>
    unfold attachFollowers
    exact if_neg (ends next rfl)

theorem not_follows_of_plain {tokens : List Placed}
    (plain : ∀ placed ∈ tokens, placed.token.Plain) :
    ∀ next ∈ tokens.head?, ¬ next.category.follows :=
  fun next hnext ↦ (plain next (List.mem_of_mem_head? hnext)).not_follows

/-- A leaf is read by itself, unless it draws a rule in the matrix of the bracket behind it. -/
theorem readAlone_leaf {deeper : Bool → Reader} {levels : Nat} {placed : Placed}
    {tokens : List Placed} (leaf : placed.token.category.isLeaf)
    (unruled : ∀ next ∈ tokens.head?, placed.token.flag = some .rowRule →
      next.category ≠ .opener) :
    readAlone deeper levels placed tokens = .ok (ofToken placed.token, tokens) := by
  have made : ofLeaf deeper placed.token tokens = .ok (ofToken placed.token, tokens) := by
    cases tokens with
    | nil => rfl
    | cons next tokens =>
      rw [ofLeaf, if_neg]
      simpa using unruled next rfl
  cases category : placed.token.category <;> simp_all [readAlone, Category.isLeaf]

theorem read_unclosed {levels : Nat} {placed : Placed} {tokens : List Placed}
    (category : placed.token.category = .opener)
    (unmatched : Region.ofBrackets? 0 tokens = none) :
    read (levels + 1) true placed tokens = (sequence (read levels true) tokens).map fun body ↦
      (.flat (ofToken placed.token :: body ++ [.leaf "\\right." ""]), []) := by
  simp only [read, readAlone, category, bracketRegion, unmatched]
  cases sequence (read levels true) tokens with
  | error cause => rfl
  | ok body => exact attachFollowers_eq_self (by simp)

section

variable {levels : Nat} {placed : Placed} {tokens : List Placed}
  (plain : ∀ next ∈ tokens, next.token.Plain)

include plain

theorem read_leaf (leaf : placed.token.category.isLeaf)
    (unruled : placed.token.flag ≠ some .rowRule) :
    read (levels + 1) true placed tokens = .ok (ofToken placed.token, tokens) := by
  rw [read, readAlone_leaf leaf fun _ _ flag ↦ absurd flag unruled]
  exact attachFollowers_eq_self (not_follows_of_plain plain)

theorem read_closer (category : placed.token.category = .closer) :
    read (levels + 1) true placed tokens = .ok (BracketStack.strayCloser placed.token, tokens) := by
  rw [read, readAlone, category]
  exact attachFollowers_eq_self (not_follows_of_plain plain)

theorem read_group (category : placed.token.category = .opener) {region : Region}
    (matched : Region.ofBrackets? 0 tokens = some region) :
    read (levels + 1) true placed tokens =
      (sequence (read levels true) region.inside).map fun body ↦
        (.flat (ofToken placed.token :: body ++ [ofToken region.closer.token]), region.after) := by
  obtain ⟨rfl, -, -⟩ := Region.ofBrackets?_eq_some matched
  obtain ⟨inside, rest⟩ := List.forall_mem_append.1 plain
  obtain ⟨-, after⟩ := List.forall_mem_cons.1 rest
  have rowless : Region.hasRows 0 region.inside = false :=
    Region.hasRows_of_forall_not fun next mem ↦ (inside next mem).not_isRowSeparator
  simp only [read, readAlone, category, bracketRegion, matched, rowless]
  cases sequence (read levels true) region.inside with
  | error cause => rfl
  | ok body => exact attachFollowers_eq_self (not_follows_of_plain after)

end

/-- Leaves stand for themselves, one by one. No rule keyword among them finds a bracket. -/
theorem sequence_leaves (levels : Nat) {tokens : List Placed}
    (leaves : ∀ placed ∈ tokens, placed.token.category.isLeaf) :
    sequence (read (levels + 1) true) tokens = .ok (tokens.map (ofToken ·.token)) := by
  induction tokens with
  | nil => rfl
  | cons placed tokens ih =>
    obtain ⟨leaf, more⟩ := List.forall_mem_cons.1 leaves
    have next (other : Placed) (first : other ∈ tokens.head?) : other.category.isLeaf :=
      more other (List.mem_of_mem_head? first)
    have unopened (other : Placed) (first : other ∈ tokens.head?) : other.category ≠ .opener :=
      fun opens ↦ by simpa [opens, Category.isLeaf] using next other first
    have alone : read (levels + 1) true placed tokens = .ok (ofToken placed.token, tokens) := by
      rw [read, readAlone_leaf leaf fun other first _ ↦ unopened other first]
      exact attachFollowers_eq_self fun other first ↦
        Category.not_follows_of_isLeaf (next other first)
    rw [sequence_cons, alone]
    simp only [bind, Except.bind, ih more]
    rfl

theorem ofTokens_leaves {tokens : List Token}
    (leaves : ∀ token ∈ tokens, token.category.isLeaf ∧ token.flag ≠ some .rowRule) :
    ofTokens tokens = .ok (.root (tokens.map ofToken)) := by
  have levels : maxLevels = 63 + 1 := rfl
  have placed := sequence_leaves 63 fun placed mem ↦
    (leaves placed.token (Placed.token_mem_of_mem_ofTokens mem)).1
  have alone : (Placed.ofTokens tokens).map (ofToken ·.token) = tokens.map ofToken := by
    conv_rhs => rw [← Placed.map_token_ofTokens tokens, List.map_map]
    rfl
  rw [ofTokens, levels, placed, alone]
  rfl

open BracketStack

/-- Where a formula stands first, it stands below all that is read behind it. -/
theorem run_bottom (levels : Nat) (first : Formula) (tokens : List Placed) :
    (run levels (bottom [first]) tokens).map BracketStack.formulas =
      (first :: ·) <$> (run levels (bottom []) tokens).map BracketStack.formulas := by
  have moved := @run_onto levels (bottom []) tokens (bottom [first]) (.inl rfl)
  change run levels (bottom [first]) tokens = _ at moved
  rw [moved]
  cases run levels (bottom []) tokens with
  | error cause => rfl
  | ok stack => exact congrArg Except.ok (formulas_onto (bottom [first]) stack)

section

variable {levels : Nat} {placed : Placed} (category : placed.token.category = .opener)

include category

/-- One level less is left inside a bracket. -/
theorem run_opener {inside : List Placed} (balanced : Region.depthAfter? 0 inside ≠ none) :
    run (levels + 1) (bottom []) (placed :: inside) =
      (run levels (bottom []) inside).map (bracket (bottom []) placed.token []).onto := by
  have fits : Admits (levels + 1) (bottom []) placed.token := .inl (Nat.succ_pos levels)
  have pushed : (bottom []).push placed.token = bracket (bottom []) placed.token [] := by
    simp [push, category]
  rw [run_cons fits, pushed]
  exact @run_onto levels (bottom []) inside (bracket (bottom []) placed.token []) (.inr balanced)

theorem run_unclosed {tokens : List Placed} (unmatched : Region.ofBrackets? 0 tokens = none) :
    (run (levels + 1) (bottom []) (placed :: tokens)).map BracketStack.formulas =
      ((run levels (bottom []) tokens).map BracketStack.formulas).map fun body ↦
        [.flat (ofToken placed.token :: body ++ [.leaf "\\right." ""])] := by
  rw [run_opener category (Region.depthAfter?_ne_none_of_ofBrackets? unmatched)]
  cases run levels (bottom []) tokens with
  | error cause => rfl
  | ok stack => exact congrArg Except.ok (formulas_onto _ stack)

/-- The closer of a group closes the opener at its start. -/
theorem run_group {tokens : List Placed} {region : Region}
    (matched : Region.ofBrackets? 0 tokens = some region) :
    run (levels + 1) (bottom []) (placed :: tokens) =
      (run levels (bottom []) region.inside).map BracketStack.formulas >>= fun body ↦
        run (levels + 1)
          (bottom [.flat (ofToken placed.token :: body ++ [ofToken region.closer.token])])
          region.after := by
  obtain ⟨rfl, closes, balanced⟩ := Region.ofBrackets?_eq_some matched
  rw [← List.cons_append, run_append, run_opener category (by simp [balanced])]
  cases hrun : run levels (bottom []) region.inside with
  | error cause => rfl
  | ok stack =>
    have closed : stack.depth = 0 := depth_of_run hrun balanced
    cases stack with
    | bracket => cases closed
    | bottom contents =>
      let inside := bracket (bottom []) placed.token contents
      have fits : Admits (levels + 1) inside region.closer.token :=
        .inr ⟨closes, Nat.succ_pos 0⟩
      have pushed : inside.push region.closer.token =
          bottom [.flat (ofToken placed.token :: contents ++ [ofToken region.closer.token])] := by
        simp [inside, push, show region.closer.token.category = .closer from closes, close, add]
      have body : (bottom contents).formulas = contents := List.append_nil contents
      change run (levels + 1) inside (region.closer :: region.after) = _
      rw [run_cons fits, pushed]
      change _ = run (levels + 1)
        (bottom [.flat (ofToken placed.token :: (bottom contents).formulas ++ _)]) region.after
      rw [body]

end

/-- Looking ahead for closers and reading with a stack find the same formulas, and stop at the same
token. -/
theorem sequence_eq_run (levels : Nat) (tokens : List Placed)
    (plain : ∀ placed ∈ tokens, placed.token.Plain) :
    sequence (read levels true) tokens =
      (run levels (bottom []) tokens).map BracketStack.formulas := by
  -- The region of an opener is shorter than what the opener stands in front of, as is what follows.
  induction hlength : tokens.length using Nat.strongRecOn generalizing levels tokens with
  | _ length ih =>
    subst hlength
    cases tokens with
    | nil => rfl
    | cons placed tokens =>
      obtain ⟨here, plain⟩ := List.forall_mem_cons.1 plain
      rw [List.length_cons] at ih
      rw [sequence_cons]
      cases levels with
      | zero =>
        have deep : ¬ Admits 0 (bottom []) placed.token := by simp [Admits, depth]
        rw [run_cons_eq_error deep]
        rfl
      | succ levels =>
        have fits : Admits (levels + 1) (bottom []) placed.token := .inl (Nat.succ_pos levels)
        rcases here with category | category | ⟨leaf, unruled⟩
        · cases matched : Region.ofBrackets? 0 tokens with
          | none =>
            rw [read_unclosed category matched, ih _ (Nat.lt_succ_self _) levels tokens plain rfl,
              run_unclosed category matched]
            cases run levels (bottom []) tokens with
            | error cause => rfl
            | ok stack => rfl
          | some region =>
            rw [read_group plain category matched, run_group category matched]
            obtain ⟨rfl, -, -⟩ := Region.ofBrackets?_eq_some matched
            obtain ⟨inside, rest⟩ := List.forall_mem_append.1 plain
            obtain ⟨-, after⟩ := List.forall_mem_cons.1 rest
            rw [List.length_append, List.length_cons] at ih
            rw [ih _ (by omega) levels region.inside inside rfl]
            cases run levels (bottom []) region.inside with
            | error cause => rfl
            | ok stack =>
              change (_ :: ·) <$> sequence (read (levels + 1) true) region.after =
                (run (levels + 1) (bottom [_]) region.after).map BracketStack.formulas
              rw [run_bottom, ih _ (by omega) (levels + 1) region.after after rfl]
        · have pushed : (bottom []).push placed.token = bottom [strayCloser placed.token] := by
            simp [push, category, close]
          rw [read_closer plain category, run_cons fits, pushed, run_bottom,
            ← ih _ (Nat.lt_succ_self _) _ tokens plain rfl]
          rfl
        · have pushed : (bottom []).push placed.token = bottom [ofToken placed.token] := by
            cases category : placed.token.category <;>
              simp_all [push, add, Category.isLeaf]
          rw [read_leaf plain leaf unruled, run_cons fits, pushed, run_bottom,
            ← ih _ (Nat.lt_succ_self _) _ tokens plain rfl]
          rfl

/-- Brackets and leaves are read as with a stack of open brackets, of which there may be no more
than sixty-four around a leaf or an opener. -/
theorem ofTokens_eq_stack (tokens : List Token) (plain : ∀ token ∈ tokens, token.Plain) :
    (Shallow 64 tokens →
      Formula.ofTokens tokens = .ok (.root (BracketStack.ofTokens tokens).formulas)) ∧
    (¬ Shallow 64 tokens → ∃ front token back, tokens = front ++ token :: back ∧
      token.category ≠ .closer ∧ Shallow 64 front ∧ 64 ≤ (BracketStack.ofTokens front).depth ∧
      Formula.ofTokens tokens = .error (.nestingTooDeep token.position)) := by
  have levels : 0 < maxLevels := by decide
  have hread := sequence_eq_run maxLevels (Placed.ofTokens tokens) fun placed hplaced ↦
    plain placed.token (Placed.token_mem_of_mem_ofTokens hplaced)
  have htokens := Placed.map_token_ofTokens tokens
  constructor
  · intro shallow
    have hrun : run maxLevels (bottom []) (Placed.ofTokens tokens) = _ :=
      run_eq_ok levels (htokens.symm ▸ shallow)
    rw [Formula.ofTokens, hread, hrun, htokens]
    rfl
  · intro deep
    obtain ⟨front, token, back, rfl, category, earlier, hdepth⟩ := exists_first deep
    refine ⟨front, token, back, rfl, category, earlier, hdepth, ?_⟩
    obtain ⟨front, rest, hsplit, rfl, hrest⟩ := List.map_eq_append_iff.1 htokens
    obtain ⟨placed, back, rfl, rfl, rfl⟩ := List.map_eq_cons_iff.1 hrest
    have hrun : run maxLevels (bottom []) (front ++ placed :: back) =
        .error (.nestingTooDeep placed.token.position) :=
      run_eq_error levels earlier category hdepth back
    rw [Formula.ofTokens, hread, hsplit, hrun]
    rfl

/-- A closer without an opener, and an opener without a closer. -/
def strayAndOpen : List Token :=
  [.literal ['a'] .run ⟨1, 1⟩, ⟨")", "\\right)", .closer, true, none, ⟨1, 2⟩⟩,
    ⟨"[", "\\left[", .opener, true, none, ⟨1, 3⟩⟩, ⟨"(", "\\left(", .opener, true, none, ⟨1, 4⟩⟩,
    .literal ['2'] .number ⟨1, 5⟩, ⟨")", "\\right)", .closer, true, none, ⟨1, 6⟩⟩]

theorem ofTokens_strayAndOpen : Formula.ofTokens strayAndOpen =
    .ok (.root [.leaf "a" "a", .leaf "\\left. \\right)" ")",
      .flat [.leaf "\\left[" "[", .flat [.leaf "\\left(" "(", .leaf "2" "2",
        .leaf "\\right)" ")"], .leaf "\\right." ""]]) :=
  (ofTokens_eq_stack strayAndOpen (by decide)).1 (shallow_of_length_le (by decide))

end Formula

end AsciiMath
