import AsciiMath.Proofs.Formula.Outcome

/-!
# How high formulas are

The levels that are left limit how deep readers nest, and for each chain of followers how long it
is. A chain that stands inside a group does not count for the chain that follows the group, nor do
the scripts of a second operand for the chain that the operator belongs to. So a formula can be
higher than there are levels, but not higher than the sum of the longest chains at all levels.
-/

namespace AsciiMath.Formula

mutual

/-- The most rows, templates and matrices around a leaf. The root is not counted. -/
def height : Formula → Nat
  | .leaf _ _ => 0
  | .flat children => highest children + 1
  | .unary _ argument => height argument + 1
  | .binary _ first second => max (height first) (height second) + 1
  | .matrix grid => highestOfRows grid.rows + 1
  | .root children => highest children
termination_by structural formula => formula

def highest : List Formula → Nat
  | [] => 0
  | child :: children => max (height child) (highest children)
termination_by structural children => children

def highestOfRows : List (List Formula) → Nat
  | [] => 0
  | row :: rows => max (highest row) (highestOfRows rows)
termination_by structural rows => rows

end

theorem highest_le {children : List Formula} {n : Nat} :
    highest children ≤ n ↔ ∀ child ∈ children, child.height ≤ n := by
  induction children with
  | nil => simp [highest]
  | cons child children ih => rw [highest, Nat.max_le, ih, List.forall_mem_cons]

theorem highestOfRows_le {rows : List (List Formula)} {n : Nat} :
    highestOfRows rows ≤ n ↔ ∀ row ∈ rows, ∀ cell ∈ row, cell.height ≤ n := by
  induction rows with
  | nil => simp [highestOfRows]
  | cons row rows ih => rw [highestOfRows, Nat.max_le, ih, highest_le, List.forall_mem_cons]

theorem height_leaf_le (template source : String) (n : Nat) : (leaf template source).height ≤ n :=
  Nat.zero_le n

theorem height_flat_le {children : List Formula} {n : Nat} :
    (flat children).height ≤ n + 1 ↔ ∀ child ∈ children, child.height ≤ n := by
  rw [height, Nat.add_le_add_iff_right, highest_le]

theorem height_unary_le {template : String} {argument : Formula} {n : Nat} :
    (unary template argument).height ≤ n + 1 ↔ argument.height ≤ n := by
  rw [height, Nat.add_le_add_iff_right]

theorem height_binary_le {template : String} {first second : Formula} {n : Nat} :
    (binary template first second).height ≤ n + 1 ↔ first.height ≤ n ∧ second.height ≤ n := by
  rw [height, Nat.add_le_add_iff_right, Nat.max_le]

theorem height_matrix_le {grid : Matrix Formula} {n : Nat} :
    (matrix grid).height ≤ n + 1 ↔ ∀ row ∈ grid.rows, ∀ cell ∈ row, cell.height ≤ n := by
  rw [height, Nat.add_le_add_iff_right, highestOfRows_le]

theorem height_ofList_le {children : List Formula} {n : Nat}
    (h : ∀ child ∈ children, child.height ≤ n) : (ofList children).height ≤ n + 1 :=
  match children with
  | [] => Nat.zero_le _
  | [child] => Nat.le_succ_of_le (h child (by simp))
  | _ :: _ :: _ => height_flat_le.2 h

/-- The contents of a group are lower than the group. -/
theorem height_of_groupBody? {formula : Formula} {body : List Formula} {n : Nat}
    (grouped : formula.groupBody? = some body) (h : formula.height ≤ n) :
    ∀ child ∈ body, child.height + 1 ≤ n := by
  obtain ⟨first, last, rfl, -, -⟩ := groupBody?_eq_some grouped
  cases n with
  | zero => simp [height] at h
  | succ n =>
    intro child mem
    exact Nat.succ_le_succ (height_flat_le.1 h child (by simp [mem]))

theorem height_stripBrackets_le (formula : Formula) :
    formula.stripBrackets.height ≤ formula.height := by
  rw [stripBrackets]
  split
  · next body grouped =>
    have lower := height_of_groupBody? grouped (Nat.le_refl _)
    obtain ⟨first, last, rfl, -, -⟩ := groupBody?_eq_some grouped
    rw [height] at lower ⊢
    exact height_ofList_le fun child mem ↦ Nat.le_of_succ_le_succ (lower child mem)
  · exact Nat.le_refl _

theorem height_stripped_unary_le {argument : Formula} (template : String) {n : Nat}
    (h : argument.height ≤ n) : (unary template argument.stripBrackets).height ≤ n + 1 :=
  height_unary_le.2 ((height_stripBrackets_le argument).trans h)

theorem height_withScript_le (base : Formula) (script : Token) {argument : Formula} {n : Nat}
    (h : argument.height ≤ n) :
    (withScript base script argument.stripBrackets).height ≤ max base.height (n + 1) + 1 := by
  have scripted := height_stripped_unary_le script.template h
  exact height_flat_le.2 (List.forall_mem_cons.2 ⟨Nat.le_max_left _ _,
    List.forall_mem_singleton.2 (scripted.trans (Nat.le_max_right _ _))⟩)

theorem height_stripped_binary_le {first second : Formula} (template : String) {n : Nat}
    (hfirst : first.height ≤ n) (hsecond : second.height ≤ n) :
    (binary template first.stripBrackets second.stripBrackets).height ≤ n + 1 :=
  height_binary_le.2 ⟨(height_stripBrackets_le first).trans hfirst,
    (height_stripBrackets_le second).trans hsecond⟩

theorem height_group_le {leading body : List Formula} {opener last : Formula} {n : Nat}
    (hleading : ∀ child ∈ leading, child.height ≤ n) (hopener : opener.height ≤ n)
    (hbody : ∀ child ∈ body, child.height ≤ n) (hlast : last.height ≤ n) :
    (flat (leading ++ opener :: body ++ [last])).height ≤ n + 1 :=
  height_flat_le.2 (forall_mem_group hleading hopener hbody hlast)

/-- The cells of a matrix may hold rows of formulas. -/
theorem height_grid_le {leading : List Formula} {pieces : List GridPiece} {left right : String}
    {alignment : Alignment} {grid : Matrix Formula} {n : Nat}
    (hleading : ∀ formula ∈ leading, formula.height ≤ n)
    (hpieces : ∀ formula, .formula formula ∈ pieces → formula.height ≤ n)
    (fits : (Grid.ofPieces [] leading pieces).toMatrix left right alignment = some grid) :
    (matrix grid).height ≤ n + 2 := by
  obtain rfl := Matrix.ofRows?_eq_some fits
  refine height_matrix_le.2 (Grid.forall_cell_ofPieces ?_ (by simp) hleading hpieces)
  exact fun formulas h ↦ height_ofList_le h

theorem height_numerator_le (operator : Token) {function : Formula} {order : List Formula} {n : Nat}
    (horder : ∀ child ∈ order, child.height ≤ n + 1) (hfunction : function.height ≤ n) :
    (flat (ofToken operator :: order ++ [function.stripBrackets])).height ≤ n + 2 := by
  have front : ∀ child ∈ ofToken operator :: order, child.height ≤ n + 1 :=
    List.forall_mem_cons.2 ⟨height_leaf_le .., horder⟩
  have stripped := (height_stripBrackets_le function).trans (Nat.le_succ_of_le hfunction)
  exact height_flat_le.2 (List.forall_mem_append.2 ⟨front, List.forall_mem_singleton.2 stripped⟩)

theorem height_denominator_le (operator : Token) {order terms : List Formula} {n : Nat}
    (horder : ∀ child ∈ order, child.height ≤ n) (hterms : ∀ child ∈ terms, child.height ≤ n) :
    (denominator (ofToken operator) order terms).height ≤ n + 1 := by
  have leaf : (ofToken operator).height ≤ n := height_leaf_le ..
  rw [denominator]
  split
  · refine height_flat_le.2 fun child mem ↦ ?_
    obtain ⟨term, hterm, mem⟩ := List.mem_flatMap.1 mem
    have pair : ∀ child ∈ [ofToken operator, term], child.height ≤ n := by
      simp [leaf, hterms term hterm]
    exact pair child mem
  · have front : ∀ child ∈ ofToken operator :: terms, child.height ≤ n :=
      List.forall_mem_cons.2 ⟨leaf, hterms⟩
    exact height_flat_le.2 (List.forall_mem_append.2 ⟨front, horder⟩)

/-- How high a formula can be that is read alone with so many levels left. -/
def heightLimit : Nat → Nat
  | 0 => 0
  | levels + 1 => heightLimit levels + levels + 3

theorem heightLimit_lt (levels : Nat) : heightLimit levels < heightLimit (levels + 1) := by
  simp only [heightLimit]
  omega

/-- There is room for a matrix whose cells are rows of formulas. -/
theorem region_le_heightLimit (levels : Nat) :
    heightLimit levels + (levels - 1) + 2 ≤ heightLimit (levels + 1) := by
  simp only [heightLimit]
  omega

/-- With what follows it a formula is higher by at most one for each link of the chain. -/
abbrev Judgment.Bounded : Judgment → Prop
  | alone levels _ found _ | operand levels _ found _ => found.height ≤ heightLimit levels
  | whole levels _ found _ => found.height ≤ heightLimit levels + (levels - 1)
  | scripts levels links base _ found _ =>
    found.height ≤ max base.height (heightLimit levels + 1) + links
  | followers levels links base _ found _ =>
    found.height ≤ max base.height (heightLimit levels + levels + 1) + links
  | brackets levels leading _ _ found _ => (∀ n, ∀ child ∈ leading, child.height ≤ n) →
    found.height ≤ heightLimit levels + (levels - 1) + 2
  | sequence levels _ found => ∀ child ∈ found, child.height ≤ heightLimit levels + (levels - 1)
  | pieces levels _ _ _ found =>
    ∀ formula, .formula formula ∈ found → formula.height ≤ heightLimit levels + (levels - 1)
  | order levels _ found _ => ∀ child ∈ found, child.height ≤ heightLimit levels + 1
  | terms levels _ found _ => ∀ child ∈ found, child.height ≤ heightLimit levels + levels + 1

theorem Reads.bounded {judgment : Judgment} (h : Reads judgment) : judgment.Bounded := by
  induction h with
  | leaf | loneBar | sign | mark | strayCloser | strayOperator | missing => exact Nat.zero_le _
  | ruledRegion _ _ _ _ ih =>
    have region := ih fun n ↦ List.forall_mem_singleton.2 (height_leaf_le ..)
    exact region.trans (region_le_heightLimit _)
  | bracketRegion _ _ ih =>
    have region := ih fun n ↦ List.forall_mem_nil _
    exact region.trans (region_le_heightLimit _)
  | barGroup _ _ _ ih =>
    refine Nat.le_trans (Nat.le_succ_of_le ?_) (region_le_heightLimit _)
    exact height_group_le (List.forall_mem_nil _) (height_leaf_le ..) ih (height_leaf_le ..)
  | barGrid _ _ _ _ fits ih =>
    have region := height_grid_le (List.forall_mem_nil _) ih fits
    exact region.trans (region_le_heightLimit _)
  | prefixed _ _ ih =>
    exact (height_stripped_unary_le _ ih).trans (heightLimit_lt _)
  | prefixedPair _ _ _ ihFirst ihSecond =>
    exact (height_stripped_binary_le _ ihFirst ihSecond).trans (heightLimit_lt _)
  | leadingSign _ _ _ ih =>
    refine (height_flat_le.2 ?_).trans (heightLimit_lt _)
    exact List.forall_mem_cons.2 ⟨height_leaf_le .., List.forall_mem_singleton.2 ih⟩
  | unscripted => simp [height, empty, heightLimit]
  | scriptedOnce _ _ _ _ ih =>
    have stripped := (height_stripBrackets_le _).trans ih
    split
    · exact (height_binary_le.2 ⟨stripped, height_leaf_le ..⟩).trans (heightLimit_lt _)
    · exact (height_binary_le.2 ⟨height_leaf_le .., stripped⟩).trans (heightLimit_lt _)
  | scriptedTwice _ _ _ _ _ _ ihFirst ihSecond =>
    split
    · exact (height_stripped_binary_le _ ihFirst ihSecond).trans (heightLimit_lt _)
    · exact (height_stripped_binary_le _ ihSecond ihFirst).trans (heightLimit_lt _)
  | @derivativeBare _ placed _ _ _ _ _ _ _ _ _ ihOrder ihFunction =>
    have numerator := height_numerator_le placed.token ihOrder ihFunction
    exact height_binary_le.2 ⟨numerator.trans (by omega), height_leaf_le ..⟩
  | @derivativeBy _ placed _ _ _ _ _ _ _ _ _ _ _ _ _ ihOrder ihFunction ihTerms =>
    have numerator := height_numerator_le placed.token ihOrder ihFunction
    have below := height_denominator_le placed.token
      (fun child mem ↦ (ihOrder child mem).trans (by omega)) ihTerms
    exact height_binary_le.2 ⟨numerator.trans (by omega), below⟩
  | whole _ _ ih ihFollows =>
    simp only [Judgment.Bounded, heightLimit] at ih ihFollows ⊢
    omega
  | present _ _ ih => exact ih
  | scriptsEnd | followersEnd => simp only [Judgment.Bounded]; omega
  | @scriptsStep _ _ base script _ _ _ _ _ _ _ _ ih ihMore
  | @scriptFollows _ _ base script _ _ _ _ _ _ _ _ ih ihMore =>
    have scripted := height_withScript_le base script.token ih
    simp only [Judgment.Bounded] at ihMore ⊢
    omega
  | @infixFollows _ _ base operator _ _ _ scripted _ _ _ _ _ _ _ ih ihScripts ihMore =>
    have applied := height_stripped_binary_le operator.token.template
      (Nat.le_max_left base.height scripted.height) (Nat.le_max_right base.height scripted.height)
    simp only [Judgment.Bounded] at ih ihScripts ihMore ⊢
    omega
  | postfixFollows _ _ ihMore =>
    simp only [Judgment.Bounded, height] at ihMore ⊢
    omega
  | unclosed _ _ ih | group _ _ _ ih =>
    intro hleading
    exact (height_group_le (hleading _) (height_leaf_le ..) ih (height_leaf_le ..)).trans
      (Nat.le_succ _)
  | grid _ _ _ fits ih => exact fun hleading ↦ height_grid_le (hleading _) ih fits
  | sequenceEnd | noOrder => exact List.forall_mem_nil _
  | piecesEnd => exact fun formula mem ↦ absurd mem List.not_mem_nil
  | sequenceStep _ _ ih ihMore => exact List.forall_mem_cons.2 ⟨ih, ihMore⟩
  | pieceMark ends _ ihMore =>
    intro formula mem
    rcases List.mem_cons.1 mem with rfl | mem
    · exact absurd ends endsCell_ne_formula
    · exact ihMore formula mem
  | pieceFormula _ _ _ ih ihMore =>
    intro formula mem
    rcases List.mem_cons.1 mem with same | mem
    · obtain rfl := GridPiece.formula.inj same
      exact ih
    · exact ihMore formula mem
  | withOrder _ _ _ ih =>
    exact List.forall_mem_singleton.2 (height_stripped_unary_le _ ih)
  | groupTerms _ grouped ih =>
    intro child mem
    have lower := height_of_groupBody? grouped ih child mem
    omega
  | singleTerm _ _ _ ih ihScripts =>
    refine List.forall_mem_singleton.2 ?_
    simp only [Judgment.Bounded] at ih ihScripts
    omega

/-- The levels bound how high a formula is, but chains of followers inside and outside of groups
make it higher than there are levels. -/
theorem height_le_of_ofTokens {tokens : List Token} {formula : Formula}
    (h : ofTokens tokens = .ok formula) :
    formula.height ≤ heightLimit maxLevels + (maxLevels - 1) := by
  obtain ⟨children, rfl, reads⟩ := reads_of_ofTokens h
  rw [height, highest_le]
  exact reads.bounded

example : heightLimit maxLevels + (maxLevels - 1) = 2271 := by decide

/-- A letter in brackets, with as many operators behind the letter and behind the brackets. -/
def operatorsTwice (count : Nat) : List Token :=
  let operators (column : Nat) : List Token :=
    (List.range count).map fun n ↦ ⟨"!!", "$1 !!", .postfixOp, true, none, ⟨1, column + 2 * n⟩⟩
  ⟨"(", "\\left(", .opener, true, none, ⟨1, 1⟩⟩ :: .literal ['a'] .run ⟨1, 2⟩ :: operators 3 ++
    ⟨")", "\\right)", .closer, true, none, ⟨1, 2 * count + 3⟩⟩ :: operators (2 * count + 4)

def operatedTwice (count : Nat) : Formula :=
  (unary "$1 !!")^[count] (.flat [.leaf "\\left(" "(", (unary "$1 !!")^[count] (.leaf "a" "a"),
    .leaf "\\right)" ")"])

theorem height_operatedTwice_le :
    ofTokens (operatorsTwice 33) = .ok (.root [operatedTwice 33]) ∧
      (root [operatedTwice 33]).height ≤ heightLimit maxLevels + (maxLevels - 1) := by
  have read : ofTokens (operatorsTwice 33) = .ok (.root [operatedTwice 33]) := rfl
  exact ⟨read, height_le_of_ofTokens read⟩

/-- Neither of two chains is too long, but together they are higher than the limit. -/
theorem maxLevels_lt_height :
    ofTokens (operatorsTwice 33) = .ok (.root [operatedTwice 33]) ∧
      maxLevels < (root [operatedTwice 33]).height := by
  refine ⟨rfl, ?_⟩
  decide +kernel

end AsciiMath.Formula
