import AsciiMath.Proofs.Formula.CursorRun

/-!
# A cursor reads what lists are read as

Each reader with a cursor is told by the reader of lists for the tokens ahead and the levels left,
if it has fuel for both. The readers call each other in a circle, in which no measure of the cursor
goes down: some readers move it, some narrow the region, and some only look ahead. But a formula is
read one level deeper than the one it stands in, so that the readers on a level are told if those a
level below are. On one level the loops end as they do for lists.
-/

namespace AsciiMath.TokenCursor

open Formula (ofToken withScript isAbove startsVariable)

/-- The formula at the start of some tokens. -/
def readAhead (levels : Nat) (followed : Bool) :
    List Placed → Except ConversionError (Formula × List Placed)
  | [] => .ok (.empty, [])
  | placed :: tokens => Formula.read levels followed placed tokens

/-- Formulas are read as in a list, from the tokens of a cursor with so many. -/
def ReadsAt (levels size : Nat) (deeper : Bool → Run Formula) : Prop :=
  ∀ followed tokens,
    Follows levels size tokens (readAhead levels followed tokens) (deeper followed)

variable {levels size fuel : Nat} {deeper : Bool → Run Formula}

theorem filter_script (wanted : Token → Bool) (tokens : List Placed) :
    (tokens.head?.map (·.token)).filter (fun token ↦ token.category = .script && wanted token) =
      (Formula.leadingScript? wanted tokens).map Prod.fst := by
  cases tokens with
  | nil => rfl
  | cons placed tokens =>
    rw [Formula.leadingScript?, List.head?_cons, Option.map_some, Option.filter_some]
    rw [apply_ite (Option.map Prod.fst)]
    rfl

/-- No rule of a grid lies beyond its widest row. -/
theorem exists_toMatrix {ruled : Bool} {leading : List Formula} {tokens : List Placed}
    {cells : Grid}
    (found : Formula.grid (Formula.read levels true) ruled leading tokens = .ok cells)
    (left right : String) (alignment : Alignment) :
    ∃ matrix, cells.toMatrix left right alignment = some matrix := by
  have meets := Formula.grid_meets (Formula.sound levels) ruled leading tokens
  rw [found] at meets
  obtain ⟨pieces, rfl, -⟩ := meets
  exact Option.ne_none_iff_exists'.1 Grid.toMatrix_ofPieces_ne_none

/-- With both scripts in place there is room for no other. -/
theorem fillScripts_filled (operator : Token) (fuel : Nat) (above below : Formula)
    (tokens : List Placed) :
    Follows levels size tokens (.ok (.binary operator.template above below, tokens))
      (fillScripts deeper operator (fuel + 1) (some above) (some below)) := by
  rw [fillScripts]
  apply Follows.next
  have full : (tokens.head?.map (·.token)).filter (fills (some above) (some below)) = none := by
    rw [Option.filter_eq_none_iff]
    intro token _
    cases h : isAbove token <;> simp [fills, h]
  rw [full]
  exact .pure _ tokens

section

variable (reads : ReadsAt levels size deeper)

include reads

theorem operand_follows (tokens : List Placed) :
    Follows levels size tokens (Formula.operand (Formula.read levels) tokens) (operand deeper) := by
  rw [operand]
  apply Follows.next
  cases tokens with
  | nil => exact .pure _ _
  | cons placed tokens =>
    rw [Formula.operand]
    unfold Placed.category
    simp only [List.head?_cons, Option.map_some]
    by_cases ends : placed.token.category ∈ [Category.separator, .alignMark, .closer]
    · simp only [if_pos ends]
      exact .pure _ _
    · simp only [if_neg ends]
      exact reads false (placed :: tokens)

theorem strippedOperand_follows (tokens : List Placed) :
    Follows levels size tokens (Formula.strippedOperand (Formula.read levels) tokens)
      (strippedOperand deeper) := by
  rw [strippedOperand]
  exact (operand_follows reads tokens).map Formula.stripBrackets

theorem attachScripts_follows {links left : Nat} (budget : links + left = levels)
    (rounds : left < fuel) (base : Formula) (tokens : List Placed) :
    Follows levels size tokens (Formula.attachScripts (Formula.read levels) left base tokens)
      (attachScripts deeper fuel links base) := by
  induction fuel generalizing links left base tokens with
  | zero => exact absurd rounds (Nat.not_lt_zero left)
  | succ fuel ih =>
    rw [attachScripts]
    apply Follows.next
    rw [Formula.attachScripts.eq_def]
    cases tokens with
    | nil => exact .pure base []
    | cons placed tokens =>
      unfold Placed.category
      simp only [List.head?_cons, Option.map_some, Option.filter_some, decide_eq_true_eq]
      by_cases script : placed.token.category = .script
      · simp only [if_pos script]
        cases left with
        | zero => exact .chainEnds placed.token (Nat.le_of_eq budget.symm)
        | succ left =>
          refine .chainGoesOn (by omega) (.step ?_)
          refine (strippedOperand_follows reads tokens).bind fun argument after _ ↦ ?_
          exact ih (by omega) (by omega) _ after
      · simp only [if_neg script]
        exact .pure base _

theorem withFollower_follows (rounds : levels < fuel) (base : Formula) (placed : Placed)
    (tokens : List Placed) :
    Follows levels size (placed :: tokens)
      (Formula.withFollower (Formula.read levels) levels base placed.token tokens)
      (withFollower deeper fuel base placed.token) := by
  rw [withFollower, Formula.withFollower]
  apply Follows.step
  cases placed.token.category with
  | script => exact (strippedOperand_follows reads tokens).map (withScript base placed.token)
  | infixOp =>
    refine (operand_follows reads tokens).bind fun second middle _ ↦ ?_
    exact (attachScripts_follows reads (Nat.zero_add levels) rounds second middle).map fun second ↦
      Formula.binary placed.token.template base.stripBrackets second.stripBrackets
  | _ => exact .pure _ _

-- A follower has a loop of its own, for which there is fuel in every round.
theorem attachFollowers_follows {links left : Nat} (budget : links + left = levels)
    (rounds : levels + left < fuel) (base : Formula) (tokens : List Placed) :
    Follows levels size tokens
      (Formula.attachFollowers (Formula.read levels) levels left base tokens)
      (attachFollowers deeper fuel links base) := by
  induction fuel generalizing links left base tokens with
  | zero => exact absurd rounds (Nat.not_lt_zero _)
  | succ fuel ih =>
    rw [attachFollowers]
    apply Follows.next
    rw [Formula.attachFollowers.eq_def]
    cases tokens with
    | nil => exact .pure base []
    | cons placed tokens =>
      unfold Placed.category
      simp only [List.head?_cons, Option.map_some, Option.filter_some]
      by_cases follows : placed.token.category.follows
      · simp only [if_pos follows]
        cases left with
        | zero => exact .chainEnds placed.token (Nat.le_of_eq budget.symm)
        | succ left =>
          have inside : levels < fuel := by omega
          refine .chainGoesOn (by omega) ?_
          have follower := withFollower_follows reads inside base placed tokens
          refine follower.bind fun next after _ ↦ ?_
          exact ih (by omega) (by omega) next after
      · simp only [if_neg follows]
        exact .pure base _

theorem readEach_follows {budget : Nat} {tokens : List Placed} (enough : tokens.length ≤ budget)
    (rounds : budget < fuel) :
    Follows levels size tokens (toEnd (Formula.readEach (Formula.read levels true) budget tokens))
      (sequence deeper fuel) := by
  induction fuel generalizing budget tokens with
  | zero => exact absurd rounds (Nat.not_lt_zero budget)
  | succ fuel ih =>
    rw [sequence]
    cases tokens with
    | nil => cases budget <;> exact .atEnd (.pure [] [])
    | cons placed tokens =>
      rw [List.length_cons] at enough
      cases budget with
      | zero => exact absurd enough (Nat.not_succ_le_zero _)
      | succ budget =>
        rw [Formula.readEach, toEnd_bind]
        refine .beforeEnd ((reads true (placed :: tokens)).bind fun first after found ↦ ?_)
        have shorter : after.length ≤ budget := (Formula.length_le_of_read found).trans (by omega)
        dsimp only
        rw [bind_pure_comp]
        exact (ih shorter (by omega)).mapEnd (first :: ·)

theorem sequence_follows (rounds : size < fuel) (tokens : List Placed) :
    Follows levels size tokens (toEnd (Formula.sequence (Formula.read levels true) tokens))
      (sequence deeper fuel) :=
  .ofFits fun fits ↦ readEach_follows reads (Nat.le_refl _) (fits.trans_lt rounds)

theorem readPieces_follows (ruled : Bool) {budget : Nat} (cellBegun : Bool) {tokens : List Placed}
    (enough : tokens.length ≤ budget) (rounds : budget < fuel) :
    Follows levels size tokens
      (toEnd (Formula.readPieces (Formula.read levels true) ruled budget cellBegun tokens))
      (pieces deeper ruled fuel cellBegun) := by
  induction fuel generalizing budget cellBegun tokens with
  | zero => exact absurd rounds (Nat.not_lt_zero budget)
  | succ fuel ih =>
    rw [pieces]
    apply Follows.next
    cases tokens with
    | nil => cases budget <;> exact .pure [] []
    | cons placed tokens =>
      rw [List.length_cons] at enough
      cases budget with
      | zero => exact absurd enough (Nat.not_succ_le_zero _)
      | succ budget =>
        rw [Formula.readPieces]
        simp only [List.head?_cons, Option.map_some]
        cases Formula.endsCell ruled cellBegun placed.token with
        | some piece => exact .step ((ih false (by omega) (by omega)).mapEnd (piece :: ·))
        | none =>
          dsimp only
          rw [toEnd_bind]
          refine (reads true (placed :: tokens)).bind fun first after found ↦ ?_
          have shorter : after.length ≤ budget :=
            (Formula.length_le_of_read found).trans (by omega)
          dsimp only
          rw [bind_pure_comp]
          exact (ih true shorter (by omega)).mapEnd (GridPiece.formula first :: ·)

theorem grid_follows (rounds : size < fuel) (ruled : Bool) (leading : List Formula)
    (tokens : List Placed) :
    Follows levels size tokens
      (toEnd (Formula.grid (Formula.read levels true) ruled leading tokens))
      (grid deeper fuel ruled leading) := by
  rw [grid, Formula.grid]
  refine .ofFits fun fits ↦ ?_
  exact (readPieces_follows reads ruled _ (Nat.le_refl _) (fits.trans_lt rounds)).mapEnd
    (Grid.ofPieces [] leading)

/-- The inside of a group is read, with the cursor behind its closer then. -/
theorem groupInside_ends (rounds : size < fuel) {start : TokenCursor} {inside after : List Placed}
    {closer : Placed} (ready : Ready levels size start)
    (split : start.ahead = inside ++ closer :: after) (group : List Formula → Formula) :
    Ends start
      (do
        let body ← Formula.sequence (Formula.read levels true) inside
        return (group body, after))
      ((do
        let body ← confined (start.place + inside.length) (sequence deeper fuel)
        modify (·.goTo (start.place + inside.length + 1))
        return group body : Run Formula) start) :=
  Ends.enclosed ready split (sequence_follows reads rounds inside) fun body _ ↦
    .pure (group body) after

/-- The inside of a matrix is read, with the cursor behind its closer then. -/
theorem gridInside_ends (rounds : size < fuel) {start : TokenCursor} {inside after : List Placed}
    {closer : Placed} (ready : Ready levels size start)
    (split : start.ahead = inside ++ closer :: after) (ruled : Bool) (leading : List Formula)
    (left right : String) (alignment : Alignment) :
    Ends start
      (do
        let cells ← Formula.grid (Formula.read levels true) ruled leading inside
        match cells.toMatrix left right alignment with
        | some found => return (.matrix found, after)
        | none => .error .ruleBeyondRow)
      ((do
        let cells ← confined (start.place + inside.length) (grid deeper fuel ruled leading)
        modify (·.goTo (start.place + inside.length + 1))
        return .matrix (← look fun _ ↦ cells.toMatrix left right alignment) : Run Formula)
          start) := by
  have inner := grid_follows reads rounds ruled leading inside
  refine Ends.enclosed ready split inner fun cells found ↦ ?_
  obtain ⟨matrix, fits⟩ := exists_toMatrix found left right alignment
  simp only [fits]
  exact .look (fun _ _ _ ↦ rfl) (.pure _ after)

theorem bracketRegion_follows (rounds : size < fuel) (leading : List Formula) (placed : Placed)
    (tokens : List Placed) :
    Follows levels size (placed :: tokens)
      (Formula.bracketRegion (Formula.read levels) leading placed.token tokens)
      (bracketRegion deeper fuel leading) := by
  rw [bracketRegion, Formula.bracketRegion]
  refine .here (.step (.lookRegion (Region.ofBrackets? 0 tokens) (fun start within ahead ↦ ?_)
    fun start ready ahead ↦ ?_))
  · rw [extent?_brackets within, ahead]
  cases matched : Region.ofBrackets? 0 tokens with
  | none =>
    dsimp only [Option.map_none]
    rw [bind_toEnd]
    exact (sequence_follows reads rounds tokens).mapEnd _ start ready ahead
  | some region =>
    obtain ⟨split, -⟩ := Region.ofBrackets?_eq_some matched
    rw [split] at ahead
    simp only [Option.map_some, extentAt, bind_apply, tokenAt_closer ahead, Bool.false_or]
    by_cases rows : Region.hasRows 0 region.inside
    · simp only [if_pos rows]
      exact gridInside_ends reads rounds ready ahead true leading _ _ _
    · simp only [if_neg rows]
      exact groupInside_ends reads rounds ready ahead _

theorem barRegion_follows (rounds : size < fuel) (placed : Placed) (tokens : List Placed) :
    Follows levels size (placed :: tokens)
      (Formula.barRegion (Formula.read levels) placed.token tokens)
      (barRegion deeper fuel) := by
  rw [barRegion, Formula.barRegion]
  refine .here (.step (.lookRegion (Region.ofBars? placed.token.value 0 tokens)
    (fun start within ahead ↦ ?_) fun start ready ahead ↦ ?_))
  · rw [extent?_bars _ within, ahead]
  cases matched : Region.ofBars? placed.token.value 0 tokens with
  | none => exact Follows.pure _ tokens start ready ahead
  | some region =>
    obtain ⟨split, -⟩ := Region.ofBars?_eq_some matched
    rw [split] at ahead
    simp only [Option.map_some, extentAt, Bool.false_or]
    by_cases rows : Region.hasRows 0 region.inside
    · simp only [if_pos rows]
      exact gridInside_ends reads rounds ready ahead false [] _ _ _
    · simp only [if_neg rows]
      exact groupInside_ends reads rounds ready ahead _

theorem fillSecond_follows (operator : Token) (fuel : Nat) (above : Bool) (first : Formula)
    (tokens : List Placed) :
    Follows levels size tokens
      (match Formula.leadingScript? (isAbove · != above) tokens with
        | none => .ok (if above then .binary operator.template first .empty
            else .binary operator.template .empty first, tokens)
        | some (_, after) => do
          let (second, after) ← Formula.strippedOperand (Formula.read levels) after
          return (if above then .binary operator.template first second
            else .binary operator.template second first, after))
      (fillScripts deeper operator (fuel + 2) (if above then some first else none)
        (if above then none else some first)) := by
  rw [fillScripts]
  apply Follows.next
  have room : fills (if above then some first else none) (if above then none else some first) =
      fun token ↦ token.category = .script && (isAbove token != above) := by
    funext token
    cases h : isAbove token <;> cases above <;> simp [fills, h]
  rw [room, filter_script]
  cases found : Formula.leadingScript? (isAbove · != above) tokens with
  | none => cases above <;> exact .pure _ tokens
  | some script =>
    obtain ⟨token, rest⟩ := script
    obtain ⟨placed, rfl, -, other, rfl⟩ := Formula.leadingScript?_eq_some.1 found
    refine .step ((strippedOperand_follows reads rest).bind fun second after _ ↦ ?_)
    cases above with
    | true =>
      have below : isAbove placed.token = false := by simpa using other
      simp only [below]
      exact fillScripts_filled operator fuel first second after
    | false =>
      have above : isAbove placed.token = true := by simpa using other
      simp only [above]
      exact fillScripts_filled operator fuel second first after

theorem optionalScripts_follows (rounds : 2 < fuel) (operator : Token) (placed : Placed)
    (tokens : List Placed) :
    Follows levels size (placed :: tokens)
      (Formula.optionalScripts (Formula.read levels) operator tokens)
      (optionalScripts deeper fuel operator) := by
  obtain ⟨fuel, rfl⟩ := Nat.exists_eq_add_of_le' rounds
  rw [optionalScripts, fillScripts, Formula.optionalScripts]
  refine .step (.next ?_)
  have room : fills none none = fun token ↦ token.category = .script && true := by
    funext token
    simp [fills]
  rw [room, filter_script]
  cases found : Formula.leadingScript? (fun _ ↦ true) tokens with
  | none => exact .pure _ tokens
  | some script =>
    obtain ⟨token, rest⟩ := script
    obtain ⟨placed, rfl, -, -, rfl⟩ := Formula.leadingScript?_eq_some.1 found
    refine .step ((strippedOperand_follows reads rest).bind fun first after _ ↦ ?_)
    have second := fillSecond_follows reads operator fuel (isAbove placed.token) first after
    cases above : isAbove placed.token <;> rw [above] at second <;> exact second

theorem derivativeOrder_follows (tokens : List Placed) :
    Follows levels size tokens (Formula.derivativeOrder (Formula.read levels) tokens)
      (derivativeOrder deeper) := by
  rw [derivativeOrder, Formula.derivativeOrder]
  apply Follows.next
  rw [filter_script]
  cases found : Formula.leadingScript? isAbove tokens with
  | none => exact .pure [] tokens
  | some script =>
    obtain ⟨token, rest⟩ := script
    obtain ⟨placed, rfl, -, -, rfl⟩ := Formula.leadingScript?_eq_some.1 found
    exact .step ((strippedOperand_follows reads rest).map fun order ↦
      [Formula.unary placed.token.template order])

theorem derivativeTerms_follows (rounds : levels < fuel) (placed : Placed)
    (tokens : List Placed) :
    Follows levels size (placed :: tokens)
      (Formula.derivativeTerms (Formula.read levels) levels placed tokens)
      (derivativeTerms deeper fuel) := by
  rw [derivativeTerms, Formula.derivativeTerms]
  refine (reads false (placed :: tokens)).bind fun term after _ ↦ ?_
  dsimp only
  cases term.groupBody? with
  | some terms => exact .pure terms after
  | none => exact (attachScripts_follows reads (Nat.zero_add levels) rounds term after).map ([·])

theorem derivative_follows (rounds : levels < fuel) (operator : Token) (placed : Placed)
    (tokens : List Placed) :
    Follows levels size (placed :: tokens)
      (Formula.derivativeOf (Formula.read levels) levels operator tokens)
      (derivative deeper fuel operator) := by
  rw [derivative, Formula.derivativeOf]
  refine .step ((derivativeOrder_follows reads tokens).bind fun order middle _ ↦ ?_)
  refine (strippedOperand_follows reads middle).bind fun function rest _ ↦ .next ?_
  cases rest with
  | nil => exact .pure _ []
  | cons first rest =>
    unfold Placed.category
    simp only [List.head?_cons, Option.map_some, Option.filter_some]
    by_cases starts : startsVariable first.token.category
    · simp only [if_pos starts]
      exact (derivativeTerms_follows reads rounds first rest).map fun terms ↦
        Formula.binary Formula.fractionTemplate (.flat (ofToken operator :: order ++ [function]))
          (Formula.denominator (ofToken operator) order terms)
    · simp only [if_neg starts]
      exact .pure _ _

theorem readLeaf_follows (rounds : size < fuel) (placed : Placed) (tokens : List Placed) :
    Follows levels size (placed :: tokens)
      (Formula.ofLeaf (Formula.read levels) placed.token tokens)
      (readLeaf deeper fuel placed.token) := by
  rw [readLeaf]
  refine .step (.next ?_)
  cases tokens with
  | nil => exact .pure _ []
  | cons opener tokens =>
    rw [Formula.ofLeaf]
    unfold Placed.category
    simp only [List.head?_cons, Option.map_some, Option.filter_some]
    split
    · exact bracketRegion_follows reads rounds [ofToken placed.token] opener tokens
    · exact .pure _ _

/-- A formula by itself is read as in a list. -/
theorem readAlone_follows (enough : 2 * levels + size + 2 < fuel) (placed : Placed)
    (tokens : List Placed) :
    Follows levels size (placed :: tokens)
      (Formula.readAlone (Formula.read levels) levels placed tokens)
      (readAlone deeper fuel placed.token) := by
  rw [readAlone, Formula.readAlone]
  cases placed.token.category with
  | constant | letter | text | number | run =>
    exact readLeaf_follows reads (by omega) placed tokens
  | opener => exact bracketRegion_follows reads (by omega) [] placed tokens
  | bar => exact barRegion_follows reads (by omega) placed tokens
  | script | prefixUnary =>
    exact .step ((strippedOperand_follows reads tokens).map (Formula.unary placed.token.template))
  | prefixBinary =>
    refine .step ((strippedOperand_follows reads tokens).bind fun first middle _ ↦ ?_)
    exact (strippedOperand_follows reads middle).map (Formula.binary placed.token.template first)
  | sign =>
    refine .look (fun start _ ahead ↦ leads?_of_ahead ahead) (.step ?_)
    cases placed.leads with
    | true =>
      exact (operand_follows reads tokens).map fun term ↦ Formula.flat [ofToken placed.token, term]
    | false => exact .pure _ tokens
  | optionalScripts => exact optionalScripts_follows reads (by omega) placed.token placed tokens
  | derivative => exact derivative_follows reads (by omega) placed.token placed tokens
  | separator | alignMark | closer | infixOp | postfixOp => exact .step (.pure _ tokens)
  | unused => exact .throw _ _

theorem readToken_follows (enough : 2 * levels + size + 2 < fuel) (followed : Bool)
    (placed : Placed) (tokens : List Placed) :
    Follows levels size (placed :: tokens) (Formula.read (levels + 1) followed placed tokens)
      (readToken deeper fuel followed placed.token) := by
  rw [readToken, Formula.read]
  refine (readAlone_follows reads enough placed tokens).bind fun found after _ ↦ ?_
  cases followed with
  | true => exact attachFollowers_follows reads (Nat.zero_add levels) (by omega) found after
  | false => exact .pure found after

end

/-- A formula is read as in a list, however many levels are left. -/
theorem readsAt (enough : 2 * levels + size + 2 < fuel) : ReadsAt levels size (read fuel) := by
  -- A reader only calls others a level below, apart from its own loops.
  induction levels generalizing fuel with
  | zero =>
    intro followed tokens
    obtain ⟨fuel, rfl⟩ := Nat.exists_eq_add_one_of_ne_zero (Nat.ne_zero_of_lt enough)
    rw [read]
    apply Follows.next
    cases tokens with
    | nil => exact .pure _ []
    | cons placed tokens => exact .onLastLevel (.throw _ _)
  | succ levels ih =>
    intro followed tokens
    obtain ⟨fuel, rfl⟩ := Nat.exists_eq_add_one_of_ne_zero (Nat.ne_zero_of_lt enough)
    have below : 2 * levels + size + 2 < fuel := by omega
    rw [read]
    apply Follows.next
    cases tokens with
    | nil => exact .pure _ []
    | cons placed tokens =>
      exact .beforeLastLevel (readToken_follows (ih below) below followed placed tokens).nested

theorem ready_ofTokens (tokens : List Token) :
    Ready maxLevels tokens.length (ofTokens tokens) :=
  ⟨Nat.zero_le _, Nat.le_refl _, Nat.le_refl _, Nat.zero_add _⟩

theorem ahead_ofTokens (tokens : List Token) :
    (ofTokens tokens).ahead = Placed.ofTokens tokens := by
  rw [ahead, ofTokens, List.drop_zero, List.toList_toArray, ← Placed.length_ofTokens tokens,
    List.take_length]

/-- A cursor that runs through all tokens finds the formula that they stand for. -/
theorem formula?_eq (tokens : List Token) : formula? tokens = some (Formula.ofTokens tokens) := by
  have enough : 2 * maxLevels + tokens.length + 2 < (ofTokens tokens).enoughFuel :=
    Nat.lt_succ_self _
  have rounds : tokens.length < (ofTokens tokens).enoughFuel := by omega
  have ends := sequence_follows (readsAt enough) rounds (Placed.ofTokens tokens)
    (ofTokens tokens) (ready_ofTokens tokens) (ahead_ofTokens tokens)
  rw [formula?, Formula.ofTokens]
  cases found : Formula.sequence (Formula.read maxLevels true) (Placed.ofTokens tokens) with
  | ok children =>
    rw [found] at ends
    obtain ⟨final, houtcome, -⟩ := ends
    rw [houtcome]
    rfl
  | error cause =>
    rw [found] at ends
    obtain ⟨final, houtcome, -⟩ := ends
    rw [houtcome]
    rfl

end AsciiMath.TokenCursor

namespace AsciiMath.Formula

/-- Reading finds a formula whose matrices are well formed, or stops at the first token without a
use or at one that nests too deep. It has no other way to end: a cursor never looks where there is
no token and never ascends from depth zero, no rule lies beyond its matrix, the budgets of the loops
are never used up, and where brackets are counted the count never goes below zero. -/
theorem ofTokens_total (tokens : List Token) :
    TokenCursor.formula? tokens = some (ofTokens tokens) ∧
    (match ofTokens tokens with
      | .ok formula => (∀ token ∈ tokens, token.category ≠ .unused) ∧
        ∀ grid, Occurs (.matrix grid) formula →
          grid.rows ≠ [] ∧ grid.dividers.Pairwise (· < ·) ∧
            ∀ divider ∈ grid.dividers, 1 ≤ divider ∧ divider ≤ grid.columnCount
      | .error cause => StopsAt tokens cause) ∧
    (∀ levels budget region, region.length ≤ budget →
      readEach (read levels true) budget region = sequence (read levels true) region ∧
      ∀ ruled cellBegun, readPieces (read levels true) ruled budget cellBegun region =
        readPieces (read levels true) ruled region.length cellBegun region) ∧
    ∀ behind region,
      (Region.ofBrackets? 0 behind = some region ∨
        ∃ bar, Region.ofBars? bar 0 behind = some region) →
      behind = region.inside ++ region.closer :: region.after ∧
        Region.depthAfter? 0 region.inside = some 0 := by
  refine ⟨TokenCursor.formula?_eq tokens, ?_, ?_, ?_⟩
  · cases hread : ofTokens tokens with
    | error cause => exact stopsAt_of_error hread
    | ok formula =>
      obtain ⟨children, rfl, reads⟩ := reads_of_ofTokens hread
      refine ⟨used_of_takes reads.proceeds, fun grid occurs ↦ ?_⟩
      have hchildren := reads.keeps closed_allRuled (fun _ _ ↦ trivial)
      have ruled := allRuled_root hchildren grid occurs
      exact ⟨ruled.rows, ruled.ascending, ruled.bounds⟩
  · intro levels budget region enough
    exact ⟨readEach_budget levels enough (Nat.le_refl _),
      fun ruled cellBegun ↦ readPieces_budget levels ruled cellBegun enough (Nat.le_refl _)⟩
  · rintro behind region (matched | ⟨bar, matched⟩)
    · obtain ⟨hbehind, -, hdepth⟩ := Region.ofBrackets?_eq_some matched
      exact ⟨hbehind, hdepth⟩
    · obtain ⟨hbehind, -, -, hdepth⟩ := Region.ofBars?_eq_some matched
      exact ⟨hbehind, hdepth⟩

end AsciiMath.Formula
