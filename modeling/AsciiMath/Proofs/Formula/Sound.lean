import AsciiMath.Proofs.Formula.Grid
import AsciiMath.Proofs.Formula.Reads

/-!
# Readers find what the grammar has

Whatever tokens a reader is given, it finds something that has a derivation, or it stops at one of
them. It stops only where no level is left or at a keyword without a use, and it has passed no such
keyword before.
-/

namespace AsciiMath.Formula

/-- An error that names a token, all tokens in front of which have a use. -/
def Located (tokens : List Placed) (cause : ConversionError) : Prop :=
  ∃ front placed back, tokens = front ++ placed :: back ∧
    (∀ earlier ∈ front, earlier.category ≠ .unused) ∧
      (cause = .nestingTooDeep placed.token.position ∨
        placed.category = .unused ∧
          cause = .unusedKeyword placed.token.value placed.token.position)

theorem Located.tooDeep (placed : Placed) (tokens : List Placed) :
    Located (placed :: tokens) (.nestingTooDeep placed.token.position) :=
  ⟨[], placed, tokens, rfl, by simp, .inl rfl⟩

theorem Located.unused {placed : Placed} (h : placed.category = .unused) (tokens : List Placed) :
    Located (placed :: tokens) (.unusedKeyword placed.token.value placed.token.position) :=
  ⟨[], placed, tokens, rfl, by simp, .inr ⟨h, rfl⟩⟩

theorem Located.earlier {tokens middle : List Placed} {cause : ConversionError}
    (taken : Takes tokens middle) (h : Located middle cause) : Located tokens cause := by
  obtain ⟨front, rfl, hfront⟩ := taken
  obtain ⟨more, placed, back, rfl, hmore, hcause⟩ := h
  refine ⟨front ++ more, placed, back, by simp, ?_, hcause⟩
  intro earlier hearlier
  exact (List.mem_append.1 hearlier).elim (hfront earlier) (hmore earlier)

theorem Located.append {inside : List Placed} {cause : ConversionError} (h : Located inside cause)
    (after : List Placed) : Located (inside ++ after) cause := by
  obtain ⟨front, placed, back, rfl, hfront, hcause⟩ := h
  exact ⟨front, placed, back ++ after, by simp, hfront, hcause⟩

/-- What a reader of some tokens gives: something good, or an error at one of them. -/
def Meets {α : Type} (tokens : List Placed) (good : α → Prop) : Except ConversionError α → Prop
  | .ok found => good found
  | .error cause => Located tokens cause

namespace Meets

variable {α β : Type} {tokens middle : List Placed} {good : α → Prop}
  {result : Except ConversionError α}

theorem mono {better : α → Prop} (h : Meets tokens good result)
    (implies : ∀ found, good found → better found) : Meets tokens better result := by
  cases result with
  | ok found => exact implies found h
  | error cause => exact h

theorem earlier (taken : Takes tokens middle) (h : Meets middle good result) :
    Meets tokens good result := by
  cases result with
  | ok found => exact h
  | error cause => exact Located.earlier taken h

theorem append {inside : List Placed} (h : Meets inside good result) (after : List Placed) :
    Meets (inside ++ after) good result := by
  cases result with
  | ok found => exact h
  | error cause => exact Located.append h after

theorem bind {next : α → Except ConversionError β} {goal : β → Prop} (h : Meets tokens good result)
    (more : ∀ found, good found → Meets tokens goal (next found)) :
    Meets tokens goal (result >>= next) := by
  cases result with
  | ok found => exact more found h
  | error cause => exact h

theorem map {next : α → β} {goal : β → Prop} (h : Meets tokens good result)
    (more : ∀ found, good found → goal (next found)) : Meets tokens goal (next <$> result) := by
  cases result with
  | ok found => exact more found h
  | error cause => exact h

end Meets

theorem leadingScript?_eq_some {wanted : Token → Bool} {tokens rest : List Placed}
    {token : Token} :
    leadingScript? wanted tokens = some (token, rest) ↔
      ∃ script, tokens = script :: rest ∧ script.category = .script ∧ wanted script.token ∧
        token = script.token := by
  cases tokens with
  | nil => simp [leadingScript?]
  | cons script tokens =>
    rw [leadingScript?]
    split <;> aesop

theorem leadingScript?_eq_none {tokens : List Placed} :
    leadingScript? (fun _ ↦ true) tokens = none ↔
      ∀ next ∈ tokens.head?, next.category ≠ .script := by
  cases tokens <;> simp [leadingScript?]

/-- The readers for so many levels find what the grammar has. -/
def Sound (levels : Nat) : Prop := ∀ placed tokens,
  Meets (placed :: tokens) (fun found ↦ Reads (.alone levels (placed :: tokens) found.1 found.2))
      (read levels false placed tokens) ∧
    Meets (placed :: tokens) (fun found ↦ Reads (.whole levels (placed :: tokens) found.1 found.2))
      (read levels true placed tokens)

section

variable {levels : Nat} (sound : Sound levels)

include sound

theorem operand_meets (tokens : List Placed) :
    Meets tokens (fun found ↦ Reads (.operand levels tokens found.1 found.2))
      (operand (read levels) tokens) := by
  cases tokens with
  | nil => exact .missing (by simp)
  | cons placed tokens =>
    rw [operand]
    split
    · next ends => exact Reads.missing (by simpa [endsOperand] using ends)
    · next starts =>
      refine (sound placed tokens).1.mono fun found reads ↦ ?_
      exact .present (by simpa [endsOperand] using starts) reads

theorem strippedOperand_meets (tokens : List Placed) :
    Meets tokens
      (fun found ↦ ∃ operand, found.1 = operand.stripBrackets ∧
        Reads (.operand levels tokens operand found.2))
      (strippedOperand (read levels) tokens) :=
  (operand_meets sound tokens).bind fun found reads ↦ ⟨found.1, rfl, reads⟩

theorem attachScripts_meets (links : Nat) (base : Formula) (tokens : List Placed) :
    Meets tokens (fun found ↦ Reads (.scripts levels links base tokens found.1 found.2))
      (attachScripts (read levels) links base tokens) := by
  induction links generalizing base tokens with
  | zero =>
    cases tokens with
    | nil => exact .scriptsEnd (by simp)
    | cons placed tokens =>
      rw [attachScripts]
      split
      · exact Located.tooDeep placed tokens
      · next other => exact Reads.scriptsEnd (by simpa using other)
  | succ links ih =>
    cases tokens with
    | nil => exact .scriptsEnd (by simp)
    | cons placed tokens =>
      rw [attachScripts]
      split
      · next script =>
        have step : Takes (placed :: tokens) tokens := .single (by simp [script]) tokens
        apply ((strippedOperand_meets sound tokens).earlier step).bind
        rintro ⟨_, middle⟩ ⟨argument, rfl, reads⟩
        refine ((ih _ middle).earlier (step.trans reads.proceeds)).mono fun found more ↦ ?_
        exact .scriptsStep script reads more
      · next other => exact Reads.scriptsEnd (by simpa using other)

/-- One follower is a step of the chain that begins with it. -/
theorem withFollower_meets (base : Formula) (placed : Placed) (tokens : List Placed)
    (follows : placed.category.follows) :
    Meets (placed :: tokens)
      (fun middle ↦ Takes (placed :: tokens) middle.2 ∧ ∀ links found after,
        Reads (.followers levels links middle.1 middle.2 found after) →
          Reads (.followers levels (links + 1) base (placed :: tokens) found after))
      (withFollower (read levels) levels base placed.token tokens) := by
  have step : Takes (placed :: tokens) tokens :=
    .single (fun unused ↦ by simp [unused, Category.follows] at follows) tokens
  rw [withFollower]
  split
  · next script =>
    apply ((strippedOperand_meets sound tokens).earlier step).bind
    rintro ⟨_, middle⟩ ⟨argument, rfl, reads⟩
    exact ⟨step.trans reads.proceeds, fun links found after more ↦
      .scriptFollows script reads more⟩
  · next operator =>
    apply ((operand_meets sound tokens).earlier step).bind
    rintro ⟨second, middle⟩ reads
    have taken := step.trans reads.proceeds
    apply ((attachScripts_meets sound levels second middle).earlier taken).bind
    rintro ⟨scripted, rest⟩ readsScripts
    exact ⟨taken.trans readsScripts.proceeds, fun links found after more ↦
      .infixFollows operator reads readsScripts more⟩
  · next notScript notInfix =>
    have operator : placed.category = .postfixOp := by
      unfold Category.follows at follows
      split at follows <;> simp_all [Placed.category]
    exact ⟨step, fun links found after more ↦ .postfixFollows operator more⟩

theorem attachFollowers_meets (links : Nat) (base : Formula) (tokens : List Placed) :
    Meets tokens (fun found ↦ Reads (.followers levels links base tokens found.1 found.2))
      (attachFollowers (read levels) levels links base tokens) := by
  induction links generalizing base tokens with
  | zero =>
    cases tokens with
    | nil => exact .followersEnd (by simp)
    | cons placed tokens =>
      rw [attachFollowers]
      split
      · exact Located.tooDeep placed tokens
      · next other => exact Reads.followersEnd (by simpa using other)
  | succ links ih =>
    cases tokens with
    | nil => exact .followersEnd (by simp)
    | cons placed tokens =>
      rw [attachFollowers]
      split
      · next follows =>
        apply (withFollower_meets sound base placed tokens follows).bind
        rintro ⟨next, middle⟩ ⟨taken, step⟩
        exact ((ih next middle).earlier taken).mono fun found more ↦ step _ _ _ more
      · next other => exact Reads.followersEnd (by simpa using other)

theorem readEach_meets (budget : Nat) (tokens : List Placed) (enough : tokens.length ≤ budget) :
    Meets tokens (fun found ↦ Reads (.sequence levels tokens found))
      (readEach (read levels true) budget tokens) := by
  induction budget generalizing tokens with
  | zero =>
    obtain rfl := List.eq_nil_of_length_eq_zero (Nat.le_zero.1 enough)
    exact Reads.sequenceEnd
  | succ budget ih =>
    cases tokens with
    | nil => exact Reads.sequenceEnd
    | cons placed tokens =>
      rw [readEach]
      apply (sound placed tokens).2.bind
      rintro ⟨first, middle⟩ reads
      have taken := reads.proceeds.takes
      have shorter : middle.length ≤ budget := reads.proceeds.length_le enough
      refine ((ih middle shorter).earlier taken).bind fun others more ↦ ?_
      exact Reads.sequenceStep reads more

theorem sequence_meets (tokens : List Placed) :
    Meets tokens (fun found ↦ Reads (.sequence levels tokens found))
      (sequence (read levels true) tokens) :=
  readEach_meets sound tokens.length tokens (Nat.le_refl _)

theorem readPieces_meets (ruled : Bool) (budget : Nat) (cellBegun : Bool) (tokens : List Placed)
    (enough : tokens.length ≤ budget) :
    Meets tokens (fun found ↦ Reads (.pieces levels ruled cellBegun tokens found))
      (readPieces (read levels true) ruled budget cellBegun tokens) := by
  induction budget generalizing cellBegun tokens with
  | zero =>
    obtain rfl := List.eq_nil_of_length_eq_zero (Nat.le_zero.1 enough)
    exact Reads.piecesEnd
  | succ budget ih =>
    cases tokens with
    | nil => exact Reads.piecesEnd
    | cons placed tokens =>
      rw [readPieces]
      split
      · next piece ends =>
        have taken := Takes.single (category_ne_unused_of_endsCell ends) tokens
        apply ((ih false tokens (Nat.le_of_succ_le_succ enough)).earlier taken).map
        exact fun found more ↦ .pieceMark ends more
      · next inside =>
        apply (sound placed tokens).2.bind
        rintro ⟨first, middle⟩ reads
        have taken := reads.proceeds.takes
        have shorter : middle.length ≤ budget := reads.proceeds.length_le enough
        refine ((ih true middle shorter).earlier taken).bind fun found more ↦ ?_
        exact Reads.pieceFormula inside reads more

theorem grid_meets (ruled : Bool) (leading : List Formula) (tokens : List Placed) :
    Meets tokens
      (fun cells ↦ ∃ found, cells = .ofPieces [] leading found ∧
        Reads (.pieces levels ruled (!leading.isEmpty) tokens found))
      (grid (read levels true) ruled leading tokens) :=
  (readPieces_meets sound ruled tokens.length _ tokens (Nat.le_refl _)).map fun found reads ↦
    ⟨found, rfl, reads⟩

theorem bracketRegion_meets (leading : List Formula) (opener : Token) (tokens : List Placed) :
    Meets tokens (fun found ↦ Reads (.brackets levels leading opener tokens found.1 found.2))
      (Formula.bracketRegion (read levels) leading opener tokens) := by
  rw [Formula.bracketRegion]
  split
  · next unmatched =>
    refine (sequence_meets sound tokens).bind fun body reads ↦ ?_
    exact Reads.unclosed unmatched reads
  · next region matched =>
    obtain ⟨rfl, -, -⟩ := Region.ofBrackets?_eq_some matched
    dsimp only
    split
    · next rows =>
      apply ((grid_meets sound true leading region.inside).append _).bind
      rintro cells ⟨found, rfl, reads⟩
      split
      · next grid fits => exact Reads.grid matched rows reads fits
      · next unfit => exact absurd unfit Grid.toMatrix_ofPieces_ne_none
    · next rows =>
      refine ((sequence_meets sound region.inside).append _).bind fun body reads ↦ ?_
      exact Reads.group matched rows reads

theorem barRegion_meets (placed : Placed) (tokens : List Placed)
    (category : placed.category = .bar) :
    Meets tokens
      (fun found ↦ Reads (.alone (levels + 1) (placed :: tokens) found.1 found.2))
      (barRegion (read levels) placed.token tokens) := by
  rw [barRegion]
  split
  · next unmatched => exact Reads.loneBar category unmatched
  · next region matched =>
    obtain ⟨rfl, -, -, -⟩ := Region.ofBars?_eq_some matched
    split
    · next rows =>
      apply ((grid_meets sound false [] region.inside).append _).bind
      rintro cells ⟨found, rfl, reads⟩
      split
      · next grid fits => exact Reads.barGrid category matched rows reads fits
      · next unfit => exact absurd unfit Grid.toMatrix_ofPieces_ne_none
    · refine ((sequence_meets sound region.inside).append _).bind fun body reads ↦ ?_
      exact Reads.barGroup category matched reads

theorem optionalScripts_meets (placed : Placed) (tokens : List Placed)
    (category : placed.category = .optionalScripts) :
    Meets tokens
      (fun found ↦ Reads (.alone (levels + 1) (placed :: tokens) found.1 found.2))
      (optionalScripts (read levels) placed.token tokens) := by
  rw [optionalScripts]
  split
  · next unmatched => exact Reads.unscripted category (leadingScript?_eq_none.1 unmatched)
  · next token rest matched =>
    obtain ⟨script, rfl, scripted, -, rfl⟩ := leadingScript?_eq_some.1 matched
    have step : Takes (script :: rest) rest := .single (by simp [scripted]) rest
    apply ((strippedOperand_meets sound rest).earlier step).bind
    rintro ⟨_, middle⟩ ⟨first, rfl, reads⟩
    dsimp only
    split
    · next unmatched => exact Reads.scriptedOnce category scripted reads unmatched
    · next token final matched =>
      obtain ⟨other, rfl, otherScripted, differs, rfl⟩ := leadingScript?_eq_some.1 matched
      have taken := step.trans (reads.proceeds.trans (.single (by simp [otherScripted]) final))
      apply ((strippedOperand_meets sound final).earlier taken).bind
      rintro ⟨_, after⟩ ⟨second, rfl, readsSecond⟩
      exact Reads.scriptedTwice category scripted reads otherScripted differs readsSecond

theorem derivativeOrder_meets (tokens : List Placed) :
    Meets tokens (fun found ↦ Reads (.order levels tokens found.1 found.2))
      (derivativeOrder (read levels) tokens) := by
  rw [derivativeOrder]
  split
  · next token rest matched =>
    obtain ⟨script, rfl, scripted, above, rfl⟩ := leadingScript?_eq_some.1 matched
    apply ((strippedOperand_meets sound rest).earlier (.single (by simp [scripted]) rest)).bind
    rintro ⟨_, after⟩ ⟨argument, rfl, reads⟩
    exact Reads.withOrder scripted above reads
  · next unmatched => exact Reads.noOrder unmatched

theorem derivativeTerms_meets (placed : Placed) (tokens : List Placed) :
    Meets (placed :: tokens)
      (fun found ↦ Reads (.terms levels (placed :: tokens) found.1 found.2))
      (derivativeTerms (read levels) levels placed tokens) := by
  rw [derivativeTerms]
  apply (sound placed tokens).1.bind
  rintro ⟨term, middle⟩ reads
  dsimp only
  split
  · next terms grouped => exact Reads.groupTerms reads grouped
  · next single =>
    apply ((attachScripts_meets sound levels term middle).earlier reads.proceeds.takes).bind
    rintro ⟨scripted, after⟩ readsScripts
    exact Reads.singleTerm reads single readsScripts

theorem derivativeOf_meets (placed : Placed) (tokens : List Placed)
    (category : placed.category = .derivative) :
    Meets tokens
      (fun found ↦ Reads (.alone (levels + 1) (placed :: tokens) found.1 found.2))
      (derivativeOf (read levels) levels placed.token tokens) := by
  rw [derivativeOf]
  apply (derivativeOrder_meets sound tokens).bind
  rintro ⟨power, middle⟩ readsOrder
  apply ((strippedOperand_meets sound middle).earlier readsOrder.proceeds).bind
  rintro ⟨_, rest⟩ ⟨function, rfl, readsFunction⟩
  have taken := readsOrder.proceeds.trans readsFunction.proceeds
  dsimp only
  split
  · exact Reads.derivativeBare category readsOrder readsFunction (by simp)
  · next next rest =>
    split
    · next starts =>
      apply ((derivativeTerms_meets sound next rest).earlier taken).bind
      rintro ⟨terms, after⟩ readsTerms
      exact Reads.derivativeBy category readsOrder readsFunction starts readsTerms
    · next other =>
      exact Reads.derivativeBare category readsOrder readsFunction (by simpa using other)

theorem ofLeaf_meets (placed : Placed) (tokens : List Placed) (category : placed.category.isLeaf) :
    Meets tokens
      (fun found ↦ Reads (.alone (levels + 1) (placed :: tokens) found.1 found.2))
      (ofLeaf (read levels) placed.token tokens) := by
  cases tokens with
  | nil => exact .leaf category (by simp)
  | cons next tokens =>
    rw [ofLeaf]
    split
    · next ruled =>
      simp only [Bool.and_eq_true, decide_eq_true_eq] at ruled
      obtain ⟨flag, opens⟩ := ruled
      have step : Takes (next :: tokens) tokens := .single (by simp [opens]) tokens
      have inside := bracketRegion_meets sound [ofToken placed.token] next.token tokens
      apply (inside.earlier step).mono
      exact fun found reads ↦ .ruledRegion category flag opens reads
    · next unruled =>
      refine Reads.leaf category ?_
      simpa using unruled

theorem readAlone_meets (placed : Placed) (tokens : List Placed) :
    Meets (placed :: tokens)
      (fun found ↦ Reads (.alone (levels + 1) (placed :: tokens) found.1 found.2))
      (readAlone (read levels) levels placed tokens) := by
  by_cases unused : placed.category = .unused
  · simp only [readAlone, show placed.token.category = .unused from unused]
    exact Located.unused unused tokens
  refine Meets.earlier (.single unused tokens) ?_
  cases category : placed.token.category with
  | constant | letter | text | number | run =>
    simp only [readAlone, category]
    exact ofLeaf_meets sound placed tokens (by simp [Placed.category, category, Category.isLeaf])
  | opener =>
    simp only [readAlone, category]
    exact (bracketRegion_meets sound [] placed.token tokens).mono fun found reads ↦
      .bracketRegion category reads
  | bar =>
    simp only [readAlone, category]
    exact barRegion_meets sound placed tokens category
  | script | prefixUnary =>
    simp only [readAlone, category]
    apply (strippedOperand_meets sound tokens).bind
    rintro ⟨_, after⟩ ⟨argument, rfl, reads⟩
    exact Reads.prefixed (by simp [Placed.category, category]) reads
  | prefixBinary =>
    simp only [readAlone, category]
    apply (strippedOperand_meets sound tokens).bind
    rintro ⟨_, middle⟩ ⟨first, rfl, readsFirst⟩
    apply ((strippedOperand_meets sound middle).earlier readsFirst.proceeds).bind
    rintro ⟨_, after⟩ ⟨second, rfl, readsSecond⟩
    exact Reads.prefixedPair category readsFirst readsSecond
  | sign =>
    simp only [readAlone, category]
    split
    · next leads =>
      apply (operand_meets sound tokens).bind
      rintro ⟨term, after⟩ reads
      exact Reads.leadingSign category leads reads
    · next plain => exact Reads.sign category plain
  | optionalScripts =>
    simp only [readAlone, category]
    exact optionalScripts_meets sound placed tokens category
  | derivative =>
    simp only [readAlone, category]
    exact derivativeOf_meets sound placed tokens category
  | separator | alignMark =>
    simp only [readAlone, category]
    exact Reads.mark (by simp [Placed.category, category])
  | closer =>
    simp only [readAlone, category]
    exact Reads.strayCloser category
  | infixOp | postfixOp =>
    simp only [readAlone, category]
    exact Reads.strayOperator (by simp [Placed.category, category])
  | unused => exact absurd category unused

end

theorem sound (levels : Nat) : Sound levels := by
  -- A reader calls others only a level below, and goes through the tokens by its own budget.
  induction levels with
  | zero =>
    exact fun placed tokens ↦ ⟨Located.tooDeep placed tokens, Located.tooDeep placed tokens⟩
  | succ levels ih =>
    intro placed tokens
    have alone := readAlone_meets ih placed tokens
    constructor
    · rw [read]
      exact alone.bind fun found reads ↦ reads
    · rw [read]
      apply alone.bind
      rintro ⟨base, middle⟩ reads
      apply ((attachFollowers_meets ih levels base middle).earlier reads.proceeds.takes).mono
      exact fun found follows ↦ .whole reads follows

end AsciiMath.Formula
