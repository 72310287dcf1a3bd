import AsciiMath.Formula.OfTokens
import AsciiMath.Proofs.Formula.Outline
import AsciiMath.Proofs.Formula.Region
import AsciiMath.Proofs.Symbol.Extra
import Mathlib.Data.List.Forall2

/-!
# Templates never steer the reading

Two lists of tokens that differ in their TeX alone are read alike: with the same error, or as
formulas of the same outline with as many tokens left. Every choice of a reader is made by the
categories, values and flags of tokens, or by the brackets at the ends of a formula that was read,
and these are known by their sources.
-/

namespace AsciiMath

/-- Tokens that differ in their TeX at most, and in whether they are keywords. -/
structure Token.Alike (token other : Token) : Prop where
  value : token.value = other.value
  category : token.category = other.category
  flag : token.flag = other.flag
  position : token.position = other.position

theorem Token.Alike.isRowSeparator {token other : Token} (alike : token.Alike other) :
    token.isRowSeparator = other.isRowSeparator := by
  rw [Token.isRowSeparator, Token.isRowSeparator, alike.category, alike.value]

namespace Placed

structure Alike (placed other : Placed) : Prop where
  token : placed.token.Alike other.token
  leads : placed.leads = other.leads

theorem Alike.category {placed other : Placed} (alike : placed.Alike other) :
    placed.category = other.category := alike.token.category

theorem follow_alike {tokens others : List Token} (alike : List.Forall₂ Token.Alike tokens others)
    (leads : Bool) : List.Forall₂ Alike (follow leads tokens) (follow leads others) := by
  induction alike generalizing leads with
  | nil => exact .nil
  | cons here _ ih =>
    rw [follow, follow, here.category]
    exact .cons ⟨here, rfl⟩ (ih _)

end Placed

variable {tokens others : List Placed}

namespace Region

structure Alike (region other : Region) : Prop where
  inside : List.Forall₂ Placed.Alike region.inside other.inside
  closer : region.closer.Alike other.closer
  after : List.Forall₂ Placed.Alike region.after other.after

theorem grow_alike {placed other : Placed} (here : placed.Alike other)
    {region region' : Option Region} (alike : Option.Rel Alike region region') :
    Option.Rel Alike (region.map (grow placed)) (region'.map (grow other)) := by
  cases alike with
  | none => exact .none
  | some same => exact .some ⟨.cons here same.inside, same.closer, same.after⟩

theorem ofBrackets?_alike (alike : List.Forall₂ Placed.Alike tokens others) (depth : Nat) :
    Option.Rel Alike (ofBrackets? depth tokens) (ofBrackets? depth others) := by
  induction alike generalizing depth with
  | nil => exact .none
  | cons here more ih =>
    rw [ofBrackets?_cons, ofBrackets?_cons, here.category]
    split
    · exact .some ⟨.nil, here, more⟩
    · exact grow_alike here (ih _)

theorem ofBars?_alike (bar : String) (alike : List.Forall₂ Placed.Alike tokens others)
    (depth : Nat) : Option.Rel Alike (ofBars? bar depth tokens) (ofBars? bar depth others) := by
  induction alike generalizing depth with
  | nil => exact .none
  | cons here more ih =>
    rw [ofBars?_cons, ofBars?_cons, here.category, here.token.value]
    split
    · exact .none
    · split
      · exact .some ⟨.nil, here, more⟩
      · exact grow_alike here (ih _)

theorem hasRows_alike (alike : List.Forall₂ Placed.Alike tokens others) (depth : Nat) :
    hasRows depth tokens = hasRows depth others := by
  induction alike generalizing depth with
  | nil => rfl
  | cons here more ih =>
    rw [hasRows, hasRows, here.category, here.token.isRowSeparator]
    split <;> simp only [ih]

end Region

/-- The same error, or results with the relation. -/
inductive SameUpTo {ε α β : Type} (related : α → β → Prop) : Except ε α → Except ε β → Prop where
  | ok {found : α} {other : β} (same : related found other) :
      SameUpTo related (.ok found) (.ok other)
  | error (cause : ε) : SameUpTo related (.error cause) (.error cause)

namespace SameUpTo

variable {ε α β γ δ : Type} {related : α → β → Prop} {further : γ → δ → Prop}
  {result : Except ε α} {other : Except ε β}

theorem refl {related : α → α → Prop} (same : ∀ found, related found found)
    (result : Except ε α) : SameUpTo related result result := by
  cases result with
  | ok found => exact .ok (same found)
  | error cause => exact .error cause

theorem eq {result other : Except ε α} (h : SameUpTo (· = ·) result other) : result = other := by
  cases h with
  | ok same => rw [same]
  | error cause => rfl

theorem bind (h : SameUpTo related result other) {next : α → Except ε γ} {next' : β → Except ε δ}
    (more : ∀ found found', related found found' → SameUpTo further (next found) (next' found')) :
    SameUpTo further (result >>= next) (other >>= next') := by
  cases h with
  | ok same => exact more _ _ same
  | error cause => exact .error cause

theorem map (h : SameUpTo related result other) {next : α → γ} {next' : β → δ}
    (more : ∀ found found', related found found' → further (next found) (next' found')) :
    SameUpTo further (next <$> result) (next' <$> other) := by
  cases h with
  | ok same => exact .ok (more _ _ same)
  | error cause => exact .error cause

theorem map_eq {outline : α → γ} {result other : Except ε α}
    (h : SameUpTo (fun found found' ↦ outline found = outline found') result other) :
    outline <$> result = outline <$> other := by
  cases h with
  | ok same => exact congrArg Except.ok same
  | error cause => rfl

end SameUpTo

theorem rel_of_map_eq {α β : Type} {outline : α → β} {found other : Option α}
    (same : found.map outline = other.map outline) :
    Option.Rel (fun value value' ↦ outline value = outline value') found other := by
  cases found with
  | none =>
    rw [Option.map_eq_none_iff.1 same.symm]
    exact .none
  | some value =>
    obtain ⟨value', rfl, h⟩ := Option.map_eq_some_iff.1 same.symm
    exact .some h.symm

namespace Formula

/-- Readings of one outline, with the same tokens left up to their TeX. -/
structure ReadAlike {α : Type} (outline : α → α) (found other : α × List Placed) : Prop where
  same : outline found.1 = outline other.1
  after : List.Forall₂ Placed.Alike found.2 other.2

/-- Readers that read alike what differs in its TeX alone. -/
def Blind (deeper : Bool → Reader) : Prop :=
  ∀ (followed : Bool) (placed other : Placed) (tokens others : List Placed), placed.Alike other →
    List.Forall₂ Placed.Alike tokens others →
      SameUpTo (ReadAlike outline) (deeper followed placed tokens) (deeper followed other others)

theorem outline_ofToken {token other : Token} (alike : token.Alike other) :
    outline (ofToken token) = outline (ofToken other) := by
  rw [ofToken, ofToken, outline_leaf, outline_leaf, alike.value]

theorem outline_withScript {base base' argument argument' : Formula}
    (same : base.outline = base'.outline) (script script' : Token)
    (below : argument.outline = argument'.outline) :
    outline (withScript base script argument) = outline (withScript base' script' argument') := by
  simp only [withScript, outline_flat, List.map_cons, List.map_nil, outline_unary, same, below]

theorem stripBrackets_same {formula other : Formula} (same : formula.outline = other.outline) :
    outline formula.stripBrackets = outline other.stripBrackets := by
  rw [outline_stripBrackets, outline_stripBrackets, same]

theorem groupBody?_alike {formula other : Formula} (same : formula.outline = other.outline) :
    Option.Rel (fun body body' ↦ body.map outline = body'.map outline) formula.groupBody?
      other.groupBody? := by
  apply rel_of_map_eq
  rw [← groupBody?_outline, ← groupBody?_outline, same]

/-- Grids of one outline are matrices of one outline, or neither is a matrix. -/
theorem toMatrix_alike {cells cells' : Grid} (same : cells.outline = cells'.outline)
    (left right left' right' : String) (alignment : Alignment)
    (alike : List.Forall₂ Placed.Alike tokens others) :
    SameUpTo (ReadAlike outline)
      (match cells.toMatrix left right alignment with
        | some found => pure (.matrix found, tokens)
        | none => .error .ruleBeyondRow)
      (match cells'.toMatrix left' right' alignment with
        | some found => pure (.matrix found, others)
        | none => .error ConversionError.ruleBeyondRow) := by
  have matrices : Option.Rel (fun found other ↦ outlineOfMatrix found = outlineOfMatrix other)
      (cells.toMatrix left right alignment) (cells'.toMatrix left' right' alignment) := by
    apply rel_of_map_eq
    rw [Grid.toMatrix_outline, Grid.toMatrix_outline, same]
  generalize cells.toMatrix left right alignment = found,
    cells'.toMatrix left' right' alignment = other at matrices ⊢
  cases matrices with
  | none => exact .error _
  | some outlines => exact .ok ⟨by rw [outline_matrix, outline_matrix, outlines], alike⟩

section

variable {deeper : Bool → Reader} (blind : Blind deeper)

include blind

theorem operand_blind (alike : List.Forall₂ Placed.Alike tokens others) :
    SameUpTo (ReadAlike outline) (operand deeper tokens) (operand deeper others) := by
  cases alike with
  | nil => exact .ok ⟨rfl, .nil⟩
  | cons here more =>
    rw [operand, operand, here.category]
    split
    · exact .ok ⟨rfl, .cons here more⟩
    · exact blind false _ _ _ _ here more

theorem strippedOperand_blind (alike : List.Forall₂ Placed.Alike tokens others) :
    SameUpTo (ReadAlike outline) (strippedOperand deeper tokens)
      (strippedOperand deeper others) :=
  (operand_blind blind alike).bind fun _ _ read ↦ .ok ⟨stripBrackets_same read.same, read.after⟩

theorem attachScripts_blind (links : Nat) {base base' : Formula}
    (same : base.outline = base'.outline) (alike : List.Forall₂ Placed.Alike tokens others) :
    SameUpTo (ReadAlike outline) (attachScripts deeper links base tokens)
      (attachScripts deeper links base' others) := by
  induction links generalizing base base' tokens others with
  | zero =>
    cases alike with
    | nil => exact .ok ⟨same, .nil⟩
    | cons here more =>
      rw [attachScripts, attachScripts, here.category, here.token.position]
      split
      · exact .error _
      · exact .ok ⟨same, .cons here more⟩
  | succ links ih =>
    cases alike with
    | nil => exact .ok ⟨same, .nil⟩
    | cons here more =>
      rw [attachScripts, attachScripts, here.category]
      split
      · exact (strippedOperand_blind blind more).bind fun _ _ read ↦
          ih (outline_withScript same _ _ read.same) read.after
      · exact .ok ⟨same, .cons here more⟩

theorem withFollower_blind (levels : Nat) {base base' : Formula}
    (same : base.outline = base'.outline) {token token' : Token} (here : token.Alike token')
    (alike : List.Forall₂ Placed.Alike tokens others) :
    SameUpTo (ReadAlike outline) (withFollower deeper levels base token tokens)
      (withFollower deeper levels base' token' others) := by
  rw [withFollower, withFollower, here.category]
  split
  · exact (strippedOperand_blind blind alike).bind fun _ _ read ↦
      .ok ⟨outline_withScript same _ _ read.same, read.after⟩
  · apply (operand_blind blind alike).bind
    intro second second' read
    apply (attachScripts_blind blind levels read.same read.after).bind
    intro scripted scripted' reads
    refine SameUpTo.ok ⟨?_, reads.after⟩
    rw [outline_binary, outline_binary, stripBrackets_same same, stripBrackets_same reads.same]
  · exact .ok ⟨by rw [outline_unary, outline_unary, same], alike⟩

theorem attachFollowers_blind (levels links : Nat) {base base' : Formula}
    (same : base.outline = base'.outline) (alike : List.Forall₂ Placed.Alike tokens others) :
    SameUpTo (ReadAlike outline) (attachFollowers deeper levels links base tokens)
      (attachFollowers deeper levels links base' others) := by
  induction links generalizing base base' tokens others with
  | zero =>
    cases alike with
    | nil => exact .ok ⟨same, .nil⟩
    | cons here more =>
      rw [attachFollowers, attachFollowers, here.category, here.token.position]
      split
      · exact .error _
      · exact .ok ⟨same, .cons here more⟩
  | succ links ih =>
    cases alike with
    | nil => exact .ok ⟨same, .nil⟩
    | cons here more =>
      rw [attachFollowers, attachFollowers, here.category]
      split
      · exact (withFollower_blind blind levels same here.token more).bind fun _ _ read ↦
          ih read.same read.after
      · exact .ok ⟨same, .cons here more⟩

theorem readEach_blind (fuel : Nat) (alike : List.Forall₂ Placed.Alike tokens others) :
    SameUpTo (fun found other ↦ found.map outline = other.map outline)
      (readEach (deeper true) fuel tokens) (readEach (deeper true) fuel others) := by
  induction fuel generalizing tokens others with
  | zero => cases alike <;> exact .ok rfl
  | succ fuel ih =>
    cases alike with
    | nil => exact .ok rfl
    | cons here more =>
      rw [readEach, readEach]
      apply (blind true _ _ _ _ here more).bind
      intro first first' read
      apply (ih read.after).bind
      intro rest rest' same
      exact .ok (by rw [List.map_cons, List.map_cons, read.same, same])

theorem sequence_blind (alike : List.Forall₂ Placed.Alike tokens others) :
    SameUpTo (fun found other ↦ found.map outline = other.map outline)
      (sequence (deeper true) tokens) (sequence (deeper true) others) := by
  rw [sequence, sequence, alike.length_eq]
  exact readEach_blind blind _ alike

omit blind in
theorem endsCell_alike {token other : Token} (alike : token.Alike other) (ruled cellBegun : Bool) :
    endsCell ruled cellBegun token = endsCell ruled cellBegun other := by
  rw [endsCell, endsCell, alike.category, alike.isRowSeparator, alike.value]

theorem readPieces_blind (ruled : Bool) (fuel : Nat) (cellBegun : Bool)
    (alike : List.Forall₂ Placed.Alike tokens others) :
    SameUpTo (fun found other ↦ found.map GridPiece.outline = other.map GridPiece.outline)
      (readPieces (deeper true) ruled fuel cellBegun tokens)
      (readPieces (deeper true) ruled fuel cellBegun others) := by
  induction fuel generalizing cellBegun tokens others with
  | zero => cases alike <;> exact .ok rfl
  | succ fuel ih =>
    cases alike with
    | nil => exact .ok rfl
    | cons here more =>
      rw [readPieces, readPieces, endsCell_alike here.token]
      split
      · exact (ih false more).map fun _ _ same ↦ by rw [List.map_cons, List.map_cons, same]
      · apply (blind true _ _ _ _ here more).bind
        intro first first' read
        apply (ih true read.after).bind
        intro rest rest' same
        refine SameUpTo.ok ?_
        rw [List.map_cons, List.map_cons, GridPiece.outline, GridPiece.outline, read.same, same]

theorem grid_blind (ruled : Bool) {leading leading' : List Formula}
    (begun : leading.map outline = leading'.map outline)
    (alike : List.Forall₂ Placed.Alike tokens others) :
    SameUpTo (fun found other ↦ found.outline = other.outline)
      (grid (deeper true) ruled leading tokens) (grid (deeper true) ruled leading' others) := by
  have empty : leading.isEmpty = leading'.isEmpty := by
    simpa only [List.isEmpty_map] using congrArg List.isEmpty begun
  rw [grid, grid, alike.length_eq, empty]
  apply (readPieces_blind blind ruled _ _ alike).map
  intro pieces pieces' same
  rw [Grid.ofPieces_outline, Grid.ofPieces_outline, begun, same]

theorem bracketRegion_blind {leading leading' : List Formula}
    (begun : leading.map outline = leading'.map outline) {opener opener' : Token}
    (here : opener.Alike opener') (alike : List.Forall₂ Placed.Alike tokens others) :
    SameUpTo (ReadAlike outline) (bracketRegion deeper leading opener tokens)
      (bracketRegion deeper leading' opener' others) := by
  have regions := Region.ofBrackets?_alike alike 0
  unfold bracketRegion
  generalize Region.ofBrackets? 0 tokens = found, Region.ofBrackets? 0 others = other at regions ⊢
  cases regions with
  | none =>
    refine (sequence_blind blind alike).bind fun body body' same ↦ SameUpTo.ok ⟨?_, .nil⟩
    simp only [outline_flat, List.map_append, List.map_cons, begun, outline_ofToken here, same]
  | @some region region' regions =>
    dsimp only
    rw [Region.hasRows_alike regions.inside, here.value, regions.closer.token.value]
    split
    · exact (grid_blind blind true begun regions.inside).bind fun _ _ same ↦
        toMatrix_alike same _ _ _ _ _ regions.after
    · refine (sequence_blind blind regions.inside).bind fun body body' same ↦
        SameUpTo.ok ⟨?_, regions.after⟩
      simp only [outline_flat, List.map_append, List.map_cons, begun, outline_ofToken here, same,
        outline_ofToken regions.closer.token]

theorem barRegion_blind {bar bar' : Token} (here : bar.Alike bar')
    (alike : List.Forall₂ Placed.Alike tokens others) :
    SameUpTo (ReadAlike outline) (barRegion deeper bar tokens) (barRegion deeper bar' others) := by
  have regions := Region.ofBars?_alike bar'.value alike 0
  unfold barRegion
  rw [here.value]
  generalize Region.ofBars? bar'.value 0 tokens = found,
    Region.ofBars? bar'.value 0 others = other at regions ⊢
  cases regions with
  | none => exact .ok ⟨rfl, alike⟩
  | @some region region' regions =>
    dsimp only
    rw [Region.hasRows_alike regions.inside]
    split
    · exact (grid_blind blind false rfl regions.inside).bind fun _ _ same ↦
        toMatrix_alike same _ _ _ _ _ regions.after
    · refine (sequence_blind blind regions.inside).bind fun body body' same ↦
        SameUpTo.ok ⟨?_, regions.after⟩
      simp only [outline_flat, List.map_append, List.map_cons, outline_leaf, same]

omit blind in
/-- A leading script is found where one with the same value is found. -/
theorem leadingScript?_alike (wanted : Token → Bool)
    (fair : ∀ token other : Token, token.Alike other → wanted token = wanted other)
    (alike : List.Forall₂ Placed.Alike tokens others) :
    Option.Rel (fun found other ↦ found.1.Alike other.1 ∧
        List.Forall₂ Placed.Alike found.2 other.2)
      (leadingScript? wanted tokens) (leadingScript? wanted others) := by
  cases alike with
  | nil => exact .none
  | cons here more =>
    rw [leadingScript?, leadingScript?, here.category, fair _ _ here.token]
    split
    · exact .some ⟨here.token, more⟩
    · exact .none

omit blind in
theorem isAbove_alike {script other : Token} (alike : script.Alike other) :
    isAbove script = isAbove other := by
  rw [isAbove, isAbove, alike.value]

theorem optionalScripts_blind {operator operator' : Token}
    (alike : List.Forall₂ Placed.Alike tokens others) :
    SameUpTo (ReadAlike outline) (optionalScripts deeper operator tokens)
      (optionalScripts deeper operator' others) := by
  -- Which operand stands above is decided by the values of the scripts.
  have placed (above : Bool) {first first' second second' : Formula}
      (same : first.outline = first'.outline) (same' : second.outline = second'.outline) :
      outline (if above then .binary operator.template first second
        else .binary operator.template second first) =
        outline (if above then .binary operator'.template first' second'
          else .binary operator'.template second' first') := by
    cases above <;> simp [same, same']
  have scripts := leadingScript?_alike (fun _ ↦ true) (fun _ _ _ ↦ rfl) alike
  unfold optionalScripts
  generalize leadingScript? (fun _ ↦ true) tokens = found,
    leadingScript? (fun _ ↦ true) others = other at scripts ⊢
  cases scripts with
  | none => exact .ok ⟨rfl, alike⟩
  | @some found other scripts =>
    obtain ⟨here, more⟩ := scripts
    dsimp only
    rw [isAbove_alike here]
    generalize isAbove other.1 = above
    apply (strippedOperand_blind blind more).bind
    rintro ⟨first, after⟩ ⟨first', after'⟩ read
    have scripts := leadingScript?_alike (isAbove · != above)
      (fun _ _ alike ↦ by rw [isAbove_alike alike]) read.after
    dsimp only at scripts ⊢
    generalize leadingScript? (isAbove · != above) after = found,
      leadingScript? (isAbove · != above) after' = other at scripts ⊢
    cases scripts with
    | none => exact .ok ⟨placed above read.same rfl, read.after⟩
    | some scripts =>
      exact (strippedOperand_blind blind scripts.2).bind fun _ _ reads ↦
        .ok ⟨placed above read.same reads.same, reads.after⟩

theorem derivativeOrder_blind (alike : List.Forall₂ Placed.Alike tokens others) :
    SameUpTo (ReadAlike (List.map outline)) (derivativeOrder deeper tokens)
      (derivativeOrder deeper others) := by
  have scripts := leadingScript?_alike isAbove (fun _ _ ↦ isAbove_alike) alike
  unfold derivativeOrder
  generalize leadingScript? isAbove tokens = found, leadingScript? isAbove others = other
    at scripts ⊢
  cases scripts with
  | none => exact .ok ⟨rfl, alike⟩
  | some scripts =>
    refine (strippedOperand_blind blind scripts.2).bind fun order order' read ↦
      SameUpTo.ok ⟨?_, read.after⟩
    rw [List.map_singleton, List.map_singleton, outline_unary, outline_unary, read.same]

theorem derivativeTerms_blind (levels : Nat) {placed other : Placed} (here : placed.Alike other)
    (alike : List.Forall₂ Placed.Alike tokens others) :
    SameUpTo (ReadAlike (List.map outline)) (derivativeTerms deeper levels placed tokens)
      (derivativeTerms deeper levels other others) := by
  rw [derivativeTerms, derivativeTerms]
  apply (blind false _ _ _ _ here alike).bind
  intro term term' read
  have bodies := groupBody?_alike read.same
  obtain ⟨term, after⟩ := term
  obtain ⟨term', after'⟩ := term'
  dsimp only at bodies ⊢
  generalize term.groupBody? = found, term'.groupBody? = other at bodies ⊢
  cases bodies with
  | some same => exact .ok ⟨same, read.after⟩
  | none =>
    apply (attachScripts_blind blind levels read.same read.after).bind
    intro scripted scripted' reads
    refine SameUpTo.ok ⟨?_, reads.after⟩
    rw [List.map_singleton, List.map_singleton, reads.same]

omit blind in
theorem outline_denominator {operator operator' : Formula}
    {order order' terms terms' : List Formula} (same : operator.outline = operator'.outline)
    (orders : order.map outline = order'.map outline)
    (bodies : terms.map outline = terms'.map outline) :
    outline (denominator operator order terms) = outline (denominator operator' order' terms') := by
  have lengths : terms.length = terms'.length := by
    simpa only [List.length_map] using congrArg List.length bodies
  have spread (operator : Formula) (terms : List Formula) :
      (terms.flatMap ([operator, ·])).map outline =
        (terms.map outline).flatMap ([operator.outline, ·]) := by
    rw [List.map_flatMap, List.flatMap_map]
    rfl
  rw [denominator, denominator, lengths]
  split
  · rw [outline_flat, outline_flat, spread, spread, same, bodies]
  · simp only [outline_flat, List.map_append, List.map_cons, same, orders, bodies]

theorem derivativeOf_blind (levels : Nat) {operator operator' : Token}
    (here : operator.Alike operator') (alike : List.Forall₂ Placed.Alike tokens others) :
    SameUpTo (ReadAlike outline) (derivativeOf deeper levels operator tokens)
      (derivativeOf deeper levels operator' others) := by
  rw [derivativeOf, derivativeOf]
  apply (derivativeOrder_blind blind alike).bind
  rintro ⟨order, middle⟩ ⟨order', middle'⟩ orders
  apply (strippedOperand_blind blind orders.after).bind
  rintro ⟨function, rest⟩ ⟨function', rest'⟩ functions
  have numerator : outline (.flat (ofToken operator :: order ++ [function])) =
      outline (.flat (ofToken operator' :: order' ++ [function'])) := by
    have same : order.map outline = order'.map outline := orders.same
    have same' : function.outline = function'.outline := functions.same
    simp only [outline_flat, List.map_append, List.map_cons, List.map_nil, outline_ofToken here,
      same, same']
  dsimp only
  cases functions.after with
  | nil => exact .ok ⟨by rw [outline_binary, outline_binary, numerator], .nil⟩
  | cons next more =>
    dsimp only
    rw [show startsVariable _ = startsVariable _ from congrArg startsVariable next.category]
    split
    · apply (derivativeTerms_blind blind levels next more).bind
      rintro ⟨terms, after⟩ ⟨terms', after'⟩ read
      refine SameUpTo.ok ⟨?_, read.after⟩
      rw [outline_binary, outline_binary, numerator,
        outline_denominator (outline_ofToken here) orders.same read.same]
    · exact .ok ⟨by rw [outline_binary, outline_binary, numerator], .cons next more⟩

theorem ofLeaf_blind {token token' : Token} (here : token.Alike token')
    (alike : List.Forall₂ Placed.Alike tokens others) :
    SameUpTo (ReadAlike outline) (ofLeaf deeper token tokens) (ofLeaf deeper token' others) := by
  cases alike with
  | nil => exact .ok ⟨outline_ofToken here, .nil⟩
  | cons next more =>
    rw [ofLeaf, ofLeaf, here.flag, next.category]
    split
    · refine bracketRegion_blind blind ?_ next.token more
      rw [List.map_singleton, List.map_singleton, outline_ofToken here]
    · exact .ok ⟨outline_ofToken here, .cons next more⟩

theorem readAlone_blind (levels : Nat) {placed other : Placed} (here : placed.Alike other)
    (alike : List.Forall₂ Placed.Alike tokens others) :
    SameUpTo (ReadAlike outline) (readAlone deeper levels placed tokens)
      (readAlone deeper levels other others) := by
  have category := here.token.category
  unfold readAlone
  dsimp only
  rw [category, here.leads]
  cases other.token.category with
  | constant | letter | text | number | run => exact ofLeaf_blind blind here.token alike
  | opener => exact bracketRegion_blind blind rfl here.token alike
  | bar => exact barRegion_blind blind here.token alike
  | script | prefixUnary =>
    exact (strippedOperand_blind blind alike).bind fun _ _ read ↦
      .ok ⟨by rw [outline_unary, outline_unary, read.same], read.after⟩
  | prefixBinary =>
    apply (strippedOperand_blind blind alike).bind
    intro first first' read
    apply (strippedOperand_blind blind read.after).bind
    intro second second' reads
    refine SameUpTo.ok ⟨?_, reads.after⟩
    rw [outline_binary, outline_binary, read.same, reads.same]
  | sign =>
    dsimp only
    split
    · refine (operand_blind blind alike).bind fun term term' read ↦ SameUpTo.ok ⟨?_, read.after⟩
      simp only [outline_flat, List.map_cons, List.map_nil, outline_ofToken here.token, read.same]
    · exact .ok ⟨outline_ofToken here.token, alike⟩
  | optionalScripts => exact optionalScripts_blind blind alike
  | derivative => exact derivativeOf_blind blind levels here.token alike
  | separator | alignMark => exact .ok ⟨outline_ofToken here.token, alike⟩
  | closer => exact .ok ⟨by rw [outline_leaf, outline_leaf, here.token.value], alike⟩
  | infixOp | postfixOp => exact .ok ⟨by rw [here.token.value], alike⟩
  | unused =>
    dsimp only
    rw [here.token.value, here.token.position]
    exact .error _

end

/-- No reader looks at templates, whatever number of levels is left. -/
theorem read_blind (levels : Nat) : Blind (read levels) := by
  -- A reader calls others only a level below.
  induction levels with
  | zero =>
    intro followed placed other tokens others here alike
    rw [read, read, here.token.position]
    exact .error _
  | succ levels ih =>
    intro followed placed other tokens others here alike
    rw [read, read]
    apply (readAlone_blind ih levels here alike).bind
    rintro ⟨formula, after⟩ ⟨formula', after'⟩ alone
    cases followed with
    | true => exact attachFollowers_blind ih levels levels alone.same alone.after
    | false => exact .ok alone

theorem ofTokens_outline {tokens others : List Token}
    (alike : List.Forall₂ Token.Alike tokens others) :
    outline <$> ofTokens tokens = outline <$> ofTokens others := by
  apply SameUpTo.map_eq
  apply (sequence_blind (read_blind maxLevels) (Placed.follow_alike alike true)).map
  intro children children' same
  rw [outline_root, outline_root, same]

end Formula

theorem Token.restyle_alike (templates : String → String → String) (token : Token) :
    (token.restyle templates).Alike token := by
  unfold restyle
  split <;> exact ⟨rfl, rfl, rfl, rfl⟩

/-- Tokens with other templates stand for a formula of the same outline, or fail for the same
reason. So an extra symbol for a known keyword leaves the outline of every text as it is. -/
theorem Formula.ofTokens_blind :
    (∀ tokens others, List.Forall₂ Token.Alike tokens others →
      outline <$> ofTokens tokens = outline <$> ofTokens others) ∧
    ∀ (entries : List (String × Symbol)) (extra : String × String) (text : String),
      extra.1 ∈ entries.map Prod.fst →
      ∃ base extended tokens others, SymbolTable.ofEntries entries = .ok base ∧
        SymbolTable.withExtras entries [extra] = .ok extended ∧
        tokenize base text = .ok tokens ∧ tokenize extended text = .ok others ∧
        outline <$> ofTokens others = outline <$> ofTokens tokens := by
  refine ⟨fun tokens others ↦ ofTokens_outline, fun entries extra text known ↦ ?_⟩
  obtain ⟨base, built⟩ := SymbolTable.ofEntries_eq_ok entries
  obtain ⟨extended, built'⟩ := SymbolTable.withExtras_eq_ok entries [extra]
  obtain ⟨tokens, htokens, -⟩ := tokenize_eq_ok base.fits text
  have restyled := SymbolTable.tokenize_withExtra_of_mem built built' known text
  rw [htokens] at restyled
  refine ⟨base, extended, tokens, _, built, built', htokens, restyled, ofTokens_outline ?_⟩
  rw [List.forall₂_map_left_iff, List.forall₂_same]
  exact fun token _ ↦ token.restyle_alike (overriding extra)

/-- Bars with other templates enclose the same. -/
theorem Formula.ofTokens_blind_bars :
    outline <$> ofTokens [⟨"|", "|", .bar, true, none, ⟨1, 1⟩⟩,
        ⟨"x", "x", .run, false, none, ⟨1, 2⟩⟩, ⟨"|", "|", .bar, true, none, ⟨1, 3⟩⟩] =
      outline <$> ofTokens [⟨"|", "\\mid", .bar, true, none, ⟨1, 1⟩⟩,
        ⟨"x", "$1", .run, true, none, ⟨1, 2⟩⟩, ⟨"|", "", .bar, false, none, ⟨1, 3⟩⟩] := by
  apply ofTokens_blind.1
  have alike (value template template' category keyword keyword' position) :
      Token.Alike ⟨value, template, category, keyword, none, position⟩
        ⟨value, template', category, keyword', none, position⟩ := ⟨rfl, rfl, rfl, rfl⟩
  exact .cons (alike ..) (.cons (alike ..) (.cons (alike ..) .nil))

end AsciiMath
