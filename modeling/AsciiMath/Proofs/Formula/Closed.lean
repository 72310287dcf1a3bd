import AsciiMath.Proofs.Formula.Grid
import AsciiMath.Proofs.Formula.Sound

/-!
# Properties that reading keeps

A property of formulas that every construct of the grammar keeps holds of all formulas that are
read. The constructs are few, since most rules of the grammar build the same kinds of formulas:
leaves, rows of neighbours, templates, groups and matrices.
-/

namespace AsciiMath

theorem Placed.category_mem {placed : Placed} {category : Category} {categories : List Category}
    (h : placed.category = category) (mem : category ∈ categories) :
    placed.token.category ∈ categories := by
  rw [show placed.token.category = category from h]
  exact mem

namespace Grid

variable {P Q : Formula → Prop}
  (ofList : ∀ formulas, (∀ formula ∈ formulas, P formula) → Q (.ofList formulas))

include ofList

theorem forall_mem_push {row cell : List Formula} (hrow : ∀ formula ∈ row, Q formula)
    (hcell : ∀ formula ∈ cell, P formula) : ∀ formula ∈ row ++ [.ofList cell], Q formula :=
  List.forall_mem_append.2 ⟨hrow, List.forall_mem_singleton.2 (ofList cell hcell)⟩

theorem forall_mem_endRow {row cell : List Formula} (hrow : ∀ formula ∈ row, Q formula)
    (hcell : ∀ formula ∈ cell, P formula) : ∀ formula ∈ endRow row cell, Q formula := by
  rw [endRow]
  split
  · exact hrow
  · exact forall_mem_push ofList hrow hcell

/-- What holds of the formulas of each cell gives what holds of the cells. -/
theorem forall_cell_ofPieces {row cell : List Formula} {pieces : List GridPiece}
    (hrow : ∀ formula ∈ row, Q formula) (hcell : ∀ formula ∈ cell, P formula)
    (hpieces : ∀ formula, GridPiece.formula formula ∈ pieces → P formula) :
    ∀ line ∈ (ofPieces row cell pieces).rows, ∀ formula ∈ line, Q formula := by
  induction pieces generalizing row cell with
  | nil =>
    simp only [ofPieces]
    split
    · simp
    · exact List.forall_mem_singleton.2 (forall_mem_endRow ofList hrow hcell)
  | cons piece pieces ih =>
    have hmore : ∀ formula, GridPiece.formula formula ∈ pieces → P formula :=
      fun formula hformula ↦ hpieces formula (List.mem_cons_of_mem piece hformula)
    cases piece with
    | formula formula =>
      have hgrown := List.forall_mem_append.2
        ⟨hcell, List.forall_mem_singleton.2 (hpieces formula (by simp))⟩
      exact ih hrow hgrown hmore
    | cellEnd | rule => exact ih (forall_mem_push ofList hrow hcell) (by simp) hmore
    | rowEnd =>
      exact List.forall_mem_cons.2
        ⟨forall_mem_endRow ofList hrow hcell, ih (by simp) (by simp) hmore⟩

end Grid

namespace Formula

theorem groupBody?_eq_some {formula : Formula} {body : List Formula}
    (h : formula.groupBody? = some body) :
    ∃ first last, formula = .flat (first :: body ++ [last]) ∧
      first.isLeafFrom groupOpeners ∧ last.isLeafFrom groupClosers := by
  cases formula with
  | flat children =>
    cases children with
    | nil => simp [groupBody?] at h
    | cons first rest =>
      rw [groupBody?] at h
      split at h
      · next ends =>
        obtain rfl := Option.some.inj h
        rw [Bool.and_eq_true] at ends
        obtain ⟨opens, closes⟩ := ends
        obtain ⟨last, hlast, closes⟩ := Option.any_eq_true .. |>.1 closes
        refine ⟨first, last, ?_, opens, closes⟩
        rw [List.cons_append, List.dropLast_append_getLast? last hlast]
      · simp at h
  | _ => simp [groupBody?] at h

/-- The children of a group. -/
theorem forall_mem_group {P : Formula → Prop} {leading body : List Formula}
    {opener last : Formula} (hleading : ∀ child ∈ leading, P child) (hopener : P opener)
    (hbody : ∀ child ∈ body, P child) (hlast : P last) :
    ∀ child ∈ leading ++ opener :: body ++ [last], P child := by
  have front := List.forall_mem_append.2 ⟨hleading, List.forall_mem_cons.2 ⟨hopener, hbody⟩⟩
  exact List.forall_mem_append.2 ⟨front, List.forall_mem_singleton.2 hlast⟩

/-- What a bracketed region takes in from before its opener. -/
inductive Leads (usable : Token → Prop) : List Formula → Prop where
  | nothing : Leads usable []
  | rule (token : Token) (can : usable token) (category : token.category.isLeaf)
      (flag : token.flag = some .rowRule) : Leads usable [ofToken token]

theorem Leads.forall_mem {usable : Token → Prop} {P : Formula → Prop} {leading : List Formula}
    (leads : Leads usable leading)
    (h : ∀ token, usable token → token.category.isLeaf → P (ofToken token)) :
    ∀ child ∈ leading, P child := by
  cases leads with
  | nothing => exact List.forall_mem_nil P
  | rule token can category => exact List.forall_mem_singleton.2 (h token can category)

/-- The delimiters of a matrix. -/
inductive Delimits (usable : Token → Prop) : String → String → Prop where
  | brackets (opener closer : Token) (canOpen : usable opener) (canClose : usable closer)
      (opens : opener.category = .opener) (closes : closer.category = .closer) :
      Delimits usable opener.template closer.template
  | bars (bar : Token) (can : usable bar) (category : bar.category = .bar) :
      Delimits usable ("\\left" ++ bar.template) ("\\right" ++ bar.template)

/-- A property that all constructs keep whose tokens are usable. -/
structure Closed (usable : Token → Prop) (P : Formula → Prop) : Prop where
  empty : P empty
  leaf (token : Token) (can : usable token)
    (category : token.category.isLeaf ∨
      token.category ∈ [.sign, .separator, .alignMark, .derivative]) : P (ofToken token)
  strayCloser (token : Token) (can : usable token) (category : token.category = .closer) :
    P (.leaf ("\\left. " ++ token.template) token.value)
  strayOperator (token : Token) (can : usable token)
    (category : token.category = .infixOp ∨ token.category = .postfixOp) :
    P (.leaf token.value token.value)
  loneBar (token : Token) (can : usable token) (category : token.category = .bar) :
    P (.leaf (barRelation token) token.value)
  unary (token : Token) (can : usable token)
    (category : token.category ∈ [.script, .prefixUnary, .postfixOp]) (argument : Formula)
    (h : P argument) : P (.unary token.template argument)
  binary (token : Token) (can : usable token)
    (category : token.category ∈ [.prefixBinary, .infixOp, .optionalScripts])
    (first second : Formula) (hfirst : P first) (hsecond : P second) :
    P (.binary token.template first second)
  fraction (numerator denominator : Formula) (hnumerator : P numerator)
    (hdenominator : P denominator) : P (.binary fractionTemplate numerator denominator)
  flat (children : List Formula) (h : ∀ child ∈ children, P child) : P (.flat children)
  body (formula : Formula) (body : List Formula) (h : P formula)
    (grouped : formula.groupBody? = some body) : ∀ child ∈ body, P child
  unclosed (leading : List Formula) (leads : Leads usable leading) (opener : Token)
    (can : usable opener) (category : opener.category = .opener) (body : List Formula)
    (h : ∀ child ∈ body, P child) :
    P (.flat (leading ++ ofToken opener :: body ++ [.leaf "\\right." ""]))
  group (leading : List Formula) (leads : Leads usable leading) (opener closer : Token)
    (canOpen : usable opener) (canClose : usable closer) (opens : opener.category = .opener)
    (closes : closer.category = .closer) (body : List Formula) (h : ∀ child ∈ body, P child) :
    P (.flat (leading ++ ofToken opener :: body ++ [ofToken closer]))
  barGroup (bar : Token) (can : usable bar) (category : bar.category = .bar)
    (body : List Formula) (h : ∀ child ∈ body, P child) :
    P (.flat (.leaf ("\\left" ++ bar.template) bar.value :: body ++
      [.leaf ("\\right" ++ bar.template) bar.value]))
  matrix (grid : Matrix Formula) (delimited : Delimits usable grid.left grid.right)
    (ruled : grid.Ruled) (h : ∀ row ∈ grid.rows, ∀ cell ∈ row, P cell) : P (.matrix grid)

namespace Closed

variable {usable : Token → Prop} {P : Formula → Prop} (closed : Closed usable P)

include closed

theorem ofList (children : List Formula) (h : ∀ child ∈ children, P child) :
    P (.ofList children) :=
  match children with
  | [] => closed.empty
  | [child] => h child (by simp)
  | first :: second :: others => closed.flat (first :: second :: others) h

theorem stripBrackets {formula : Formula} (h : P formula) : P formula.stripBrackets := by
  rw [Formula.stripBrackets]
  split
  · next body grouped => exact closed.ofList body (closed.body formula body h grouped)
  · exact h

theorem withScript {base argument : Formula} (script : Token) (can : usable script)
    (category : script.category = .script) (hbase : P base) (hargument : P argument) :
    P (Formula.withScript base script argument) := by
  have hscript := closed.unary script can (by simp [category]) argument hargument
  exact closed.flat _ (by simp [hbase, hscript])

theorem numerator {operator function : Formula} (hoperator : P operator) {order : List Formula}
    (horder : ∀ child ∈ order, P child) (hfunction : P function) :
    P (.flat (operator :: order ++ [function])) := by
  have hfirst := List.forall_mem_cons.2 ⟨hoperator, horder⟩
  exact closed.flat _ (List.forall_mem_append.2 ⟨hfirst, List.forall_mem_singleton.2 hfunction⟩)

theorem denominator {operator : Formula} (hoperator : P operator) {order terms : List Formula}
    (horder : ∀ child ∈ order, P child) (hterms : ∀ child ∈ terms, P child) :
    P (Formula.denominator operator order terms) := by
  rw [Formula.denominator]
  split
  · refine closed.flat _ fun child hchild ↦ ?_
    obtain ⟨term, hterm, hchild⟩ := List.mem_flatMap.1 hchild
    have hpair : ∀ child ∈ [operator, term], P child := by simp [hoperator, hterms term hterm]
    exact hpair child hchild
  · have hfirst := List.forall_mem_cons.2 ⟨hoperator, hterms⟩
    exact closed.flat _ (List.forall_mem_append.2 ⟨hfirst, horder⟩)

/-- The matrix of what is read in a region with a row separator. -/
theorem matrix_of_pieces {leading : List Formula} {pieces : List GridPiece} {left right : String}
    {alignment : Alignment} {grid : Matrix Formula} (delimited : Delimits usable left right)
    (hleading : ∀ formula ∈ leading, P formula)
    (hpieces : ∀ formula, GridPiece.formula formula ∈ pieces → P formula) (begun : pieces ≠ [])
    (fits : (Grid.ofPieces [] leading pieces).toMatrix left right alignment = some grid) :
    P (.matrix grid) := by
  have ruled := Grid.ruled_of_toMatrix (.inr (.inr begun)) fits
  obtain rfl := Matrix.ofRows?_eq_some fits
  exact closed.matrix _ delimited ruled
    (Grid.forall_cell_ofPieces closed.ofList (by simp) hleading hpieces)

end Closed

/-- What a judgment finds has a property, if what it starts from has it. -/
abbrev Judgment.Keeps (usable : Token → Prop) (P : Formula → Prop) : Judgment → Prop
  | alone _ _ found _ | whole _ _ found _ | operand _ _ found _ => P found
  | scripts _ _ base _ found _ | followers _ _ base _ found _ => P base → P found
  | brackets _ leading opener _ found _ =>
    Leads usable leading → usable opener → opener.category = .opener → P found
  | sequence _ _ found | order _ _ found _ | terms _ _ found _ => ∀ child ∈ found, P child
  | pieces _ _ _ _ found => ∀ formula, .formula formula ∈ found → P formula

theorem endsCell_ne_formula {ruled cellBegun : Bool} {token : Token} {formula : Formula} :
    endsCell ruled cellBegun token ≠ some (.formula formula) := by
  rw [endsCell]
  split
  · split <;> simp
  · split <;> simp

theorem Reads.pieces_ne_nil {levels : Nat} {ruled cellBegun : Bool} {tokens : List Placed}
    {found : List GridPiece} (h : Reads (.pieces levels ruled cellBegun tokens found))
    (htokens : tokens ≠ []) : found ≠ [] := by
  cases h with
  | piecesEnd => exact absurd rfl htokens
  | pieceMark | pieceFormula => simp

theorem Reads.keeps {usable : Token → Prop} {P : Formula → Prop} (closed : Closed usable P)
    {judgment : Judgment} (h : Reads judgment)
    (can : ∀ placed ∈ judgment.tokens, usable placed.token) : judgment.Keeps usable P := by
  induction h with
  | leaf category =>
    obtain ⟨here, -⟩ := List.forall_mem_cons.1 can
    exact closed.leaf _ here (.inl category)
  | ruledRegion category flag opens _ ih =>
    obtain ⟨here, can⟩ := List.forall_mem_cons.1 can
    obtain ⟨open', can⟩ := List.forall_mem_cons.1 can
    exact ih can (.rule _ here category flag) open' opens
  | bracketRegion category _ ih =>
    obtain ⟨here, can⟩ := List.forall_mem_cons.1 can
    exact ih can .nothing here category
  | loneBar category =>
    obtain ⟨here, -⟩ := List.forall_mem_cons.1 can
    exact closed.loneBar _ here category
  | barGroup category matched _ ih =>
    obtain ⟨here, can⟩ := List.forall_mem_cons.1 can
    obtain ⟨rfl, -⟩ := Region.ofBars?_eq_some matched
    exact closed.barGroup _ here category _ (ih (List.forall_mem_append.1 can).1)
  | barGrid category matched rows reads fits ih =>
    obtain ⟨here, can⟩ := List.forall_mem_cons.1 can
    obtain ⟨rfl, -⟩ := Region.ofBars?_eq_some matched
    exact closed.matrix_of_pieces (.bars _ here category) (by simp)
      (ih (List.forall_mem_append.1 can).1)
      (reads.pieces_ne_nil (Region.ne_nil_of_hasRows rows)) fits
  | prefixed category _ ih =>
    obtain ⟨here, can⟩ := List.forall_mem_cons.1 can
    exact closed.unary _ here (category.elim (Placed.category_mem · (by decide))
      (Placed.category_mem · (by decide))) _ (closed.stripBrackets (ih can))
  | prefixedPair category reads _ ihFirst ihSecond =>
    obtain ⟨here, can⟩ := List.forall_mem_cons.1 can
    have hsecond := closed.stripBrackets (ihSecond (reads.proceeds.forall_mem can))
    exact closed.binary _ here (Placed.category_mem category (by decide)) _ _
      (closed.stripBrackets (ihFirst can)) hsecond
  | leadingSign category _ _ ih =>
    obtain ⟨here, can⟩ := List.forall_mem_cons.1 can
    have hsign := closed.leaf _ here (.inr (Placed.category_mem category (by decide)))
    exact closed.flat _ (by simp [hsign, ih can])
  | sign category =>
    obtain ⟨here, -⟩ := List.forall_mem_cons.1 can
    exact closed.leaf _ here (.inr (Placed.category_mem category (by decide)))
  | unscripted category =>
    obtain ⟨here, -⟩ := List.forall_mem_cons.1 can
    have hbinary := closed.binary _ here (Placed.category_mem category (by decide))
    exact hbinary _ _ closed.empty closed.empty
  | scriptedOnce category _ _ _ ih =>
    obtain ⟨here, can⟩ := List.forall_mem_cons.1 can
    have hfirst := closed.stripBrackets (ih (List.forall_mem_cons.1 can).2)
    have hbinary := closed.binary _ here (Placed.category_mem category (by decide))
    split
    · exact hbinary _ _ hfirst closed.empty
    · exact hbinary _ _ closed.empty hfirst
  | scriptedTwice category _ reads _ _ _ ihFirst ihSecond =>
    obtain ⟨here, can⟩ := List.forall_mem_cons.1 can
    have can := (List.forall_mem_cons.1 can).2
    have hfirst := closed.stripBrackets (ihFirst can)
    have hsecond := closed.stripBrackets
      (ihSecond (List.forall_mem_cons.1 (reads.proceeds.forall_mem can)).2)
    have hbinary := closed.binary _ here (Placed.category_mem category (by decide))
    split
    · exact hbinary _ _ hfirst hsecond
    · exact hbinary _ _ hsecond hfirst
  | derivativeBare category readsOrder _ _ ihOrder ihFunction =>
    obtain ⟨here, can⟩ := List.forall_mem_cons.1 can
    have hoperator := closed.leaf _ here (.inr (Placed.category_mem category (by decide)))
    have hfunction := closed.stripBrackets (ihFunction (readsOrder.proceeds.forall_mem can))
    exact closed.fraction _ _ (closed.numerator hoperator (ihOrder can) hfunction) closed.empty
  | derivativeBy category readsOrder readsFunction _ _ ihOrder ihFunction ihTerms =>
    obtain ⟨here, can⟩ := List.forall_mem_cons.1 can
    have hoperator := closed.leaf _ here (.inr (Placed.category_mem category (by decide)))
    have canFunction := readsOrder.proceeds.forall_mem can
    have hfunction := closed.stripBrackets (ihFunction canFunction)
    have hterms := ihTerms (readsFunction.proceeds.forall_mem canFunction)
    exact closed.fraction _ _ (closed.numerator hoperator (ihOrder can) hfunction)
      (closed.denominator hoperator (ihOrder can) hterms)
  | mark category =>
    obtain ⟨here, -⟩ := List.forall_mem_cons.1 can
    exact closed.leaf _ here (.inr (category.elim (Placed.category_mem · (by decide))
      (Placed.category_mem · (by decide))))
  | strayCloser category =>
    obtain ⟨here, -⟩ := List.forall_mem_cons.1 can
    exact closed.strayCloser _ here category
  | strayOperator category =>
    obtain ⟨here, -⟩ := List.forall_mem_cons.1 can
    exact closed.strayOperator _ here category
  | whole reads _ ih ihFollows => exact ihFollows (reads.proceeds.takes.forall_mem can) (ih can)
  | missing => exact closed.empty
  | present _ _ ih => exact ih can
  | scriptsEnd => exact id
  | scriptsStep category reads _ ih ihMore =>
    obtain ⟨here, can⟩ := List.forall_mem_cons.1 can
    intro hbase
    exact ihMore (reads.proceeds.forall_mem can)
      (closed.withScript _ here category hbase (closed.stripBrackets (ih can)))
  | followersEnd => exact id
  | scriptFollows category reads _ ih ihMore =>
    obtain ⟨here, can⟩ := List.forall_mem_cons.1 can
    intro hbase
    exact ihMore (reads.proceeds.forall_mem can)
      (closed.withScript _ here category hbase (closed.stripBrackets (ih can)))
  | infixFollows category reads readsScripts _ ih ihScripts ihMore =>
    obtain ⟨here, can⟩ := List.forall_mem_cons.1 can
    have canScripts := reads.proceeds.forall_mem can
    have hsecond := closed.stripBrackets (ihScripts canScripts (ih can))
    have hbinary := closed.binary _ here (Placed.category_mem category (by decide))
    intro hbase
    exact ihMore (readsScripts.proceeds.forall_mem canScripts)
      (hbinary _ _ (closed.stripBrackets hbase) hsecond)
  | postfixFollows category _ ihMore =>
    obtain ⟨here, can⟩ := List.forall_mem_cons.1 can
    intro hbase
    exact ihMore can (closed.unary _ here (Placed.category_mem category (by decide)) _ hbase)
  | unclosed _ _ ih =>
    intro leads canOpen opens
    exact closed.unclosed _ leads _ canOpen opens _ (ih can)
  | group matched _ _ ih =>
    intro leads canOpen opens
    obtain ⟨rfl, closes, -⟩ := Region.ofBrackets?_eq_some matched
    obtain ⟨inside, can⟩ := List.forall_mem_append.1 can
    have canClose := (List.forall_mem_cons.1 can).1
    exact closed.group _ leads _ _ canOpen canClose opens closes _ (ih inside)
  | grid matched rows reads fits ih =>
    intro leads canOpen opens
    obtain ⟨rfl, closes, -⟩ := Region.ofBrackets?_eq_some matched
    obtain ⟨inside, can⟩ := List.forall_mem_append.1 can
    have canClose := (List.forall_mem_cons.1 can).1
    have hleading := leads.forall_mem fun token can category ↦ closed.leaf token can (.inl category)
    exact closed.matrix_of_pieces (.brackets _ _ canOpen canClose opens closes) hleading (ih inside)
      (reads.pieces_ne_nil (Region.ne_nil_of_hasRows rows)) fits
  | sequenceEnd => exact List.forall_mem_nil _
  | sequenceStep reads _ ih ihMore =>
    exact List.forall_mem_cons.2 ⟨ih can, ihMore (reads.proceeds.takes.forall_mem can)⟩
  | piecesEnd => exact fun formula hformula ↦ absurd hformula List.not_mem_nil
  | pieceMark ends _ ih =>
    intro formula hformula
    rcases List.mem_cons.1 hformula with rfl | hformula
    · exact absurd ends endsCell_ne_formula
    · exact ih (List.forall_mem_cons.1 can).2 formula hformula
  | pieceFormula _ reads _ ih ihMore =>
    intro formula hformula
    rcases List.mem_cons.1 hformula with hfirst | hformula
    · obtain rfl := GridPiece.formula.inj hfirst
      exact ih can
    · exact ihMore (reads.proceeds.takes.forall_mem can) formula hformula
  | noOrder => exact List.forall_mem_nil _
  | withOrder category _ _ ih =>
    obtain ⟨here, can⟩ := List.forall_mem_cons.1 can
    have hunary := closed.unary _ here (Placed.category_mem category (by decide))
    exact List.forall_mem_singleton.2 (hunary _ (closed.stripBrackets (ih can)))
  | groupTerms _ grouped ih => exact closed.body _ _ (ih can) grouped
  | singleTerm reads _ _ ih ihScripts =>
    exact List.forall_mem_singleton.2 (ihScripts (reads.proceeds.takes.forall_mem can) (ih can))

end Formula

end AsciiMath
