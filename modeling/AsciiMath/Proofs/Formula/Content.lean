import AsciiMath.Proofs.Formula.Outcome

/-!
# What a formula contains

The leaves of a formula are read from left to right, those of a matrix row by row. Brackets, bars,
separators and operators may be written otherwise or not at all, but each token that is written as
it stands becomes one leaf, with its TeX. Only the scripts of an operator over and under which they
are written can change their order.
-/

namespace AsciiMath

/-- Two lists with the same members as often, and in the same order if this is asked for. -/
structure Agree {α : Type} (ordered : Prop) (first second : List α) : Prop where
  perm : first.Perm second
  eq : ordered → first = second

namespace Agree

variable {α : Type} {ordered : Prop} {first second third fourth : List α}

theorem of_eq (h : first = second) : Agree ordered first second := ⟨.of_eq h, fun _ ↦ h⟩

theorem trans (h : Agree ordered first second) (more : Agree ordered second third) :
    Agree ordered first third :=
  ⟨h.perm.trans more.perm, fun strict ↦ (h.eq strict).trans (more.eq strict)⟩

theorem append (h : Agree ordered first second) (more : Agree ordered third fourth) :
    Agree ordered (first ++ third) (second ++ fourth) :=
  ⟨h.perm.append more.perm, fun strict ↦ by rw [h.eq strict, more.eq strict]⟩

theorem append_left (front : List α) (h : Agree ordered first second) :
    Agree ordered (front ++ first) (front ++ second) := append (of_eq rfl) h

theorem append_right (h : Agree ordered first second) (back : List α) :
    Agree ordered (first ++ back) (second ++ back) := append h (of_eq rfl)

end Agree

namespace Formula

mutual

/-- The TeX and the source of every leaf. -/
def leaves : Formula → List (String × String)
  | .leaf template source => [(template, source)]
  | .flat children | .root children => leavesOfList children
  | .unary _ argument => leaves argument
  | .binary _ first second => leaves first ++ leaves second
  | .matrix grid => leavesOfRows grid.rows
termination_by structural formula => formula

def leavesOfList : List Formula → List (String × String)
  | [] => []
  | child :: children => leaves child ++ leavesOfList children
termination_by structural children => children

def leavesOfRows : List (List Formula) → List (String × String)
  | [] => []
  | row :: rows => leavesOfList row ++ leavesOfRows rows
termination_by structural rows => rows

end

@[simp] theorem leavesOfList_eq_flatMap (children : List Formula) :
    leavesOfList children = children.flatMap leaves := by
  induction children with
  | nil => rfl
  | cons child children ih => rw [leavesOfList, ih, List.flatMap_cons]

@[simp] theorem leavesOfRows_eq_flatMap (rows : List (List Formula)) :
    leavesOfRows rows = rows.flatMap (·.flatMap leaves) := by
  induction rows with
  | nil => rfl
  | cons row rows ih => rw [leavesOfRows, ih, leavesOfList_eq_flatMap, List.flatMap_cons]

section Content

variable (V : String → Prop) [DecidablePred V]

/-- The leaves whose source is looked for. -/
def content (formula : Formula) : List (String × String) :=
  formula.leaves.filter fun leaf ↦ V leaf.2

def contentOfList (children : List Formula) : List (String × String) :=
  children.flatMap (content V)

/-- The tokens whose value is looked for, with their TeX. -/
def contentOfTokens (tokens : List Token) : List (String × String) :=
  (tokens.filter fun token ↦ V token.value).map fun token ↦ (token.template, token.value)

def given (tokens : List Placed) : List (String × String) :=
  (tokens.filter fun placed ↦ V placed.token.value).map fun placed ↦
    (placed.token.template, placed.token.value)

theorem content_leaf (template source : String) :
    content V (.leaf template source) = if V source then [(template, source)] else [] := by
  simp [content, leaves, List.filter_singleton]

@[simp] theorem content_flat (children : List Formula) :
    content V (.flat children) = contentOfList V children := by
  simp only [content, leaves, leavesOfList_eq_flatMap, List.filter_flatMap]
  rfl

@[simp] theorem content_root (children : List Formula) :
    content V (.root children) = contentOfList V children := by
  simp only [content, leaves, leavesOfList_eq_flatMap, List.filter_flatMap]
  rfl

@[simp] theorem content_unary (template : String) (argument : Formula) :
    content V (.unary template argument) = content V argument := rfl

@[simp] theorem content_binary (template : String) (first second : Formula) :
    content V (.binary template first second) = content V first ++ content V second :=
  List.filter_append ..

@[simp] theorem content_matrix (grid : Matrix Formula) :
    content V (.matrix grid) = grid.rows.flatMap (contentOfList V) := by
  simp only [content, leaves, leavesOfRows_eq_flatMap, List.filter_flatMap]
  rfl

@[simp] theorem contentOfList_nil : contentOfList V [] = [] := rfl

@[simp] theorem contentOfList_cons (child : Formula) (children : List Formula) :
    contentOfList V (child :: children) = content V child ++ contentOfList V children :=
  List.flatMap_cons

@[simp] theorem contentOfList_append (front back : List Formula) :
    contentOfList V (front ++ back) = contentOfList V front ++ contentOfList V back :=
  List.flatMap_append

@[simp] theorem given_nil : given V [] = [] := rfl

@[simp] theorem given_append (front back : List Placed) :
    given V (front ++ back) = given V front ++ given V back := by
  rw [given, List.filter_append, List.map_append]
  rfl

theorem given_cons (placed : Placed) (tokens : List Placed) :
    given V (placed :: tokens) = content V (ofToken placed.token) ++ given V tokens := by
  rw [ofToken, content_leaf, given, List.filter_cons]
  split
  · simp_all [given]
  · simp_all [given]

/-- What the formulas between the marks of a grid contain. -/
def contentOfPieces : List GridPiece → List (String × String)
  | [] => []
  | .formula formula :: pieces => content V formula ++ contentOfPieces pieces
  | _ :: pieces => contentOfPieces pieces

end Content

section Reading

variable {V : String → Prop} [DecidablePred V] {ordered : Prop}

theorem content_leaf_eq_nil {template source : String} (h : ¬ V source) :
    content V (.leaf template source) = [] := by
  rw [content_leaf, if_neg h]

theorem content_ofList (absent : ¬ V "") (children : List Formula) :
    content V (.ofList children) = contentOfList V children := by
  match children with
  | [] => exact content_leaf_eq_nil absent
  | [child] => simp [ofList]
  | first :: second :: others => exact content_flat V _

/-- Brackets that an operand loses are not looked for. -/
def Strips (V : String → Prop) [DecidablePred V] (formula : Formula) : Prop :=
  content V formula.stripBrackets = content V formula

theorem strips_of_groupBody?_eq_none {formula : Formula} (h : formula.groupBody? = none) :
    Strips V formula := by
  rw [Strips, stripBrackets, h]

theorem strips_of_ends (absent : ¬ V "") {first last : Formula} {body : List Formula}
    (hfirst : content V first = []) (hlast : content V last = []) :
    Strips V (.flat (first :: body ++ [last])) := by
  rw [Strips, stripBrackets]
  split
  · next inside grouped =>
    obtain ⟨first', last', hchildren, -, -⟩ := groupBody?_eq_some grouped
    have hbody : body = inside := by
      simpa using congrArg (·.tail.dropLast) (Formula.flat.inj hchildren)
    rw [content_ofList absent, ← hbody]
    simp [hfirst, hlast]
  · rfl

theorem strips_of_first {first : Formula} (h : ¬ first.isLeafFrom groupOpeners)
    {others : List Formula} : Strips V (.flat (first :: others)) :=
  strips_of_groupBody?_eq_none (by simp [groupBody?, h])

/-- What the tokens have to be like: what is looked for is written as it stands, no derivative
repeats its operator, and nothing else that a row can begin with looks like a bracket. -/
structure Fits (V : String → Prop) (ordered : Prop) (token : Token) : Prop where
  leaf : V token.value → token.category.isLeaf
  derivative : token.category ≠ .derivative
  plain : token.category = .sign ∨ token.flag = some .rowRule → token.value ∉ groupOpeners
  scripts : ordered → token.category ≠ .optionalScripts

omit [DecidablePred V] in
theorem Fits.not_mem {token : Token} (fits : Fits V ordered token) {category : Category}
    (hcategory : token.category = category) (other : category.isLeaf = false) :
    ¬ V token.value := by
  intro h
  have leaf := fits.leaf h
  rw [hcategory, other] at leaf
  exact Bool.false_ne_true leaf

omit [DecidablePred V] in
theorem Fits.not_opener {token : Token} (fits : Fits V ordered token)
    (h : token.category = .sign ∨ token.flag = some .rowRule) :
    ¬ (ofToken token).isLeafFrom groupOpeners := by
  simpa [ofToken, isLeafFrom] using fits.plain h

theorem content_ofToken_eq_nil {token : Token} (fits : Fits V ordered token) {category : Category}
    (hcategory : token.category = category) (other : category.isLeaf = false) :
    content V (ofToken token) = [] := content_leaf_eq_nil (fits.not_mem hcategory other)

theorem given_cons_eq {placed : Placed} (fits : Fits V ordered placed.token) {category : Category}
    (hcategory : placed.category = category) (other : category.isLeaf = false)
    (tokens : List Placed) : given V (placed :: tokens) = given V tokens := by
  rw [given_cons, content_ofToken_eq_nil fits hcategory other, List.nil_append]

theorem contentOfList_endRow (absent : ¬ V "") (row cell : List Formula) :
    contentOfList V (Grid.endRow row cell) = contentOfList V row ++ contentOfList V cell := by
  rw [Grid.endRow]
  split
  · next empty => simp [List.isEmpty_iff.1 empty]
  · simp [content_ofList absent]

/-- The cells that are dropped are empty. -/
theorem content_ofPieces (absent : ¬ V "") (row cell : List Formula) (pieces : List GridPiece) :
    (Grid.ofPieces row cell pieces).rows.flatMap (contentOfList V) =
      contentOfList V row ++ contentOfList V cell ++ contentOfPieces V pieces := by
  induction pieces generalizing row cell with
  | nil =>
    have hlast := contentOfList_endRow absent row cell
    simp only [Grid.ofPieces, contentOfPieces, List.append_nil]
    rw [← hlast]
    split
    · next empty => simp [List.isEmpty_iff.1 empty]
    · simp
  | cons piece pieces ih =>
    cases piece with
    | formula formula => simp [Grid.ofPieces, contentOfPieces, ih]
    | cellEnd | rule => simp [Grid.ofPieces, contentOfPieces, ih, content_ofList absent]
    | rowEnd => simp [Grid.ofPieces, contentOfPieces, ih, contentOfList_endRow absent]

theorem content_toMatrix (absent : ¬ V "") {leading : List Formula} {pieces : List GridPiece}
    {left right : String} {alignment : Alignment} {grid : Matrix Formula}
    (fits : (Grid.ofPieces [] leading pieces).toMatrix left right alignment = some grid) :
    content V (.matrix grid) = contentOfList V leading ++ contentOfPieces V pieces := by
  obtain rfl := Matrix.ofRows?_eq_some fits
  rw [content_matrix]
  exact content_ofPieces absent [] leading pieces

end Reading

end Formula

end AsciiMath
