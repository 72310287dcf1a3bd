import AsciiMath.Proofs.Formula.Outcome
import AsciiMath.Proofs.Tex.Compose
import Mathlib.Algebra.GroupWithZero.Nat

/-!
# Columns and entries

A matrix declares a column for each cell of its widest row, and a row is written with one alignment
point between two cells. So no row has more entries than there are columns, unless a cell writes
alignment points of its own. Operators write none if their keywords have none, which leaves the
leaves and the inner matrices of the cell.
-/

namespace AsciiMath

namespace Matrix

variable {α : Type}

theorem count_specAt (matrix : Matrix α) (boundary : Nat) :
    (matrix.specAt boundary).count matrix.alignment.letter =
      if boundary < matrix.columnCount then 1 else 0 := by
  have bar : '|' ≠ matrix.alignment.letter := by cases matrix.alignment <;> decide
  rw [specAt, List.count_append]
  split <;> split <;> simp [bar]

/-- The specification has a letter for each column. -/
theorem count_columnSpec (matrix : Matrix α) :
    matrix.columnSpec.toList.count matrix.alignment.letter = matrix.columnCount := by
  have column : (List.range matrix.columnCount).map
      (fun boundary ↦ (matrix.specAt boundary).count matrix.alignment.letter) =
      List.replicate matrix.columnCount 1 := by
    refine List.eq_replicate_iff.2 ⟨by simp, List.forall_mem_map.2 fun boundary mem ↦ ?_⟩
    rw [count_specAt, if_pos (List.mem_range.1 mem)]
  rw [columnSpec, String.toList_ofList, List.range_succ, List.flatMap_append, List.count_append,
    List.count_flatMap, List.flatMap_singleton, count_specAt, if_neg (Nat.lt_irrefl _)]
  simpa [Function.comp_def] using congrArg List.sum column

end Matrix

namespace Tex

theorem count_intercalate (separator : String) (c : Char) (part : String) (parts : List String) :
    (separator.intercalate (part :: parts)).toList.count c =
      parts.length * separator.toList.count c +
        ((part :: parts).map (·.toList.count c)).sum := by
  rw [String.toList_intercalate]
  induction parts generalizing part with
  | nil => simp
  | cons next parts ih =>
    rw [List.map_cons, List.map_cons, List.intercalate_cons_cons, List.count_append,
      List.count_append, ← List.map_cons, ih]
    simp only [List.length_cons, List.map_cons, List.sum_cons, Nat.succ_mul]
    omega

theorem count_intercalate_of_not_mem (separator : String) {c : Char} {part : String}
    {parts : List String} (h : ∀ other ∈ part :: parts, c ∉ other.toList) :
    (separator.intercalate (part :: parts)).toList.count c =
      parts.length * separator.toList.count c := by
  have none : ((part :: parts).map (·.toList.count c)).sum = 0 :=
    List.sum_eq_zero_iff_forall_eq_nat.2 (List.forall_mem_map.2 fun other mem ↦
      List.count_eq_zero_of_not_mem (h other mem))
  rw [count_intercalate, none, Nat.add_zero]

theorem not_mem_intercalate {separator : String} {c : Char} {parts : List String}
    (hseparator : c ∉ separator.toList) (h : ∀ part ∈ parts, c ∉ part.toList) :
    c ∉ (separator.intercalate parts).toList := by
  cases parts with
  | nil => simp
  | cons part parts =>
    rw [← List.count_eq_zero, count_intercalate_of_not_mem separator h,
      List.count_eq_zero_of_not_mem hseparator, Nat.mul_zero]

theorem not_mem_joinShown {c : Char} {parts : List String} (hc : c ≠ ' ')
    (h : ∀ part ∈ parts, c ∉ part.toList) : c ∉ (Formula.joinShown parts).toList :=
  not_mem_intercalate (by simpa using hc) fun part mem ↦ h part (List.mem_filter.1 mem).1

open Template in
theorem not_mem_fill {arguments : List (List Char)} {template : List Char} {c : Char}
    (hc : c ∉ template) (h : ∀ argument ∈ arguments, c ∉ argument) :
    c ∉ fill arguments template := by
  induction template using fill.induct arguments with
  | case1 => exact List.not_mem_nil
  | case2 => exact hc
  | case3 d template argument hargument ih =>
    rw [List.mem_cons, List.mem_cons, not_or, not_or] at hc
    rw [fill_place hargument, List.mem_append, not_or]
    exact ⟨h argument (mem_of_argument? hargument), ih hc.2.2⟩
  | case4 d template hnone ih =>
    rw [fill_char (by simp [hnone])]
    rw [List.mem_cons, not_or] at hc ⊢
    exact ⟨hc.1, ih hc.2⟩
  | case5 other d template plain ih =>
    rw [fill_char fun place ↦ plain place.1]
    rw [List.mem_cons, not_or] at hc ⊢
    exact ⟨hc.1, ih hc.2⟩

theorem not_mem_apply {template : String} {arguments : List String} {c : Char}
    (hc : c ∉ template.toList) (h : ∀ argument ∈ arguments, c ∉ argument.toList) :
    c ∉ (Template.apply template arguments).toList := by
  rw [Template.apply, String.toList_ofList]
  exact not_mem_fill hc (List.forall_mem_map.2 h)

end Tex

namespace Formula

/-- No operator of a formula is written with a `&`, and only some of its leaves are. -/
inductive Points (marks : Formula → Prop) : Formula → Prop where
  | leaf {template source : String} (h : '&' ∈ template.toList → marks (.leaf template source)) :
      Points marks (.leaf template source)
  | flat {children : List Formula} (h : ∀ child ∈ children, Points marks child) :
      Points marks (.flat children)
  | unary {template : String} {argument : Formula} (plain : '&' ∉ template.toList)
      (h : Points marks argument) : Points marks (.unary template argument)
  | binary {template : String} {first second : Formula} (plain : '&' ∉ template.toList)
      (hfirst : Points marks first) (hsecond : Points marks second) :
      Points marks (.binary template first second)
  | matrix {grid : Matrix Formula} (h : ∀ row ∈ grid.rows, ∀ cell ∈ row, Points marks cell) :
      Points marks (.matrix grid)

variable {marks : Formula → Prop}

theorem points_flat {children : List Formula} (h : Points marks (.flat children)) :
    ∀ child ∈ children, Points marks child := by
  cases h with
  | flat h => exact h

theorem points_matrix {grid : Matrix Formula} (h : Points marks (.matrix grid)) :
    ∀ row ∈ grid.rows, ∀ cell ∈ row, Points marks cell := by
  cases h with
  | matrix h => exact h

theorem points_plain {template source : String} (h : '&' ∉ template.toList) :
    Points marks (.leaf template source) := .leaf fun mem ↦ absurd mem h

theorem points_append {front back source : String} (hfront : '&' ∉ front.toList)
    (hback : '&' ∉ back.toList) : Points marks (.leaf (front ++ back) source) := by
  refine points_plain ?_
  rw [String.toList_append, List.mem_append, not_or]
  exact ⟨hfront, hback⟩

/-- Alignment points with a `&` are among the leaves, and no other token has one. -/
def Told (marks : Formula → Prop) (token : Token) : Prop :=
  if token.category = .alignMark then '&' ∈ token.template.toList → marks (ofToken token)
  else '&' ∉ token.template.toList ∧ '&' ∉ token.value.toList

theorem Told.plain {token : Token} (told : Told marks token)
    (category : token.category ≠ .alignMark) :
    '&' ∉ token.template.toList ∧ '&' ∉ token.value.toList := by
  rwa [Told, if_neg category] at told

theorem Told.points {token : Token} (told : Told marks token) : Points marks (ofToken token) := by
  rw [Told] at told
  split at told
  · exact .leaf told
  · exact points_plain told.1

theorem Told.barRelation {token : Token} (told : Told marks token)
    (category : token.category = .bar) :
    Points marks (.leaf (Formula.barRelation token) token.value) := by
  refine points_plain ?_
  rw [Formula.barRelation]
  split
  · decide
  · split
    · decide
    · exact (told.plain (by simp [category])).1

theorem closed_points : Closed (Told marks) (Points marks) where
  empty := points_plain (by decide)
  leaf _ told _ := told.points
  strayCloser _ told category :=
    points_append (by decide) (told.plain (by simp [category])).1
  strayOperator _ told category :=
    points_plain (told.plain (by rcases category with h | h <;> simp [h])).2
  loneBar _ told category := told.barRelation category
  unary _ told category _ h :=
    .unary (told.plain fun marks ↦ by simp [marks] at category).1 h
  binary _ told category _ _ hfirst hsecond :=
    .binary (told.plain fun marks ↦ by simp [marks] at category).1 hfirst hsecond
  fraction _ _ hnumerator hdenominator := .binary (by decide) hnumerator hdenominator
  flat _ h := .flat h
  body formula body h grouped := by
    obtain ⟨first, last, rfl, -, -⟩ := groupBody?_eq_some grouped
    exact fun child mem ↦ points_flat h child (by simp [mem])
  unclosed _ leads _ told _ _ h :=
    .flat (forall_mem_group (leads.forall_mem fun _ told _ ↦ told.points) told.points h
      (points_plain (by decide)))
  group _ leads _ _ told told' _ _ _ h :=
    .flat (forall_mem_group (leads.forall_mem fun _ told _ ↦ told.points) told.points h
      told'.points)
  barGroup _ told category _ h := by
    have plain := (told.plain (by simp [category])).1
    exact .flat (@forall_mem_group _ [] _ _ _ (List.forall_mem_nil _)
      (points_append (by decide) plain) h (points_append (by decide) plain))
  matrix _ _ _ h := .matrix h

theorem Points.occurs {part formula : Formula} (h : Points marks formula)
    (occurs : Occurs part formula) : Points marks part := by
  induction occurs with
  | here => exact h
  | flat mem _ ih => exact ih (points_flat h _ mem)
  | root => cases h
  | argument _ ih =>
    cases h with
    | unary _ h => exact ih h
  | first _ ih =>
    cases h with
    | binary _ h _ => exact ih h
  | second _ ih =>
    cases h with
    | binary _ _ h => exact ih h
  | cell memRow mem _ ih => exact ih (points_matrix h _ memRow _ mem)

/-- What has neither such a leaf nor a matrix writes no `&`. -/
theorem Points.not_mem_tex {formula : Formula} (h : Points marks formula)
    (unmarked : ∀ mark, marks mark → ¬ Occurs mark formula)
    (innermost : ∀ grid, ¬ Occurs (.matrix grid) formula) : '&' ∉ formula.tex.toList := by
  induction h with
  | leaf h => exact fun mem ↦ unmarked _ (h mem) .here
  | flat _ ih =>
    rw [tex, texOfList_eq_map]
    refine Tex.not_mem_joinShown (by decide) (List.forall_mem_map.2 fun child mem ↦ ?_)
    exact ih child mem (fun mark hmark inside ↦ unmarked mark hmark (.flat mem inside))
      fun grid inside ↦ innermost grid (.flat mem inside)
  | unary plain _ ih =>
    rw [tex]
    refine Tex.not_mem_apply plain (List.forall_mem_singleton.2 ?_)
    exact ih (fun mark hmark inside ↦ unmarked mark hmark (.argument inside))
      fun grid inside ↦ innermost grid (.argument inside)
  | binary plain _ _ ihFirst ihSecond =>
    rw [tex]
    refine Tex.not_mem_apply plain (List.forall_mem_cons.2 ⟨?_, List.forall_mem_singleton.2 ?_⟩)
    · exact ihFirst (fun mark hmark inside ↦ unmarked mark hmark (.first inside))
        fun grid inside ↦ innermost grid (.first inside)
    · exact ihSecond (fun mark hmark inside ↦ unmarked mark hmark (.second inside))
        fun grid inside ↦ innermost grid (.second inside)
  | matrix => exact absurd .here (innermost _)

/-- How many entries alignment points make of a line. -/
def entries (line : String) : Nat := line.toList.count '&' + 1

/-- A row has no more entries than columns are declared, but for the alignment points that its cells
write. -/
theorem entries_le {grid : Matrix Formula} {row : List Formula} (mem : row ∈ grid.rows) :
    entries (" & ".intercalate (row.map tex)) ≤
      max 1 (grid.columnSpec.toList.count grid.alignment.letter) +
        (row.map (·.tex.toList.count '&')).sum := by
  have declared : row.length ≤ grid.columnSpec.toList.count grid.alignment.letter := by
    rw [Matrix.count_columnSpec]
    exact Matrix.length_le_widest mem
  cases row with
  | nil => exact Nat.le_add_right_of_le (Nat.le_max_left _ _)
  | cons cell cells =>
    have between : " & ".toList.count '&' = 1 := by decide
    rw [entries, List.map_cons, Tex.count_intercalate, between, List.length_map, ← List.map_cons,
      List.map_map]
    rw [List.length_cons] at declared
    simp only [Function.comp_def]
    omega

/-- If only alignment points have a `&`, the declared columns of a matrix cover what is written in
its rows, unless an alignment point or another matrix stands in a cell. -/
theorem entries_le_columns {tokens : List Token} {formula : Formula}
    (read : ofTokens tokens = .ok formula)
    (plain : ∀ token ∈ tokens, token.category ≠ .alignMark →
      '&' ∉ token.template.toList ∧ '&' ∉ token.value.toList)
    {grid : Matrix Formula} (occurs : Occurs (.matrix grid) formula)
    (innermost : ∀ row ∈ grid.rows, ∀ cell ∈ row, ∀ inner, ¬ Occurs (.matrix inner) cell)
    (unmarked : ∀ row ∈ grid.rows, ∀ cell ∈ row, ∀ mark ∈ tokens, mark.category = .alignMark →
      '&' ∈ mark.template.toList → ¬ Occurs (ofToken mark) cell) :
    ∀ row ∈ grid.rows, entries (" & ".intercalate (row.map tex)) ≤
      max 1 (grid.columnSpec.toList.count grid.alignment.letter) := by
  obtain ⟨children, rfl, reads⟩ := reads_of_ofTokens read
  let marks (found : Formula) : Prop :=
    ∃ mark ∈ tokens, mark.category = .alignMark ∧ '&' ∈ mark.template.toList ∧
      found = ofToken mark
  have told : ∀ placed ∈ Placed.ofTokens tokens, Told marks placed.token := by
    intro placed hplaced
    have mem := Placed.token_mem_of_mem_ofTokens hplaced
    rw [Told]
    split
    · next category => exact fun points ↦ ⟨placed.token, mem, category, points, rfl⟩
    · next category => exact plain placed.token mem category
  cases occurs with
  | root mem inside =>
    have points := points_matrix ((reads.keeps closed_points told _ mem).occurs inside)
    intro row hrow
    have none : ∀ cell ∈ row, cell.tex.toList.count '&' = 0 := by
      intro cell hcell
      refine List.count_eq_zero_of_not_mem ((points row hrow cell hcell).not_mem_tex ?_ ?_)
      · rintro _ ⟨mark, hmark, category, points, rfl⟩
        exact unmarked row hrow cell hcell mark hmark category points
      · exact innermost row hrow cell hcell
    have bound := entries_le hrow
    rwa [List.sum_eq_zero_iff_forall_eq_nat.2 (List.forall_mem_map.2 none), Nat.add_zero] at bound

def alignPoint (column : Nat) : Token := ⟨"&", "&", .alignMark, true, none, ⟨1, column⟩⟩

/-- Two rows in brackets, the first of which has something between two letters, and an alignment
point behind them. -/
def twoRows (between : Token) : List Token :=
  [⟨"[", "\\left[", .opener, true, none, ⟨1, 1⟩⟩, .literal ['a'] .run ⟨1, 2⟩, between,
    .literal ['b'] .run ⟨1, 6⟩, ⟨";", ";", .separator, true, none, ⟨1, 7⟩⟩,
    .literal ['c'] .run ⟨1, 9⟩, ⟨"]", "\\right]", .closer, true, none, ⟨1, 10⟩⟩, alignPoint 12]

def twoRowsGrid (first : List Formula) : Matrix Formula :=
  ⟨"\\left[", [first, [.leaf "c" "c"]], "\\right]", .center, []⟩

theorem entries_separated :
    let tokens := twoRows ⟨",", ",", .separator, true, none, ⟨1, 4⟩⟩
    let grid := twoRowsGrid [.leaf "a" "a", .leaf "b" "b"]
    ofTokens tokens = .ok (.root [.matrix grid, .leaf "&" "&"]) ∧
      ∀ row ∈ grid.rows, entries (" & ".intercalate (row.map tex)) ≤
        max 1 (grid.columnSpec.toList.count grid.alignment.letter) := by
  intro tokens grid
  have read : ofTokens tokens = .ok (.root [.matrix grid, .leaf "&" "&"]) := rfl
  have letters : ∀ row ∈ grid.rows, ∀ cell ∈ row,
      cell ∈ ["a", "b", "c"].map fun letter ↦ leaf letter letter := by
    simp [grid, twoRowsGrid]
  refine ⟨read, entries_le_columns read (by decide) (.root List.mem_cons_self .here) ?_ ?_⟩
  · intro row hrow cell hcell inner occurs
    obtain ⟨letter, -, rfl⟩ := List.mem_map.1 (letters row hrow cell hcell)
    cases occurs
  · intro row hrow cell hcell mark _ _ points occurs
    obtain ⟨letter, hletter, rfl⟩ := List.mem_map.1 (letters row hrow cell hcell)
    have plain : ∀ letter ∈ ["a", "b", "c"], '&' ∉ letter.toList := by decide
    generalize same : ofToken mark = found at occurs
    cases occurs
    exact plain letter hletter ((leaf.inj same).1 ▸ points)

/-- An alignment point in a cell makes an entry for which no column is declared. -/
theorem columns_lt_entries :
    let tokens := twoRows (alignPoint 4)
    let row := [flat [.leaf "a" "a", .leaf "&" "&", .leaf "b" "b"]]
    let grid := twoRowsGrid row
    ofTokens tokens = .ok (.root [.matrix grid, .leaf "&" "&"]) ∧ row ∈ grid.rows ∧
      (∀ token ∈ tokens, token.category ≠ .alignMark →
        '&' ∉ token.template.toList ∧ '&' ∉ token.value.toList) ∧
      max 1 (grid.columnSpec.toList.count grid.alignment.letter) <
        entries (" & ".intercalate (row.map tex)) := by
  intro tokens row grid
  exact ⟨rfl, List.mem_cons_self, by decide, by decide +kernel⟩

end Formula

end AsciiMath
