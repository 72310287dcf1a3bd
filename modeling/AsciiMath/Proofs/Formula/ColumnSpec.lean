import AsciiMath.Formula.RuleCursor
import AsciiMath.Proofs.Formula.Grid
import Mathlib.Data.List.Sort

/-!
# Reading a column specification back

A column specification tells how many columns there are and at which boundaries rules run. Both can
be read off it, and no other text tells the same. The rules are there in ascending order and each
of them once, however they were given. So a cursor in the sorted rules misses none of them.
-/

namespace AsciiMath

theorem Alignment.letter_ne_bar (alignment : Alignment) : '|' ≠ alignment.letter := by
  cases alignment <;> decide

namespace Matrix

variable {α : Type}

/-- How many columns there are and at which boundaries rules run, as told by a specification that
has letters and bars only, with the given number of columns in front of it. -/
def readSpec (letter : Char) : Nat → List Char → Option (Nat × List Nat)
  | columns, [] => some (columns, [])
  | columns, c :: spec =>
    if c = letter then readSpec letter (columns + 1) spec
    else if c = '|' then (readSpec letter columns spec).map fun told ↦ (told.1, columns :: told.2)
    else none

/-- What stands between two letters, or at an end: one bar if a rule runs there. -/
def barsAt (rules : List Nat) (boundary : Nat) : List Char := if boundary ∈ rules then ['|'] else []

section

variable {letter c : Char} {columns total : Nat} {rules : List Nat} {spec : List Char}

theorem readSpec_cons (told : readSpec letter columns (c :: spec) = some (total, rules)) :
    c = letter ∧ readSpec letter (columns + 1) spec = some (total, rules) ∨
      c = '|' ∧ ∃ rest, rules = columns :: rest ∧
        readSpec letter columns spec = some (total, rest) := by
  rw [readSpec] at told
  split at told
  · next same => exact .inl ⟨same, told⟩
  · split at told
    · next bar =>
      obtain ⟨⟨_, rest⟩, more, same⟩ := Option.map_eq_some_iff.1 told
      obtain ⟨rfl, rfl⟩ := Prod.mk.inj same
      exact .inr ⟨bar, rest, rfl, more⟩
    · cases told

theorem readSpec_letter (letter : Char) (columns : Nat) (spec : List Char) :
    readSpec letter columns (letter :: spec) = readSpec letter (columns + 1) spec :=
  if_pos rfl

theorem readSpec_bar (notBar : '|' ≠ letter) (columns : Nat) (spec : List Char) :
    readSpec letter columns ('|' :: spec) =
      (readSpec letter columns spec).map fun told ↦ (told.1, columns :: told.2) := by
  rw [readSpec, if_neg notBar, if_pos rfl]

theorem le_of_readSpec (told : readSpec letter columns spec = some (total, rules)) :
    columns ≤ total ∧ ∀ rule ∈ rules, columns ≤ rule := by
  induction spec generalizing columns rules with
  | nil =>
    obtain ⟨rfl, rfl⟩ := Prod.mk.inj (Option.some.inj told)
    exact ⟨Nat.le_refl _, List.forall_mem_nil _⟩
  | cons c spec ih =>
    rcases readSpec_cons told with ⟨-, more⟩ | ⟨-, rest, rfl, more⟩
    · obtain ⟨least, later⟩ := ih more
      exact ⟨Nat.le_of_succ_le least, fun rule mem ↦ Nat.le_of_succ_le (later rule mem)⟩
    · obtain ⟨least, later⟩ := ih more
      exact ⟨least, List.forall_mem_cons.2 ⟨Nat.le_refl _, later⟩⟩

/-- Two specifications that tell the same are the same. -/
theorem readSpec_inj {other : List Char}
    (told : readSpec letter columns spec = some (total, rules))
    (told' : readSpec letter columns other = some (total, rules)) : spec = other := by
  induction spec generalizing columns rules other with
  | nil =>
    obtain ⟨rfl, rfl⟩ := Prod.mk.inj (Option.some.inj told)
    cases other with
    | nil => rfl
    | cons c other =>
      rcases readSpec_cons told' with ⟨-, more⟩ | ⟨-, rest, none, -⟩
      · exact absurd (le_of_readSpec more).1 (Nat.not_succ_le_self _)
      · cases none
  | cons c spec ih =>
    rcases readSpec_cons told with ⟨rfl, more⟩ | ⟨rfl, rest, rfl, more⟩
    · -- A letter lets all that follows be told of later boundaries.
      obtain ⟨least, later⟩ := le_of_readSpec more
      cases other with
      | nil =>
        obtain ⟨rfl, -⟩ := Prod.mk.inj (Option.some.inj told')
        exact absurd least (Nat.not_succ_le_self _)
      | cons d other =>
        rcases readSpec_cons told' with ⟨rfl, more'⟩ | ⟨-, rest, rfl, -⟩
        · rw [ih more more']
        · exact absurd (later columns List.mem_cons_self) (Nat.not_succ_le_self _)
    · cases other with
      | nil => cases told'
      | cons d other =>
        rcases readSpec_cons told' with ⟨-, more'⟩ | ⟨rfl, rest', same, more'⟩
        · have later := (le_of_readSpec more').2 columns List.mem_cons_self
          exact absurd later (Nat.not_succ_le_self _)
        · obtain rfl := (List.cons.inj same).2
          rw [ih more more']

end

theorem intercalate_range'_succ (letter : Char) (pieces : Nat → List Char)
    (boundary columns : Nat) :
    [letter].intercalate ((List.range' boundary (columns + 1 + 1)).map pieces) =
      pieces boundary ++ letter ::
        [letter].intercalate ((List.range' (boundary + 1) (columns + 1)).map pieces) := by
  rw [List.range'_succ, List.map_cons, List.range'_succ, List.map_cons,
    List.intercalate_cons_cons, List.append_assoc]
  rfl

/-- Rules that run at a boundary or behind it, as they come. -/
structure Upcoming (boundary last : Nat) (rules : List Nat) : Prop where
  ascending : rules.Pairwise (· < ·)
  bounds : ∀ rule ∈ rules, boundary ≤ rule ∧ rule ≤ last

namespace Upcoming

variable {boundary last : Nat} {rules : List Nat}

theorem not_mem (h : Upcoming (boundary + 1) last rules) : boundary ∉ rules :=
  fun mem ↦ Nat.not_succ_le_self _ (h.bounds boundary mem).1

theorem takeRule_later (h : Upcoming (boundary + 1) last rules) :
    takeRule boundary rules = ([], rules) := by
  cases rules with
  | nil => rfl
  | cons rule rules =>
    rw [takeRule, if_neg]
    rintro rfl
    exact h.not_mem List.mem_cons_self

/-- The next rule runs at the boundary, or all of them run behind it. -/
theorem step (h : Upcoming boundary last rules) :
    (∃ rest, rules = boundary :: rest ∧ Upcoming (boundary + 1) last rest) ∨
      Upcoming (boundary + 1) last rules := by
  cases rules with
  | nil => exact .inr ⟨.nil, by simp⟩
  | cons rule rest =>
    obtain ⟨first, ascending⟩ := List.pairwise_cons.1 h.ascending
    obtain ⟨⟨least, most⟩, bounds⟩ := List.forall_mem_cons.1 h.bounds
    rcases least.eq_or_lt with rfl | later
    · exact .inl ⟨rest, rfl, ascending, fun other mem ↦ ⟨first other mem, (bounds other mem).2⟩⟩
    · refine .inr ⟨h.ascending, List.forall_mem_cons.2 ⟨⟨later, most⟩, fun other mem ↦ ?_⟩⟩
      exact ⟨later.trans (first other mem), (bounds other mem).2⟩

theorem eq_nil (h : Upcoming (last + 1) last rules) : rules = [] :=
  List.eq_nil_iff_forall_not_mem.2 fun rule mem ↦ by have := h.bounds rule mem; omega

theorem specFrom_eq (letter : Char) {columns : Nat}
    (h : Upcoming boundary (boundary + columns) rules) :
    specFrom letter columns boundary rules =
      [letter].intercalate ((List.range' boundary (columns + 1)).map (barsAt rules)) := by
  induction columns generalizing boundary rules with
  | zero =>
    rcases h.step with ⟨rest, rfl, later⟩ | later
    · obtain rfl := later.eq_nil
      simp [specFrom, takeRule, barsAt]
    · obtain rfl := later.eq_nil
      simp [specFrom, takeRule, barsAt]
  | succ columns ih =>
    rw [intercalate_range'_succ]
    have last : boundary + (columns + 1) = boundary + 1 + columns := by omega
    rw [last] at h
    rcases h.step with ⟨rest, rfl, later⟩ | later
    · have same : (List.range' (boundary + 1) (columns + 1)).map (barsAt (boundary :: rest)) =
          (List.range' (boundary + 1) (columns + 1)).map (barsAt rest) := by
        refine List.map_congr_left fun other mem ↦ ?_
        have behind : other ≠ boundary := by
          have := (List.mem_range'_1.1 mem).1
          omega
        simp [barsAt, behind]
      rw [same, ← ih later]
      simp [specFrom, takeRule, barsAt]
    · rw [specFrom, later.takeRule_later, ← ih later, barsAt, if_neg later.not_mem]

/-- What is written from a boundary on tells the columns behind it and the rules to come. -/
theorem readSpec_specFrom {letter : Char} (notBar : '|' ≠ letter) {columns : Nat}
    (h : Upcoming boundary (boundary + columns) rules) :
    readSpec letter boundary (specFrom letter columns boundary rules) =
      some (boundary + columns, rules) := by
  induction columns generalizing boundary rules with
  | zero =>
    rcases h.step with ⟨rest, rfl, later⟩ | later
    · obtain rfl := later.eq_nil
      rw [specFrom, takeRule, if_pos rfl, readSpec_bar notBar]
      rfl
    · obtain rfl := later.eq_nil
      rfl
  | succ columns ih =>
    have last : boundary + (columns + 1) = boundary + 1 + columns := by omega
    rw [last] at h ⊢
    rcases h.step with ⟨rest, rfl, later⟩ | later
    · rw [specFrom, takeRule, if_pos rfl]
      dsimp only [List.singleton_append]
      rw [readSpec_bar notBar, readSpec_letter, ih later]
      rfl
    · rw [specFrom, later.takeRule_later]
      dsimp only [List.nil_append]
      rw [readSpec_letter, ih later]

end Upcoming

theorem columnSpec_eq (matrix : Matrix α) :
    matrix.columnSpec.toList = [matrix.alignment.letter].intercalate
      ((List.range (matrix.columnCount + 1)).map (barsAt matrix.dividers)) := by
  have behind (boundary columns : Nat) (total : boundary + columns = matrix.columnCount) :
      (List.range' boundary (columns + 1)).flatMap matrix.specAt =
        [matrix.alignment.letter].intercalate
          ((List.range' boundary (columns + 1)).map (barsAt matrix.dividers)) := by
    induction columns generalizing boundary with
    | zero => simp [specAt, barsAt, ← total]
    | succ columns ih =>
      have inside : boundary < matrix.columnCount := by omega
      rw [intercalate_range'_succ, ← ih (boundary + 1) (by omega), List.range'_succ,
        List.flatMap_cons, specAt, if_pos inside, List.append_assoc]
      rfl
  rw [columnSpec, String.toList_ofList, List.range_eq_range', behind 0 _ (Nat.zero_add _)]

theorem splitOn_columnSpec (matrix : Matrix α) :
    matrix.columnSpec.toList.splitOn matrix.alignment.letter =
      (List.range (matrix.columnCount + 1)).map (barsAt matrix.dividers) := by
  rw [columnSpec_eq]
  refine List.splitOn_intercalate _ (List.forall_mem_map.2 fun boundary _ mem ↦ ?_) (by simp)
  rw [barsAt] at mem
  split at mem
  · exact matrix.alignment.letter_ne_bar (List.mem_singleton.1 mem).symm
  · cases mem

theorem mem_dropRepeats {rules : List Nat} {rule : Nat} :
    rule ∈ dropRepeats rules ↔ rule ∈ rules := by
  induction rules with
  | nil => exact Iff.rfl
  | cons first rules ih =>
    rw [dropRepeats]
    split
    · next repeated =>
      rw [ih, List.mem_cons]
      refine ⟨.inr, ?_⟩
      rintro (rfl | mem)
      · exact List.mem_of_head? repeated
      · exact mem
    · rw [List.mem_cons, List.mem_cons, ih]

/-- What is in order without its repeats is in strict order. -/
theorem pairwise_dropRepeats {rules : List Nat} (sorted : rules.Pairwise (· ≤ ·)) :
    (dropRepeats rules).Pairwise (· < ·) := by
  induction rules with
  | nil => exact .nil
  | cons first rules ih =>
    obtain ⟨least, sorted⟩ := List.pairwise_cons.1 sorted
    rw [dropRepeats]
    split
    · exact ih sorted
    · next other =>
      refine List.pairwise_cons.2 ⟨fun rule mem ↦ ?_, ih sorted⟩
      rw [mem_dropRepeats] at mem
      refine (least rule mem).lt_of_ne ?_
      rintro rfl
      cases rules with
      | nil => cases mem
      | cons next rules =>
        have before : next ≤ first := by
          rcases List.mem_cons.1 mem with rfl | mem
          · exact Nat.le_refl _
          · exact (List.pairwise_cons.1 sorted).1 first mem
        exact other (congrArg some (before.antisymm (least next List.mem_cons_self)))

theorem mem_sortRules {rules : List Nat} {rule : Nat} : rule ∈ sortRules rules ↔ rule ∈ rules := by
  rw [sortRules, mem_dropRepeats, List.mem_mergeSort]

theorem pairwise_sortRules (rules : List Nat) : (sortRules rules).Pairwise (· < ·) :=
  pairwise_dropRepeats (List.pairwise_mergeSort' (· ≤ ·) rules)

section

variable {left right : String} {rows : List (List α)} {alignment : Alignment} {dividers : List Nat}

theorem ofRows?_eq_none :
    ofRows? left rows right alignment dividers = none ↔
      ∃ divider ∈ dividers, widest rows < divider := by
  rw [ofRows?]
  split
  · next within =>
    refine iff_of_false (Option.some_ne_none _) ?_
    rintro ⟨divider, mem, beyond⟩
    exact absurd (of_decide_eq_true (List.all_eq_true.1 within divider mem)) (Nat.not_le.2 beyond)
  · next within =>
    refine iff_of_true rfl ?_
    simpa using within

theorem all_congr {others : List Nat} (same : ∀ divider, divider ∈ others ↔ divider ∈ dividers)
    (last : Nat) : others.all (· ≤ last) = dividers.all (· ≤ last) := by
  rw [Bool.eq_iff_iff, List.all_eq_true, List.all_eq_true]
  simp only [same]

theorem ofRows?_congr {others : List Nat}
    (same : ∀ divider, divider ∈ others ↔ divider ∈ dividers) :
    ofRows? left rows right alignment others = ofRows? left rows right alignment dividers := by
  simp only [ofRows?, all_congr same, same]

theorem ofSorted?_eq :
    ofSorted? left rows right alignment dividers = ofRows? left rows right alignment dividers := by
  change (if (sortRules dividers).all (· ≤ widest rows) then _ else none) = _
  rw [all_congr fun _ ↦ mem_sortRules, ofRows?]
  split
  · next within =>
    have sorted : sortRules dividers = (List.range (widest rows + 1)).filter (· ∈ dividers) := by
      refine (pairwise_sortRules dividers).eq_of_mem_iff (List.pairwise_lt_range.filter _) ?_
      intro divider
      rw [mem_sortRules, List.mem_filter, List.mem_range, decide_eq_true_iff]
      refine ⟨fun mem ↦ ⟨Nat.lt_succ_of_le ?_, mem⟩, And.right⟩
      exact of_decide_eq_true (List.all_eq_true.1 within divider mem)
    rw [sorted]
  · rfl

/-- The rules of a matrix are those that were given, in order, and all of them fit. -/
theorem upcoming_of_ofRows? {matrix : Matrix α}
    (made : ofRows? left rows right alignment dividers = some matrix) :
    Upcoming 0 matrix.columnCount matrix.dividers ∧
      ∀ divider, divider ∈ matrix.dividers ↔ divider ∈ dividers := by
  have fits (divider : Nat) (mem : divider ∈ dividers) : divider ≤ widest rows := by
    by_contra beyond
    have refused : ofRows? left rows right alignment dividers = none :=
      ofRows?_eq_none.2 ⟨divider, mem, Nat.lt_of_not_le beyond⟩
    exact Option.some_ne_none _ (made.symm.trans refused)
  obtain rfl := ofRows?_eq_some made
  have members (divider : Nat) :
      divider ∈ (List.range (widest rows + 1)).filter (· ∈ dividers) ↔ divider ∈ dividers := by
    rw [List.mem_filter, List.mem_range, decide_eq_true_iff]
    exact ⟨And.right, fun mem ↦ ⟨Nat.lt_succ_of_le (fits divider mem), mem⟩⟩
  exact ⟨⟨List.pairwise_lt_range.filter _, fun rule mem ↦
    ⟨Nat.zero_le _, fits rule ((members rule).1 mem)⟩⟩, members⟩

end

/-- A matrix is refused only for a rule beyond its widest row. Otherwise its rules are those that
were given, in order and each of them once, and its specification has a letter for each column and
one bar for each rule, at the boundary of that rule. From no other text can the same be read. -/
theorem ofRows?_columnSpec (left : String) (rows : List (List α)) (right : String)
    (alignment : Alignment) (dividers : List Nat) :
    (ofRows? left rows right alignment dividers = none ↔
      ∃ divider ∈ dividers, widest rows < divider) ∧
    (∀ others : List Nat, (∀ divider, divider ∈ others ↔ divider ∈ dividers) →
      ofRows? left rows right alignment others = ofRows? left rows right alignment dividers) ∧
    ofSorted? left rows right alignment dividers = ofRows? left rows right alignment dividers ∧
    ∀ matrix, ofRows? left rows right alignment dividers = some matrix →
      matrix = ⟨left, rows, right, alignment, matrix.dividers⟩ ∧
      matrix.dividers.Pairwise (· < ·) ∧
      (∀ divider, divider ∈ matrix.dividers ↔ divider ∈ dividers) ∧
      (matrix.columnSpec.toList.splitOn alignment.letter =
        (List.range (matrix.columnCount + 1)).map fun boundary ↦
          if boundary ∈ dividers then ['|'] else []) ∧
      matrix.writtenSpec = matrix.columnSpec ∧
      ∀ spec : List Char,
        readSpec alignment.letter 0 spec = some (matrix.columnCount, matrix.dividers) ↔
          spec = matrix.columnSpec.toList := by
  refine ⟨ofRows?_eq_none, fun others same ↦ ofRows?_congr same, ofSorted?_eq, fun matrix made ↦ ?_⟩
  obtain ⟨upcoming, members⟩ := upcoming_of_ofRows? made
  have shape : matrix = ⟨left, rows, right, alignment, matrix.dividers⟩ := by
    rw [ofRows?_eq_some made]
  have letter : matrix.alignment.letter = alignment.letter := by rw [shape]
  rw [← Nat.zero_add matrix.columnCount] at upcoming
  have written : matrix.columnSpec.toList =
      specFrom alignment.letter matrix.columnCount 0 matrix.dividers := by
    rw [columnSpec_eq, letter, upcoming.specFrom_eq, List.range_eq_range']
  have told : readSpec alignment.letter 0 matrix.columnSpec.toList =
      some (matrix.columnCount, matrix.dividers) := by
    rw [written, upcoming.readSpec_specFrom alignment.letter_ne_bar, Nat.zero_add]
  refine ⟨shape, upcoming.ascending, members, ?_, ?_, fun spec ↦ ⟨fun read ↦ ?_, ?_⟩⟩
  · rw [← letter, splitOn_columnSpec]
    refine List.map_congr_left fun boundary _ ↦ ?_
    simp only [barsAt, members]
  · rw [writtenSpec, letter, ← written, String.ofList_toList]
  · exact readSpec_inj read told
  · rintro rfl
    exact told

/-- Rules in disorder, one of them twice, in front of the first column and behind the last. -/
theorem ofRows?_columnSpec_ruled :
    let made := ofRows? "[" [["a", "b"], ["c", "d", "e"]] "]" .left [3, 0, 1, 3]
    let matrix : Matrix String := ⟨"[", [["a", "b"], ["c", "d", "e"]], "]", .left, [0, 1, 3]⟩
    made = some matrix ∧ matrix.columnSpec = "|l|ll|" ∧ matrix.writtenSpec = "|l|ll|" := by
  intro made matrix
  have found : made = some matrix := rfl
  obtain ⟨-, -, -, spec⟩ :=
    ofRows?_columnSpec "[" [["a", "b"], ["c", "d", "e"]] "]" .left [3, 0, 1, 3]
  obtain ⟨-, -, -, -, written, -⟩ := spec matrix found
  have spelled : matrix.columnSpec = "|l|ll|" := by decide
  exact ⟨found, spelled, written.trans spelled⟩

end Matrix

end AsciiMath
