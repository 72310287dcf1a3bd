import AsciiMath.Proofs.Formula.Region

/-!
# Lists whose brackets match

A count of open brackets starts at zero and is never to go below zero. If it ends at zero the
brackets of the list match one another. Such a list stands between an opener and its closer, and
whatever looks ahead for a bar passes over it.
-/

namespace AsciiMath.Region

theorem depthAfter?_append (depth : Nat) (front back : List Placed) :
    depthAfter? depth (front ++ back) = depthAfter? depth front >>= (depthAfter? · back) :=
  List.foldlM_append

theorem nextDepth?_of_opener {category : Category} (opens : category = .opener) (depth : Nat) :
    nextDepth? category depth = some (depth + 1) := by
  rw [opens]
  rfl

theorem nextDepth?_eq_self {category : Category} (opens : category ≠ .opener)
    (closes : category ≠ .closer) (depth : Nat) : nextDepth? category depth = some depth := by
  cases category <;> first | rfl | contradiction

theorem nextDepth?_add {category : Category} {depth next : Nat}
    (h : nextDepth? category depth = some next) (more : Nat) :
    nextDepth? category (depth + more) = some (next + more) := by
  cases category with
  | opener =>
    obtain rfl := Option.some.inj h
    rw [nextDepth?, Nat.add_right_comm]
  | closer =>
    cases depth with
    | zero => cases h
    | succ depth =>
      obtain rfl := Option.some.inj h
      rw [Nat.add_right_comm]
      rfl
  | _ =>
    obtain rfl := Option.some.inj h
    rfl

/-- Brackets that match do so inside further brackets. -/
theorem depthAfter?_add {depth reached : Nat} {tokens : List Placed}
    (h : depthAfter? depth tokens = some reached) (more : Nat) :
    depthAfter? (depth + more) tokens = some (reached + more) := by
  induction tokens generalizing depth with
  | nil =>
    obtain rfl := Option.some.inj h
    rfl
  | cons token tokens ih =>
    cases hnext : nextDepth? token.category depth with
    | none => simp [depthAfter?, hnext] at h
    | some next =>
      rw [depthAfter?_cons hnext] at h
      rw [depthAfter?_cons (nextDepth?_add hnext more)]
      exact ih h

theorem depthAfter?_region {depth : Nat} {region : Region}
    (balanced : depthAfter? depth region.inside = some 0)
    (closes : region.closer.category = .closer) :
    depthAfter? (depth + 1) (region.inside ++ region.closer :: region.after) =
      depthAfter? 0 region.after := by
  have inside := depthAfter?_add balanced 1
  have closed : nextDepth? region.closer.category (0 + 1) = some 0 := by rw [closes]; rfl
  rw [depthAfter?_append, inside]
  exact depthAfter?_cons closed region.after

/-- Where the count comes down to zero there is a closer for each bracket that was open. -/
theorem exists_ofBrackets? {depth : Nat} {tokens : List Placed}
    (h : depthAfter? (depth + 1) tokens = some 0) :
    ∃ region, ofBrackets? depth tokens = some region := by
  induction tokens generalizing depth with
  | nil => cases h
  | cons token tokens ih =>
    rw [ofBrackets?_cons]
    cases hnext : nextDepth? token.category depth with
    | none => exact ⟨_, rfl⟩
    | some next =>
      rw [depthAfter?_cons (nextDepth?_add hnext 1)] at h
      obtain ⟨region, found⟩ := ih h
      exact ⟨grow token region, congrArg (Option.map (grow token)) found⟩

def growBy (front : List Placed) (region : Region) : Region :=
  { region with inside := front ++ region.inside }

/-- A region that goes on behind matching brackets has them inside. -/
theorem ofBrackets?_append {depth reached : Nat} {front : List Placed}
    (h : depthAfter? depth front = some reached) (back : List Placed) :
    ofBrackets? depth (front ++ back) = (ofBrackets? reached back).map (growBy front) := by
  induction front generalizing depth with
  | nil =>
    obtain rfl := Option.some.inj h
    exact (id_map _).symm
  | cons token front ih =>
    cases hnext : nextDepth? token.category depth with
    | none => simp [depthAfter?, hnext] at h
    | some next =>
      rw [depthAfter?_cons hnext] at h
      rw [List.cons_append, ofBrackets?_cons, hnext]
      dsimp only
      rw [ih h, Option.map_map]
      rfl

theorem ofBrackets?_of_balanced {depth : Nat} {inside : List Placed} {closer : Placed}
    (balanced : depthAfter? depth inside = some 0) (closes : closer.category = .closer)
    (after : List Placed) :
    ofBrackets? depth (inside ++ closer :: after) = some ⟨inside, closer, after⟩ := by
  rw [ofBrackets?_append balanced, ofBrackets?_cons, nextDepth?_eq_none.2 ⟨closes, rfl⟩]
  simp [growBy]

/-- No bar is found inside of brackets that are open. -/
theorem ofBars?_append (bar : String) {depth reached : Nat} {front : List Placed}
    (h : depthAfter? depth front = some reached) (back : List Placed) :
    ofBars? bar (depth + 1) (front ++ back) =
      (ofBars? bar (reached + 1) back).map (growBy front) := by
  induction front generalizing depth with
  | nil =>
    obtain rfl := Option.some.inj h
    exact (id_map _).symm
  | cons token front ih =>
    cases hnext : nextDepth? token.category depth with
    | none => simp [depthAfter?, hnext] at h
    | some next =>
      rw [depthAfter?_cons hnext] at h
      rw [List.cons_append, ofBars?_cons, nextDepth?_add hnext 1]
      dsimp only
      rw [if_neg (by simp), ih h, Option.map_map]
      rfl

/-- A bar is not looked for inside the brackets that are open. -/
theorem ofBars?_eq_none_of_ofBrackets? {bar : String} {depth : Nat} {tokens : List Placed}
    {region : Region} (matched : ofBrackets? depth tokens = some region) :
    ofBars? bar (depth + 1) tokens = none ↔ ofBars? bar 0 region.after = none := by
  obtain ⟨rfl, closes, balanced⟩ := ofBrackets?_eq_some matched
  rw [ofBars?_append bar balanced, ofBars?_cons, closes]
  simp [nextDepth?]

/-- There is no bar of the kind in front of the one that is found. -/
theorem ofBars?_inside {bar : String} {depth : Nat} {tokens : List Placed} {region : Region}
    (matched : ofBars? bar depth tokens = some region) :
    ofBars? bar depth region.inside = none := by
  induction tokens generalizing depth region with
  | nil => simp [ofBars?] at matched
  | cons token tokens ih =>
    rw [ofBars?_cons] at matched
    cases hnext : nextDepth? token.category depth with
    | none => simp [hnext] at matched
    | some next =>
      rw [hnext] at matched
      dsimp only at matched
      split at matched
      · obtain rfl := Option.some.inj matched
        rfl
      · next other =>
        obtain ⟨found, hfound, rfl⟩ := Option.map_eq_some_iff.1 matched
        rw [grow, ofBars?_cons, hnext]
        dsimp only
        rw [if_neg other, ih hfound]
        rfl

end AsciiMath.Region
