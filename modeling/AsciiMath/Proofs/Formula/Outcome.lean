import AsciiMath.Proofs.Formula.Closed

/-!
# How reading ends

Every list of tokens is read to its end or to the first token that cannot be read. No loop of the
readers ends for want of budget. Each matrix of a formula has a row, and its rules ascend between
the boundaries of its columns.
-/

namespace AsciiMath

namespace Formula

/-- Some formula stands in another one, or is that one. -/
inductive Occurs (part : Formula) : Formula → Prop where
  | here : Occurs part part
  | flat {children : List Formula} {child : Formula} (mem : child ∈ children)
      (inside : Occurs part child) : Occurs part (.flat children)
  | root {children : List Formula} {child : Formula} (mem : child ∈ children)
      (inside : Occurs part child) : Occurs part (.root children)
  | argument {template : String} {argument : Formula} (inside : Occurs part argument) :
      Occurs part (.unary template argument)
  | first {template : String} {first second : Formula} (inside : Occurs part first) :
      Occurs part (.binary template first second)
  | second {template : String} {first second : Formula} (inside : Occurs part second) :
      Occurs part (.binary template first second)
  | cell {grid : Matrix Formula} {row : List Formula} {cell : Formula} (memRow : row ∈ grid.rows)
      (mem : cell ∈ row) (inside : Occurs part cell) : Occurs part (.matrix grid)

def AllRuled (formula : Formula) : Prop := ∀ grid, Occurs (.matrix grid) formula → grid.Ruled

theorem allRuled_leaf (template source : String) : AllRuled (.leaf template source) := by
  intro grid occurs
  cases occurs

theorem allRuled_flat {children : List Formula} :
    AllRuled (.flat children) ↔ ∀ child ∈ children, AllRuled child := by
  constructor
  · exact fun h child mem grid occurs ↦ h grid (.flat mem occurs)
  · intro h grid occurs
    cases occurs with
    | flat mem inside => exact h _ mem grid inside

theorem allRuled_group {leading body : List Formula} {opener last : Formula}
    (hleading : ∀ child ∈ leading, AllRuled child) (hopener : AllRuled opener)
    (hbody : ∀ child ∈ body, AllRuled child) (hlast : AllRuled last) :
    AllRuled (.flat (leading ++ opener :: body ++ [last])) :=
  allRuled_flat.2 (forall_mem_group hleading hopener hbody hlast)

theorem allRuled_root {children : List Formula} (h : ∀ child ∈ children, AllRuled child) :
    AllRuled (.root children) := by
  intro grid occurs
  cases occurs with
  | root mem inside => exact h _ mem grid inside

theorem allRuled_unary {template : String} {argument : Formula} (h : AllRuled argument) :
    AllRuled (.unary template argument) := by
  intro grid occurs
  cases occurs with
  | argument inside => exact h grid inside

theorem allRuled_binary {template : String} {first second : Formula} (hfirst : AllRuled first)
    (hsecond : AllRuled second) : AllRuled (.binary template first second) := by
  intro grid occurs
  cases occurs with
  | first inside => exact hfirst grid inside
  | second inside => exact hsecond grid inside

theorem allRuled_matrix {grid : Matrix Formula} (ruled : grid.Ruled)
    (h : ∀ row ∈ grid.rows, ∀ cell ∈ row, AllRuled cell) : AllRuled (.matrix grid) := by
  intro inner occurs
  cases occurs with
  | here => exact ruled
  | cell memRow mem inside => exact h _ memRow _ mem inner inside

theorem closed_allRuled : Closed (fun _ ↦ True) AllRuled where
  empty := allRuled_leaf _ _
  leaf _ _ _ := allRuled_leaf _ _
  strayCloser _ _ _ := allRuled_leaf _ _
  strayOperator _ _ _ := allRuled_leaf _ _
  loneBar _ _ _ := allRuled_leaf _ _
  unary _ _ _ _ h := allRuled_unary h
  binary _ _ _ _ _ hfirst hsecond := allRuled_binary hfirst hsecond
  fraction _ _ hnumerator hdenominator := allRuled_binary hnumerator hdenominator
  flat _ h := allRuled_flat.2 h
  body formula body h grouped := by
    obtain ⟨first, last, rfl, -, -⟩ := groupBody?_eq_some grouped
    have hchildren := allRuled_flat.1 h
    exact fun child mem ↦ hchildren child (by simp [mem])
  unclosed leading leads opener _ _ body h := by
    have hleading := leads.forall_mem fun token _ _ ↦ allRuled_leaf token.template token.value
    exact allRuled_group hleading (allRuled_leaf _ _) h (allRuled_leaf _ _)
  group leading leads opener closer _ _ _ _ body h := by
    have hleading := leads.forall_mem fun token _ _ ↦ allRuled_leaf token.template token.value
    exact allRuled_group hleading (allRuled_leaf _ _) h (allRuled_leaf _ _)
  barGroup bar _ _ body h :=
    allRuled_group (List.forall_mem_nil _) (allRuled_leaf _ _) h (allRuled_leaf _ _)
  matrix _ _ ruled h := allRuled_matrix ruled h

/-- A whole list of tokens is a sequence, or stops at one of them. -/
theorem ofTokens_meets (tokens : List Token) :
    Meets (Placed.ofTokens tokens)
      (fun formula ↦ ∃ children, formula = .root children ∧
        Reads (.sequence maxLevels (Placed.ofTokens tokens) children))
      (ofTokens tokens) :=
  (sequence_meets (sound maxLevels) _).map fun children reads ↦ ⟨children, rfl, reads⟩

theorem reads_of_ofTokens {tokens : List Token} {formula : Formula}
    (h : ofTokens tokens = .ok formula) : ∃ children, formula = .root children ∧
      Reads (.sequence maxLevels (Placed.ofTokens tokens) children) := by
  have meets := ofTokens_meets tokens
  rw [h] at meets
  exact meets

theorem length_le_of_read {levels : Nat} {placed : Placed} {tokens after : List Placed}
    {found : Formula} (h : read levels true placed tokens = .ok (found, after)) :
    after.length ≤ tokens.length := by
  have meets := (sound levels placed tokens).2
  rw [h] at meets
  have reads : Reads (.whole levels (placed :: tokens) found after) := meets
  exact reads.proceeds.length_le (Nat.le_refl _)

/-- A budget that covers the tokens is never used up, so that it does not matter which one it is. -/
theorem readEach_budget (levels : Nat) {budget other : Nat} {tokens : List Placed}
    (enough : tokens.length ≤ budget) (enough' : tokens.length ≤ other) :
    readEach (read levels true) budget tokens = readEach (read levels true) other tokens := by
  induction budget generalizing other tokens with
  | zero =>
    obtain rfl := List.eq_nil_of_length_eq_zero (Nat.le_zero.1 enough)
    cases other <;> rfl
  | succ budget ih =>
    cases tokens with
    | nil => cases other <;> rfl
    | cons placed tokens =>
      rw [List.length_cons] at enough enough'
      obtain ⟨other, rfl⟩ : ∃ less, other = less + 1 := ⟨other - 1, by omega⟩
      rw [readEach, readEach]
      cases hread : read levels true placed tokens with
      | error cause => rfl
      | ok found =>
        have shorter := length_le_of_read hread
        have hmore : readEach (read levels true) budget found.2 =
            readEach (read levels true) other found.2 := ih (by omega) (by omega)
        simp only [bind, Except.bind, hmore]

theorem readPieces_budget (levels : Nat) (ruled cellBegun : Bool) {budget other : Nat}
    {tokens : List Placed} (enough : tokens.length ≤ budget) (enough' : tokens.length ≤ other) :
    readPieces (read levels true) ruled budget cellBegun tokens =
      readPieces (read levels true) ruled other cellBegun tokens := by
  induction budget generalizing other cellBegun tokens with
  | zero =>
    obtain rfl := List.eq_nil_of_length_eq_zero (Nat.le_zero.1 enough)
    cases other <;> rfl
  | succ budget ih =>
    cases tokens with
    | nil => cases other <;> rfl
    | cons placed tokens =>
      rw [List.length_cons] at enough enough'
      obtain ⟨other, rfl⟩ : ∃ less, other = less + 1 := ⟨other - 1, by omega⟩
      rw [readPieces, readPieces]
      split
      · have hmore : readPieces (read levels true) ruled budget false tokens =
            readPieces (read levels true) ruled other false tokens :=
          ih false (by omega) (by omega)
        rw [hmore]
      · cases hread : read levels true placed tokens with
        | error cause => rfl
        | ok found =>
          have shorter := length_le_of_read hread
          have hmore : readPieces (read levels true) ruled budget true found.2 =
              readPieces (read levels true) ruled other true found.2 :=
            ih true (by omega) (by omega)
          simp only [bind, Except.bind, hmore]

end Formula

theorem Placed.map_token_follow (leads : Bool) (tokens : List Token) :
    (follow leads tokens).map (·.token) = tokens := by
  induction tokens generalizing leads with
  | nil => rfl
  | cons token tokens ih => simp [follow, ih]

theorem Placed.map_token_ofTokens (tokens : List Token) :
    (ofTokens tokens).map (·.token) = tokens := map_token_follow true tokens

theorem Placed.token_mem_of_mem_ofTokens {tokens : List Token} {placed : Placed}
    (h : placed ∈ ofTokens tokens) : placed.token ∈ tokens := by
  rw [← map_token_ofTokens tokens]
  exact List.mem_map_of_mem h

namespace Formula

/-- The token at which reading stops, if it stops. -/
def StopsAt (tokens : List Token) (cause : ConversionError) : Prop :=
  ∃ front token back, tokens = front ++ token :: back ∧
    (∀ earlier ∈ front, earlier.category ≠ .unused) ∧
      (cause = .nestingTooDeep token.position ∨
        token.category = .unused ∧ cause = .unusedKeyword token.value token.position)

theorem stopsAt_of_located {tokens : List Token} {cause : ConversionError}
    (h : Located (Placed.ofTokens tokens) cause) : StopsAt tokens cause := by
  obtain ⟨front, placed, back, htokens, hfront, hcause⟩ := h
  refine ⟨front.map (·.token), placed.token, back.map (·.token), ?_, ?_, hcause⟩
  · rw [← Placed.map_token_ofTokens tokens, htokens, List.map_append, List.map_cons]
  · intro earlier hearlier
    obtain ⟨placed, hplaced, rfl⟩ := List.mem_map.1 hearlier
    exact hfront placed hplaced

theorem used_of_takes {tokens : List Token} (h : Takes (Placed.ofTokens tokens) []) :
    ∀ token ∈ tokens, token.category ≠ .unused := by
  obtain ⟨taken, htaken, hused⟩ := h
  rw [List.append_nil] at htaken
  intro token htoken
  rw [← Placed.map_token_ofTokens tokens, htaken] at htoken
  obtain ⟨placed, hplaced, rfl⟩ := List.mem_map.1 htoken
  exact hused placed hplaced

theorem stopsAt_of_error {tokens : List Token} {cause : ConversionError}
    (h : ofTokens tokens = .error cause) : StopsAt tokens cause := by
  have meets := ofTokens_meets tokens
  rw [h] at meets
  exact stopsAt_of_located meets

end Formula

end AsciiMath
