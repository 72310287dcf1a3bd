import AsciiMath.Proofs.Formula.CursorReads
import AsciiMath.Proofs.Formula.Matched

/-!
# The discipline of a cursor

From every place of every region each reader comes to an end, with or without an error, as soon as
there is enough fuel for the tokens and the levels, and with more of it nothing else is found. The
reader gives back the region and the depth that it was given, has never been deeper than formulas
may be nested, and never moves the cursor back or out of the region. A formula takes a token if
there is one, what fills a region goes to its end, and a region that is closed is left right behind
its closer. What is read is the same as in the list of the tokens ahead.
-/

namespace AsciiMath

namespace Region

/-- These tokens stand between an opener and the mark that closes its region: outside of the
brackets inside, which match, no mark does. -/
def Encloses (closes : Placed → Prop) (behind inside : List Placed) : Prop :=
  ∃ mark after, behind = inside ++ mark :: after ∧ closes mark ∧
    depthAfter? 0 inside = some 0 ∧
      ∀ front other back, inside = front ++ other :: back → closes other →
        depthAfter? 0 front ≠ some 0

theorem exists_ofBrackets?_of_encloses {behind inside : List Placed}
    (encloses : Encloses (·.category = .closer) behind inside) :
    ∃ region, ofBrackets? 0 behind = some region ∧ region.inside = inside := by
  obtain ⟨mark, after, rfl, closes, balanced, -⟩ := encloses
  exact ⟨_, ofBrackets?_of_balanced balanced closes after, rfl⟩

theorem ofBars?_of_balanced {bar : String} {depth : Nat} {inside : List Placed} {mark : Placed}
    (balanced : depthAfter? depth inside = some 0) (unclosed : ofBars? bar depth inside = none)
    (category : mark.category = .bar) (value : mark.token.value = bar) (after : List Placed) :
    ofBars? bar depth (inside ++ mark :: after) = some ⟨inside, mark, after⟩ := by
  induction inside generalizing depth with
  | nil =>
    obtain rfl := Option.some.inj balanced
    rw [List.nil_append, ofBars?_cons, category]
    simp [nextDepth?, value]
  | cons token inside ih =>
    cases hnext : nextDepth? token.category depth with
    | none => simp [depthAfter?, hnext] at balanced
    | some next =>
      rw [depthAfter?_cons hnext] at balanced
      rw [ofBars?_cons, hnext] at unclosed
      dsimp only at unclosed
      split at unclosed
      · cases unclosed
      · next other =>
        rw [List.cons_append, ofBars?_cons, hnext]
        dsimp only
        rw [if_neg other, ih balanced (Option.map_eq_none_iff.1 unclosed)]
        rfl

theorem exists_ofBars?_of_encloses {bar : String} {behind inside : List Placed}
    (encloses : Encloses (fun mark ↦ mark.category = .bar ∧ mark.token.value = bar) behind inside) :
    ∃ region, ofBars? bar 0 behind = some region ∧ region.inside = inside := by
  obtain ⟨mark, after, rfl, ⟨category, value⟩, balanced, first⟩ := encloses
  have unclosed : ofBars? bar 0 inside = none := by
    by_contra closed
    obtain ⟨region, found⟩ := Option.ne_none_iff_exists'.1 closed
    obtain ⟨split, category, value, depth⟩ := ofBars?_eq_some found
    exact first region.inside region.closer region.after split ⟨category, value⟩ depth
  exact ⟨_, ofBars?_of_balanced balanced unclosed category value after, rfl⟩

end Region

namespace TokenCursor

variable {α : Type} {start : TokenCursor} {levels size : Nat}

/-- A run from a cursor ends as a list is read, and keeps what it has to keep also if it ends with
an error. If it finds something, the cursor is further on in the region, at a place that is told. -/
def Disciplined (start : TokenCursor) (run : Run α)
    (reading : Except ConversionError (α × List Placed)) (reached : Nat → Prop) : Prop :=
  ∃ outcome final, run start = some (outcome, final) ∧
    final.tokens = start.tokens ∧ final.stop = start.stop ∧ final.depth = start.depth ∧
    final.deepest ≤ max start.deepest maxLevels ∧
    match outcome with
    | .ok found => reading = .ok (found, final.ahead) ∧ start.place ≤ final.place ∧
        final.place ≤ final.stop ∧ reached final.place
    | .error cause => reading = .error cause

theorem Follows.disciplined {tokens : List Placed}
    {reading : Except ConversionError (α × List Placed)} {run : Run α} {reached : Nat → Prop}
    (follows : Follows levels size tokens reading run) (ready : Ready levels size start)
    (ahead : start.ahead = tokens)
    (reaches : ∀ found final, reading = .ok (found, final.ahead) → GoesOn start final →
      reached final.place) :
    Disciplined start run reading reached := by
  have ends := follows start ready ahead
  cases reading with
  | ok found =>
    obtain ⟨final, houtcome, goes, hahead⟩ := ends
    have hfound : (Except.ok found : Except ConversionError _) = .ok (found.1, final.ahead) := by
      rw [hahead]
    exact ⟨.ok found.1, final, houtcome, goes.tokens, goes.stop, goes.depth, goes.deepest, hfound,
      goes.place_le, goes.place_le_stop, reaches found.1 final hfound goes⟩
  | error cause =>
    obtain ⟨final, houtcome, keeps⟩ := ends
    exact ⟨.error cause, final, houtcome, keeps.tokens, keeps.stop, keeps.depth, keeps.deepest, rfl⟩

/-- The tokens ahead tell the place. -/
theorem GoesOn.add_length_ahead {final : TokenCursor} (goes : GoesOn start final)
    (ready : Ready levels size start) :
    final.place + final.ahead.length = start.place + start.ahead.length := by
  rw [length_ahead ready.stop_le, length_ahead (goes.ready ready).stop_le]
  have := ready.place_le
  have := goes.place_le_stop
  rw [goes.stop] at this ⊢
  omega

theorem length_lt_of_readAhead {followed : Bool} {placed : Placed} {tokens after : List Placed}
    {found : Formula} (h : readAhead levels followed (placed :: tokens) = .ok (found, after)) :
    after.length < (placed :: tokens).length := by
  have meets := Formula.sound levels placed tokens
  have taken : Formula.Takes tokens after := by
    cases followed with
    | true =>
      have whole := meets.2
      rw [show Formula.read levels true placed tokens = _ from h] at whole
      obtain ⟨_, _, same, -, taken⟩ := Formula.Reads.proceeds whole
      obtain ⟨rfl, rfl⟩ := List.cons.inj same
      exact taken
    | false =>
      have alone := meets.1
      rw [show Formula.read levels false placed tokens = _ from h] at alone
      obtain ⟨_, _, same, -, taken⟩ := Formula.Reads.proceeds alone
      obtain ⟨rfl, rfl⟩ := List.cons.inj same
      exact taken
  exact Nat.lt_succ_of_le taken.length_le

theorem read_reaches {followed : Bool} {final : TokenCursor} {found : Formula}
    (h : readAhead levels followed start.ahead = .ok (found, final.ahead))
    (goes : GoesOn start final) (ready : Ready levels size start)
    (inside : start.place < start.stop) : start.place < final.place := by
  have total := goes.add_length_ahead ready
  cases ahead : start.ahead with
  | nil => exact absurd ((ahead_eq_nil ready.stop_le).1 ahead) inside.not_ge
  | cons placed tokens =>
    rw [ahead] at h total
    have := length_lt_of_readAhead h
    omega

theorem toEnd_reaches {final : TokenCursor} {found? : Except ConversionError α} {found : α}
    (h : toEnd found? = .ok (found, final.ahead)) (goes : GoesOn start final)
    (ready : Ready levels size start) : final.place = start.stop := by
  cases found? with
  | error cause => cases h
  | ok value =>
    have nothing : final.ahead = [] := (Prod.mk.inj (Except.ok.inj h)).2.symm
    have atEnd := (ahead_eq_nil (goes.ready ready).stop_le).1 nothing
    rw [← goes.stop]
    exact le_antisymm goes.place_le_stop atEnd

theorem after_of_group {body? : Except ConversionError (List Formula)}
    {group : List Formula → Formula} {found : Formula} {after rest : List Placed}
    (h : (do let body ← body?; return (group body, rest)) = Except.ok (found, after)) :
    after = rest := by
  cases body? with
  | error cause => cases h
  | ok body => exact (Prod.mk.inj (Except.ok.inj h)).2.symm

theorem after_of_matrix {cells? : Except ConversionError Grid} {left right : String}
    {alignment : Alignment} {found : Formula} {after rest : List Placed}
    (h : (do
        let cells ← cells?
        match cells.toMatrix left right alignment with
        | some matrix => return (.matrix matrix, rest)
        | none => .error .ruleBeyondRow) = Except.ok (found, after)) :
    after = rest := by
  cases cells? with
  | error cause => cases h
  | ok cells =>
    dsimp only [bind, Except.bind] at h
    split at h
    · exact (Prod.mk.inj (Except.ok.inj h)).2.symm
    · cases h

theorem bracketRegion_after {leading : List Formula} {opener : Token} {behind after : List Placed}
    {region : Region} {found : Formula} (matched : Region.ofBrackets? 0 behind = some region)
    (h : Formula.bracketRegion (Formula.read levels) leading opener behind = .ok (found, after)) :
    after = region.after := by
  rw [Formula.bracketRegion, matched] at h
  dsimp only at h
  split at h
  · exact after_of_matrix h
  · exact after_of_group h

theorem barRegion_after {bar : Token} {behind after : List Placed} {region : Region}
    {found : Formula} (matched : Region.ofBars? bar.value 0 behind = some region)
    (h : Formula.barRegion (Formula.read levels) bar behind = .ok (found, after)) :
    after = region.after := by
  rw [Formula.barRegion, matched] at h
  dsimp only at h
  split at h
  · exact after_of_matrix h
  · exact after_of_group h

/-- Behind the closer of a region that begins at the cursor. -/
theorem region_reaches {final : TokenCursor} {placed : Placed} {region : Region}
    (ahead : start.ahead = placed :: (region.inside ++ region.closer :: region.after))
    (after : final.ahead = region.after) (goes : GoesOn start final)
    (ready : Ready levels size start) :
    final.place = start.place + region.inside.length + 2 := by
  have total := goes.add_length_ahead ready
  rw [ahead, after, List.length_cons, List.length_append, List.length_cons] at total
  omega

theorem exists_ahead_eq {token : Token} (ready : Ready levels size start)
    (inside : start.place < start.stop) (here : start.tokens[start.place]? = some token) :
    ∃ placed, placed.token = token ∧ start.ahead = placed :: start.step.ahead := by
  cases ahead : start.ahead with
  | nil => exact absurd ((ahead_eq_nil ready.stop_le).1 ahead) inside.not_ge
  | cons placed behind =>
    have found := (token_of_ahead_cons ahead).symm.trans here
    exact ⟨placed, Option.some.inj found, by rw [ahead_step ahead]⟩

section

variable {fuel : Nat} {deeper : Bool → Run Formula} (reads : ReadsAt levels size deeper)
  (ready : Ready levels size start)

include reads ready

theorem read_disciplined (followed : Bool) :
    Disciplined start (deeper followed) (readAhead levels followed start.ahead)
      fun place ↦ start.place < start.stop → start.place < place :=
  (reads followed start.ahead).disciplined ready rfl fun _ _ h goes ↦ read_reaches h goes ready

theorem sequence_disciplined (rounds : size < fuel) :
    Disciplined start (sequence deeper fuel)
      (toEnd (Formula.sequence (Formula.read levels true) start.ahead)) (· = start.stop) :=
  (sequence_follows reads rounds start.ahead).disciplined ready rfl fun _ _ h goes ↦
    toEnd_reaches h goes ready

theorem grid_disciplined (rounds : size < fuel) (ruled : Bool) (leading : List Formula) :
    Disciplined start (grid deeper fuel ruled leading)
      (toEnd (Formula.grid (Formula.read levels true) ruled leading start.ahead))
      (· = start.stop) :=
  (grid_follows reads rounds ruled leading start.ahead).disciplined ready rfl fun _ _ h goes ↦
    toEnd_reaches h goes ready

theorem bracketRegion_disciplined (rounds : size < fuel) (leading : List Formula)
    {placed : Placed} (ahead : start.ahead = placed :: start.step.ahead) :
    Disciplined start (bracketRegion deeper fuel leading)
      (Formula.bracketRegion (Formula.read levels) leading placed.token start.step.ahead)
      fun place ↦ ∀ inside, Region.Encloses (·.category = .closer) start.step.ahead inside →
        place = start.place + inside.length + 2 := by
  refine (bracketRegion_follows reads rounds leading placed start.step.ahead).disciplined ready
    ahead fun found final h goes inside encloses ↦ ?_
  obtain ⟨region, matched, rfl⟩ := Region.exists_ofBrackets?_of_encloses encloses
  have split := (Region.ofBrackets?_eq_some matched).1
  rw [split] at ahead
  exact region_reaches ahead (bracketRegion_after matched h) goes ready

theorem barRegion_disciplined (rounds : size < fuel) {placed : Placed}
    (ahead : start.ahead = placed :: start.step.ahead) :
    Disciplined start (barRegion deeper fuel)
      (Formula.barRegion (Formula.read levels) placed.token start.step.ahead)
      fun place ↦ ∀ inside, Region.Encloses
          (fun mark ↦ mark.category = .bar ∧ mark.token.value = placed.token.value)
          start.step.ahead inside →
        place = start.place + inside.length + 2 := by
  refine (barRegion_follows reads rounds placed start.step.ahead).disciplined ready
    ahead fun found final h goes inside encloses ↦ ?_
  obtain ⟨region, matched, rfl⟩ := Region.exists_ofBars?_of_encloses encloses
  have split := (Region.ofBars?_eq_some matched).1
  rw [split] at ahead
  exact region_reaches ahead (barRegion_after matched h) goes ready

end

/-- From every place of every region, each reader ends as the list of the tokens ahead is read, and
gives back the region and the depth, also with an error. A formula takes at least one token of a
region that is not at its end, what fills a region goes to its end, and where a region begins at the
cursor and is closed, the cursor is behind the closer. -/
theorem readers_disciplined (start : TokenCursor) (place_le : start.place ≤ start.stop)
    (stop_le : start.stop ≤ start.tokens.size) (depth_le : start.depth ≤ maxLevels) (fuel : Nat)
    (enough : start.enoughFuel ≤ fuel) :
    let levels := maxLevels - start.depth
    let ofList := Formula.read levels
    (∀ followed, Disciplined start (read fuel followed) (readAhead levels followed start.ahead)
      fun place ↦ start.place < start.stop → start.place < place) ∧
    Disciplined start (operand (read fuel)) (Formula.operand ofList start.ahead) (fun _ ↦ True) ∧
    (∀ base, Disciplined start (attachFollowers (read fuel) fuel 0 base)
      (Formula.attachFollowers ofList levels levels base start.ahead) fun _ ↦ True) ∧
    (∀ base, Disciplined start (attachScripts (read fuel) fuel 0 base)
      (Formula.attachScripts ofList levels base start.ahead) fun _ ↦ True) ∧
    Disciplined start (sequence (read fuel) fuel)
      (toEnd (Formula.sequence (ofList true) start.ahead)) (· = start.stop) ∧
    (∀ ruled leading, Disciplined start (grid (read fuel) fuel ruled leading)
      (toEnd (Formula.grid (ofList true) ruled leading start.ahead)) (· = start.stop)) ∧
    ∀ token, start.place < start.stop → start.tokens[start.place]? = some token →
      Disciplined start (optionalScripts (read fuel) fuel token)
        (Formula.optionalScripts ofList token start.step.ahead) (fun _ ↦ True) ∧
      Disciplined start (derivative (read fuel) fuel token)
        (Formula.derivativeOf ofList levels token start.step.ahead) (fun _ ↦ True) ∧
      (∀ leading, Disciplined start (bracketRegion (read fuel) fuel leading)
        (Formula.bracketRegion ofList leading token start.step.ahead)
        fun place ↦ ∀ inside, Region.Encloses (·.category = .closer) start.step.ahead inside →
          place = start.place + inside.length + 2) ∧
      Disciplined start (barRegion (read fuel) fuel)
        (Formula.barRegion ofList token start.step.ahead)
        fun place ↦ ∀ inside, Region.Encloses
            (fun mark ↦ mark.category = .bar ∧ mark.token.value = token.value)
            start.step.ahead inside →
          place = start.place + inside.length + 2 := by
  intro levels ofList
  have ready : Ready levels start.tokens.size start :=
    ⟨place_le, stop_le, Nat.le_refl _, Nat.add_sub_cancel' depth_le⟩
  have room : 2 * levels + start.tokens.size + 2 < fuel := by
    rw [enoughFuel] at enough
    omega
  have reads := readsAt room
  have rounds : start.tokens.size < fuel := by omega
  have scripts : 2 < fuel := by omega
  have chain : levels < fuel := by omega
  have chains : levels + levels < fuel := by omega
  refine ⟨read_disciplined reads ready, ?_, fun base ↦ ?_, fun base ↦ ?_,
    sequence_disciplined reads ready rounds, grid_disciplined reads ready rounds,
    fun token inside here ↦ ?_⟩
  · exact (operand_follows reads start.ahead).disciplined ready rfl fun _ _ _ _ ↦ trivial
  · exact (attachFollowers_follows reads (Nat.zero_add levels) chains base
      start.ahead).disciplined ready rfl fun _ _ _ _ ↦ trivial
  · exact (attachScripts_follows reads (Nat.zero_add levels) chain base start.ahead).disciplined
      ready rfl fun _ _ _ _ ↦ trivial
  obtain ⟨placed, rfl, ahead⟩ := exists_ahead_eq ready inside here
  refine ⟨?_, ?_, fun leading ↦ bracketRegion_disciplined reads ready rounds leading ahead,
    barRegion_disciplined reads ready rounds ahead⟩
  · exact (optionalScripts_follows reads scripts placed.token placed
      start.step.ahead).disciplined ready ahead fun _ _ _ _ ↦ trivial
  · exact (derivative_follows reads chain placed.token placed start.step.ahead).disciplined ready
      ahead fun _ _ _ _ ↦ trivial

/-- Two levels below the limit, a group with bars in it inside a larger region. -/
theorem readers_disciplined_innerGroup :
    let opener : Token := ⟨"(", "\\left(", .opener, true, none, ⟨1, 2⟩⟩
    let bar : Token := ⟨"|", "|", .bar, true, none, ⟨1, 4⟩⟩
    let closer : Token := ⟨")", "\\right)", .closer, true, none, ⟨1, 8⟩⟩
    let name (column : Nat) : Token := .literal ['x'] .run ⟨1, column⟩
    let start : TokenCursor :=
      ⟨#[name 1, opener, name 3, bar, name 5, bar, closer, name 9, name 10], 1, 8, 62, 62⟩
    let fuel := start.enoughFuel
    start.place ≤ start.stop ∧ start.stop ≤ start.tokens.size ∧ start.depth ≤ maxLevels ∧
      ∃ found final, bracketRegion (read fuel) fuel [] start = some (.ok found, final) ∧
        final.place = 7 ∧ final.stop = 8 ∧ final.depth = 62 ∧ final.deepest ≤ 64 := by
  intro opener bar closer name start fuel
  have place_le : start.place ≤ start.stop := by decide
  have stop_le : start.stop ≤ start.tokens.size := by decide
  have depth_le : start.depth ≤ maxLevels := by decide
  obtain ⟨-, -, -, -, -, -, regions⟩ :=
    readers_disciplined start place_le stop_le depth_le fuel (Nat.le_refl _)
  obtain ⟨-, -, brackets, -⟩ := regions opener (by decide) rfl
  obtain ⟨outcome, final, run, -, stop, depth, deepest, ends⟩ := brackets []
  refine ⟨place_le, stop_le, depth_le, ?_⟩
  have reads : ∃ found after, Formula.bracketRegion (Formula.read 2) [] opener start.step.ahead =
      .ok (found, after) := ⟨_, _, rfl⟩
  have encloses : Region.Encloses (·.category = .closer) start.step.ahead
      [⟨name 3, false⟩, ⟨bar, false⟩, ⟨name 5, false⟩, ⟨bar, false⟩] := by
    refine ⟨⟨closer, false⟩, [⟨name 9, false⟩], rfl, rfl, rfl,
      fun front other back split closes ↦ ?_⟩
    have open' : ∀ placed ∈ [⟨name 3, false⟩, ⟨bar, false⟩, ⟨name 5, false⟩, ⟨bar, false⟩],
        Placed.category placed ≠ .closer := by decide
    exact absurd closes (open' other (by rw [split]; simp))
  cases outcome with
  | error cause =>
    obtain ⟨found, after, reads⟩ := reads
    cases reads.symm.trans ends
  | ok found =>
    obtain ⟨-, -, -, behind⟩ := ends
    exact ⟨found, final, run, behind _ encloses, stop, depth, deepest⟩

end TokenCursor

end AsciiMath
