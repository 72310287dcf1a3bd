import AsciiMath.Proofs.Formula.Ahead

/-!
# Runs of a cursor

A run is told by a reading of what is ahead of the cursor: it ends, with the same find or the same
error. It keeps its region and its depth even if it has an error, and it is never deeper than
formulas may be nested. If it finds something, the cursor is further on in the region, and ahead of
it is what the reading leaves. This is passed on from the parts of a run to the whole run.
-/

namespace AsciiMath.TokenCursor

variable {α β : Type} {start middle final : TokenCursor}

/-- What a run keeps, and how deep it may have been. -/
structure Keeps (start final : TokenCursor) : Prop where
  tokens : final.tokens = start.tokens
  stop : final.stop = start.stop
  depth : final.depth = start.depth
  deepest : final.deepest ≤ max start.deepest maxLevels

/-- The cursor is further on in its region. -/
structure GoesOn (start final : TokenCursor) : Prop extends Keeps start final where
  place_le : start.place ≤ final.place
  place_le_stop : final.place ≤ final.stop

theorem Keeps.refl (start : TokenCursor) : Keeps start start :=
  ⟨rfl, rfl, rfl, Nat.le_max_left _ _⟩

theorem Keeps.trans (first : Keeps start middle) (second : Keeps middle final) :
    Keeps start final where
  tokens := second.tokens.trans first.tokens
  stop := second.stop.trans first.stop
  depth := second.depth.trans first.depth
  deepest := second.deepest.trans (max_le first.deepest (Nat.le_max_right _ _))

theorem GoesOn.refl {levels size : Nat} (ready : Ready levels size start) : GoesOn start start :=
  ⟨.refl start, Nat.le_refl _, ready.place_le⟩

theorem GoesOn.trans (first : GoesOn start middle) (second : GoesOn middle final) :
    GoesOn start final :=
  ⟨first.toKeeps.trans second.toKeeps, first.place_le.trans second.place_le, second.place_le_stop⟩

theorem GoesOn.ready {levels size : Nat} (goes : GoesOn start final)
    (ready : Ready levels size start) : Ready levels size final where
  place_le := goes.place_le_stop
  stop_le := by rw [goes.stop, goes.tokens]; exact ready.stop_le
  size_le := by rw [goes.tokens]; exact ready.size_le
  depth_add := by rw [goes.depth]; exact ready.depth_add

theorem GoesOn.step (inside : start.place < start.stop) : GoesOn start start.step where
  toKeeps := ⟨rfl, rfl, rfl, Nat.le_max_left _ _⟩
  place_le := Nat.le_succ _
  place_le_stop := inside

/-- The outcome of a run that is told by a reading. -/
def Ends (start : TokenCursor) (reading : Except ConversionError (α × List Placed))
    (outcome? : Option (Except ConversionError α × TokenCursor)) : Prop :=
  match reading with
  | .ok (found, after) =>
    ∃ final, outcome? = some (.ok found, final) ∧ GoesOn start final ∧ final.ahead = after
  | .error cause => ∃ final, outcome? = some (.error cause, final) ∧ Keeps start final

theorem Ends.earlier {reading : Except ConversionError (α × List Placed)}
    {outcome? : Option (Except ConversionError α × TokenCursor)} (goes : GoesOn start middle)
    (ends : Ends middle reading outcome?) : Ends start reading outcome? := by
  cases reading with
  | ok found =>
    obtain ⟨final, houtcome, more, hahead⟩ := ends
    exact ⟨final, houtcome, goes.trans more, hahead⟩
  | error cause =>
    obtain ⟨final, houtcome, more⟩ := ends
    exact ⟨final, houtcome, goes.toKeeps.trans more⟩

/-- Wherever these tokens are ahead among so many, and so many levels are left, the run is told by
the reading. -/
def Follows (levels size : Nat) (tokens : List Placed)
    (reading : Except ConversionError (α × List Placed)) (run : Run α) : Prop :=
  ∀ start, Ready levels size start → start.ahead = tokens → Ends start reading (run start)

theorem bind_apply (run : Run α) (more : α → Run β) (start : TokenCursor) :
    (run >>= more) start =
      match run start with
      | none => none
      | some (.ok found, final) => more found final
      | some (.error cause, final) => some (.error cause, final) := by
  change Option.bind (run start) _ = _
  cases run start with
  | none => rfl
  | some outcome =>
    obtain ⟨found | cause, final⟩ := outcome <;> rfl

theorem tokenAt_eq {place : Nat} {token : Token} (h : start.tokens[place]? = some token) :
    tokenAt place start = some (.ok token, start) := by
  rw [tokenAt, look, h]
  rfl

theorem tokenAt_closer {inside after : List Placed} {closer : Placed}
    (split : start.ahead = inside ++ closer :: after) :
    tokenAt (start.place + inside.length) start = some (.ok closer.token, start) := by
  have found : start.ahead[inside.length]? = some closer := by
    rw [split]
    simp
  exact tokenAt_eq (token_of_ahead found)

/-- A reading that leaves nothing. -/
def toEnd (found? : Except ConversionError α) : Except ConversionError (α × List Placed) :=
  (·, []) <$> found?

theorem toEnd_bind (found? : Except ConversionError β) (more : β → Except ConversionError α) :
    toEnd (found? >>= more) = found? >>= fun found ↦ toEnd (more found) := by
  cases found? <;> rfl

theorem bind_toEnd (found? : Except ConversionError α) (f : α → β) :
    (found? >>= fun found ↦ pure (f found, [])) = toEnd (f <$> found?) := by
  cases found? <;> rfl

namespace Follows

variable {levels size : Nat} {tokens rest : List Placed} {placed : Placed}
  {reading : Except ConversionError (α × List Placed)}

theorem pure (found : α) (tokens : List Placed) :
    Follows levels size tokens (.ok (found, tokens)) (pure found) :=
  fun start ready ahead ↦ ⟨start, rfl, .refl ready, ahead⟩

theorem throw (cause : ConversionError) (tokens : List Placed) :
    Follows levels size tokens (.error cause) (throw cause : Run α) :=
  fun start _ _ ↦ ⟨start, rfl, .refl start⟩

theorem bind {run : Run α} {more : α → Run β}
    {next : α × List Placed → Except ConversionError (β × List Placed)}
    (first : Follows levels size tokens reading run)
    (second : ∀ found after, reading = .ok (found, after) →
      Follows levels size after (next (found, after)) (more found)) :
    Follows levels size tokens (reading >>= next) (run >>= more) := by
  intro start ready ahead
  have ends := first start ready ahead
  rw [bind_apply]
  cases reading with
  | ok found =>
    obtain ⟨middle, houtcome, goes, hahead⟩ := ends
    rw [houtcome]
    exact (second found.1 found.2 rfl middle (goes.ready ready) hahead).earlier goes
  | error cause =>
    obtain ⟨final, houtcome, keeps⟩ := ends
    rw [houtcome]
    exact ⟨final, rfl, keeps⟩

/-- No more tokens are ahead than there are. -/
theorem ofFits {run : Run α}
    (follows : tokens.length ≤ size → Follows levels size tokens reading run) :
    Follows levels size tokens reading run := by
  intro start ready ahead
  have fits : tokens.length ≤ size := by
    rw [← ahead, length_ahead ready.stop_le]
    exact (Nat.sub_le _ _).trans (ready.stop_le.trans ready.size_le)
  exact follows fits start ready ahead

theorem map {run : Run α} (first : Follows levels size tokens reading run) (f : α → β) :
    Follows levels size tokens
      (reading >>= fun found ↦ Pure.pure (f found.1, found.2))
      (run >>= fun found ↦ Pure.pure (f found)) :=
  first.bind fun found after _ ↦ pure (f found) after

theorem mapEnd {found? : Except ConversionError α} {run : Run α}
    (first : Follows levels size tokens (toEnd found?) run) (f : α → β) :
    Follows levels size tokens (toEnd (f <$> found?))
      (run >>= fun found ↦ Pure.pure (f found)) := by
  have mapped := first.map f
  cases found? <;> exact mapped

/-- The same run, with one look at the cursor before. -/
theorem look {sight : β} {sight? : TokenCursor → Option β} {more : β → Run α}
    (seen : ∀ start, Ready levels size start → start.ahead = tokens → sight? start = some sight)
    (second : Follows levels size tokens reading (more sight)) :
    Follows levels size tokens reading (look sight? >>= more) := by
  intro start ready ahead
  have sighted : TokenCursor.look sight? start = some (.ok sight, start) := by
    rw [TokenCursor.look, seen start ready ahead]
    rfl
  rw [bind_apply, sighted]
  exact second start ready ahead

theorem next {more : Option Token → Run α}
    (second : Follows levels size tokens reading (more (tokens.head?.map (·.token)))) :
    Follows levels size tokens reading (next >>= more) := by
  refine look (fun start ready ahead ↦ ?_) second
  rw [next?_eq ready.stop_le, ahead]

theorem step {more : PUnit → Run α} (second : Follows levels size rest reading (more ⟨⟩)) :
    Follows levels size (placed :: rest) reading (modify TokenCursor.step >>= more) := by
  intro start ready ahead
  have inside := place_lt_of_ahead ready.stop_le ahead
  have goes : GoesOn start start.step := .step inside
  exact (second start.step (goes.ready ready) (ahead_step ahead)).earlier goes

/-- A look at the extent of the region that begins at the cursor, if it is closed at all. -/
theorem lookRegion {closes : Token → Bool} (matched? : Option Region)
    {more : Option Extent → Run α}
    (seen : ∀ start : TokenCursor, start.stop ≤ start.tokens.size → start.ahead = tokens →
      start.extent? closes = some (matched?.map (extentAt start.place false 0)))
    (second : ∀ start, Ready levels size start → start.ahead = tokens →
      Ends start reading (more (matched?.map (extentAt start.place false 0)) start)) :
    Follows levels size tokens reading (TokenCursor.look (extent? closes) >>= more) := by
  intro start ready ahead
  have sighted : TokenCursor.look (extent? closes) start =
      some (.ok (matched?.map (extentAt start.place false 0)), start) := by
    rw [TokenCursor.look, seen start ready.stop_le ahead]
    rfl
  rw [bind_apply, sighted]
  exact second start ready ahead

theorem here {more : Token → Run α}
    (second : Follows levels size (placed :: rest) reading (more placed.token)) :
    Follows levels size (placed :: rest) reading
      (get >>= fun cursor : TokenCursor ↦ tokenAt cursor.place >>= more) := by
  intro start ready ahead
  change Ends start reading ((tokenAt start.place >>= more) start)
  rw [bind_apply, tokenAt_eq (token_of_ahead_cons ahead)]
  exact second start ready ahead

/-- What is ahead and the levels left decide which way a run goes. -/
theorem ofHolds {holds : TokenCursor → Prop} [DecidablePred holds] {more other : Run α}
    (seen : ∀ start, Ready levels size start → start.ahead = tokens → holds start)
    (second : Follows levels size tokens reading more) :
    Follows levels size tokens reading
      (get >>= fun cursor : TokenCursor ↦ if holds cursor then more else other) := by
  intro start ready ahead
  change Ends start reading ((if holds start then more else other : Run α) start)
  rw [if_pos (seen start ready ahead)]
  exact second start ready ahead

theorem ofFails {holds : TokenCursor → Prop} [DecidablePred holds] {more other : Run α}
    (seen : ∀ start, Ready levels size start → start.ahead = tokens → ¬ holds start)
    (second : Follows levels size tokens reading other) :
    Follows levels size tokens reading
      (get >>= fun cursor : TokenCursor ↦ if holds cursor then more else other) := by
  intro start ready ahead
  change Ends start reading ((if holds start then more else other : Run α) start)
  rw [if_neg (seen start ready ahead)]
  exact second start ready ahead

theorem atEnd {more done : Run α} (second : Follows levels size [] reading done) :
    Follows levels size [] reading
      (get >>= fun cursor : TokenCursor ↦ if cursor.place < cursor.stop then more else done) :=
  second.ofFails fun _ ready ahead ↦ ((ahead_eq_nil ready.stop_le).1 ahead).not_gt

theorem beforeEnd {more done : Run α} (second : Follows levels size (placed :: rest) reading more) :
    Follows levels size (placed :: rest) reading
      (get >>= fun cursor : TokenCursor ↦ if cursor.place < cursor.stop then more else done) :=
  second.ofHolds fun _ ready ahead ↦ place_lt_of_ahead ready.stop_le ahead

theorem onLastLevel {deep more : Run α} (second : Follows 0 size tokens reading deep) :
    Follows 0 size tokens reading
      (get >>= fun cursor : TokenCursor ↦ if maxLevels ≤ cursor.depth then deep else more) :=
  second.ofHolds fun _ ready _ ↦ ready.depth_add.ge

theorem beforeLastLevel {deep more : Run α}
    (second : Follows (levels + 1) size tokens reading more) :
    Follows (levels + 1) size tokens reading
      (get >>= fun cursor : TokenCursor ↦ if maxLevels ≤ cursor.depth then deep else more) :=
  second.ofFails fun _ ready _ ↦ by
    have := ready.depth_add
    omega

/-- A chain with as many links as there are levels left has no further one. -/
theorem chainEnds {more : PUnit → Run α} (token : Token) {links : Nat} (long : levels ≤ links) :
    Follows levels size tokens (.error (.nestingTooDeep token.position))
      (checkChain token links >>= more) := by
  intro start ready ahead
  have full : maxLevels ≤ start.depth + links := by
    have := ready.depth_add
    omega
  have stopped : checkChain token links start =
      some (.error (.nestingTooDeep token.position), start) := by
    change (if maxLevels ≤ start.depth + links then MonadExcept.throw _ else _ : Run Unit) start = _
    rw [if_pos full]
    rfl
  rw [bind_apply, stopped]
  exact ⟨start, rfl, .refl start⟩

theorem chainGoesOn {more : PUnit → Run α} {token : Token} {links : Nat} (short : links < levels)
    (second : Follows levels size tokens reading (more ⟨⟩)) :
    Follows levels size tokens reading (checkChain token links >>= more) := by
  intro start ready ahead
  have free : ¬ maxLevels ≤ start.depth + links := by
    have := ready.depth_add
    omega
  have passed : checkChain token links start = some (.ok ⟨⟩, start) := by
    change (if maxLevels ≤ start.depth + links then MonadExcept.throw _ else _ : Run Unit) start = _
    rw [if_neg free]
    rfl
  rw [bind_apply, passed]
  exact second start ready ahead

theorem nested {run : Run α} (inner : Follows levels size tokens reading run) :
    Follows (levels + 1) size tokens reading (nested run) := by
  intro start ready ahead
  have depth := ready.depth_add
  have deeper : Ready levels size start.descend :=
    ⟨ready.place_le, ready.stop_le, ready.size_le, by simp only [descend]; omega⟩
  have ends := inner start.descend deeper ahead
  -- What a run keeps one level deeper, it keeps when the depth is put back.
  have restored : ∀ final, Keeps start.descend final →
      ∃ back, final.ascend? = some back ∧ back.place = final.place ∧ Keeps start back := by
    intro final keeps
    have hdepth : final.depth = start.depth + 1 := keeps.depth
    have hdeepest : final.deepest ≤ max (max start.deepest (start.depth + 1)) maxLevels :=
      keeps.deepest
    refine ⟨{ final with depth := start.depth }, ?_, rfl, keeps.tokens, keeps.stop, rfl, ?_⟩
    · simp only [ascend?, hdepth]
    · change final.deepest ≤ _
      omega
  cases reading with
  | ok found =>
    obtain ⟨final, houtcome, goes, hahead⟩ := ends
    obtain ⟨back, hback, hplace, keeps⟩ := restored final goes.toKeeps
    refine ⟨back, ?_, ⟨keeps, ?_, ?_⟩, ?_⟩
    · simp [TokenCursor.nested, houtcome, hback]
    · rw [hplace]
      exact goes.place_le
    · rw [hplace, keeps.stop]
      exact goes.stop ▸ goes.place_le_stop
    · rw [← hahead]
      exact ahead_congr (keeps.tokens.trans goes.tokens.symm) (keeps.stop.trans goes.stop.symm)
        hplace
  | error cause =>
    obtain ⟨final, houtcome, keeps⟩ := ends
    obtain ⟨back, hback, -, keeps⟩ := restored final keeps
    exact ⟨back, by simp [TokenCursor.nested, houtcome, hback], keeps⟩

end Follows

/-- The inside of a region is read to its end, and the run goes on behind the closer. -/
theorem Ends.enclosed {levels size : Nat} {inside after : List Placed} {closer : Placed}
    {found? : Except ConversionError α} {run : Run α} {more : α → Run β}
    {next : α → Except ConversionError (β × List Placed)} (ready : Ready levels size start)
    (split : start.ahead = inside ++ closer :: after)
    (inner : Follows levels size inside (toEnd found?) run)
    (second : ∀ found, found? = .ok found → Follows levels size after (next found) (more found)) :
    Ends start (found? >>= next)
      ((confined (start.place + inside.length) run >>= fun found ↦
        modify (·.goTo (start.place + inside.length + 1)) >>= fun _ ↦ more found) start) := by
  have length := length_ahead ready.stop_le
  rw [split, List.length_append, List.length_cons] at length
  have within : start.place + inside.length < start.stop := by omega
  have narrow : Ready levels size (start.upTo (start.place + inside.length)) :=
    ⟨Nat.le_add_right _ _, within.le.trans ready.stop_le, ready.size_le, ready.depth_add⟩
  have ahead : (start.upTo (start.place + inside.length)).ahead = inside := by
    rw [ahead_upTo within.le, split, List.take_left]
  have ends := inner _ narrow ahead
  rw [bind_apply]
  cases found? with
  | ok found =>
    obtain ⟨final, houtcome, goes, -⟩ := ends
    have behind : GoesOn start
        ((final.upTo start.stop).goTo (start.place + inside.length + 1)) :=
      ⟨⟨goes.tokens, rfl, goes.depth, goes.deepest⟩,
        (Nat.le_add_right start.place (inside.length + 1)), within⟩
    have hahead := calc
      ((final.upTo start.stop).goTo (start.place + inside.length + 1)).ahead =
          (start.goTo (start.place + (inside.length + 1))).ahead := ahead_congr goes.tokens rfl rfl
      _ = (inside ++ closer :: after).drop (inside.length + 1) := by rw [ahead_goTo, split]
      _ = after := by simp
    have houter : confined (start.place + inside.length) run start =
        some (.ok found, final.upTo start.stop) := by
      simp [confined, houtcome]
    rw [houter]
    exact (second found rfl _ (behind.ready ready) hahead).earlier behind
  | error cause =>
    obtain ⟨final, houtcome, keeps⟩ := ends
    have houter : confined (start.place + inside.length) run start =
        some (.error cause, final.upTo start.stop) := by
      simp [confined, houtcome]
    rw [houter]
    exact ⟨final.upTo start.stop, rfl, keeps.tokens, rfl, keeps.depth, keeps.deepest⟩

end AsciiMath.TokenCursor
