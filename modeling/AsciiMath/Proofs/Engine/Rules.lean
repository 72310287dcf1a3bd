import AsciiMath.Engine.Revision
import Mathlib.Data.List.Induction

/-!
# Rules one after the other

Rules that are applied together do what they do in two parts, the second part to what the first one
has left. A text counts as given as long as no rule matches what it is handed, and is then the one
that was given; a rule that matches is never forgotten, whatever follows it. A list of rules is
refused for the first of its patterns that cannot be read.
-/

namespace AsciiMath.Rules

variable {ρ : Type} [PatternLanguage ρ]

section Reading

variable {index : Nat} {pairs : List (String × String)} {rules : Rules ρ}

/-- A rule from its pattern and its replacement, if the pattern can be read. -/
def ofPair? (pair : String × String) : Option (Rule ρ) :=
  (PatternLanguage.ofString? pair.1).map (⟨·, pair.2⟩)

theorem ofPairsFrom_cons_none {pair : String × String}
    (h : (ofPair? pair : Option (Rule ρ)) = none) :
    (ofPairsFrom index (pair :: pairs) : Except ConfigError (Rules ρ)) =
      .error (.invalidRule index) := by
  rw [ofPairsFrom, Option.map_eq_none_iff.1 h]

theorem ofPairsFrom_cons_some {pair : String × String} {rule : Rule ρ}
    (h : ofPair? pair = some rule) :
    ofPairsFrom index (pair :: pairs) = (rule :: ·) <$> ofPairsFrom (index + 1) pairs := by
  obtain ⟨pattern, read, rfl⟩ := Option.map_eq_some_iff.1 h
  rw [ofPairsFrom, read]

theorem ofPairsFrom_eq_ok :
    ofPairsFrom index pairs = .ok rules ↔ pairs.map ofPair? = rules.map some := by
  induction pairs generalizing index rules with
  | nil => cases rules <;> simp [ofPairsFrom]
  | cons pair pairs ih =>
    rw [List.map_cons]
    cases h : (ofPair? pair : Option (Rule ρ)) with
    | none =>
      rw [ofPairsFrom_cons_none h]
      cases rules <;> simp
    | some rule =>
      rw [ofPairsFrom_cons_some h]
      cases rules with
      | nil => cases (ofPairsFrom (index + 1) pairs : Except ConfigError (Rules ρ)) <;> simp
      | cons first rules =>
        have more : ofPairsFrom (index + 1) pairs = .ok rules ↔ _ := ih
        rw [List.map_cons, List.cons.injEq, ← more]
        cases (ofPairsFrom (index + 1) pairs : Except ConfigError (Rules ρ)) <;> simp

theorem ofPairsFrom_eq_error {cause : ConfigError} :
    (ofPairsFrom index pairs : Except ConfigError (Rules ρ)) = .error cause ↔
      ∃ place, pairs.findIdx? (fun pair ↦ (ofPair? pair : Option (Rule ρ)).isNone) = some place ∧
        cause = .invalidRule (index + place) := by
  induction pairs generalizing index with
  | nil => simp [ofPairsFrom]
  | cons pair pairs ih =>
    rw [List.findIdx?_cons]
    cases h : (ofPair? pair : Option (Rule ρ)) with
    | none =>
      rw [ofPairsFrom_cons_none h]
      simp [eq_comm]
    | some rule =>
      have passed : (rule :: ·) <$> (ofPairsFrom (index + 1) pairs : Except ConfigError (Rules ρ)) =
          .error cause ↔ ofPairsFrom (index + 1) pairs = (.error cause : Except _ (Rules ρ)) := by
        cases (ofPairsFrom (index + 1) pairs : Except ConfigError (Rules ρ)) <;> simp
      rw [ofPairsFrom_cons_some h, passed, ih]
      simp only [Option.isNone_some, Bool.false_eq_true, if_false]
      constructor
      · rintro ⟨place, found, rfl⟩
        exact ⟨place + 1, by rw [found]; rfl, by rw [Nat.add_right_comm, Nat.add_assoc]⟩
      · rintro ⟨place, found, rfl⟩
        obtain ⟨place, later, rfl⟩ := Option.map_eq_some_iff.1 found
        exact ⟨place, later, by rw [Nat.add_right_comm, Nat.add_assoc]⟩

theorem ofPairs_eq_error {cause : ConfigError} :
    (ofPairs pairs : Except ConfigError (Rules ρ)) = .error cause ↔
      ∃ place, pairs.findIdx? (fun pair ↦ (PatternLanguage.ofString? pair.1 : Option ρ).isNone) =
          some place ∧ cause = .invalidRule place := by
  have unread (pair : String × String) : (ofPair? pair : Option (Rule ρ)).isNone =
      (PatternLanguage.ofString? pair.1 : Option ρ).isNone := Option.isNone_map
  rw [ofPairs, ofPairsFrom_eq_error]
  simp only [unread, Nat.zero_add]

theorem exists_ofPairs_eq_error :
    (∃ cause, (ofPairs pairs : Except ConfigError (Rules ρ)) = .error cause) ↔
      ∃ pair ∈ pairs, (PatternLanguage.ofString? pair.1 : Option ρ) = none := by
  have found_iff : (pairs.findIdx?
      fun pair ↦ (PatternLanguage.ofString? pair.1 : Option ρ).isNone).isSome ↔
        ∃ pair ∈ pairs, (PatternLanguage.ofString? pair.1 : Option ρ) = none := by
    simp only [List.findIdx?_isSome, List.any_eq_true, Option.isNone_iff_eq_none]
  rw [← found_iff, Option.isSome_iff_exists]
  constructor
  · rintro ⟨cause, refused⟩
    obtain ⟨place, found, -⟩ := ofPairs_eq_error.1 refused
    exact ⟨place, found⟩
  · rintro ⟨place, found⟩
    exact ⟨_, ofPairs_eq_error.2 ⟨place, found, rfl⟩⟩

end Reading

section Applying

variable {rule : Rule ρ} {held : Revision}

theorem revise_of_none
    (h : PatternLanguage.replaceAll? rule.pattern rule.replacement held.text = none) :
    Rule.revise held rule = held := by
  rw [Rule.revise, h]

theorem revise_of_some {text : String}
    (h : PatternLanguage.replaceAll? rule.pattern rule.replacement held.text = some text) :
    Rule.revise held rule = .changed text := by
  rw [Rule.revise, h]

/-- What rules have made counts as changed, whatever the rules behind them do. -/
theorem foldl_changed (rules : Rules ρ) (text : String) :
    rules.foldl Rule.revise (.changed text) = .changed (rules.revise text).text := by
  induction rules generalizing text with
  | nil => rfl
  | cons rule rules ih =>
    rw [revise, List.foldl_cons, List.foldl_cons]
    cases h : PatternLanguage.replaceAll? rule.pattern rule.replacement text with
    | none =>
      rw [revise_of_none h, revise_of_none h]
      exact ih text
    | some changed =>
      rw [revise_of_some h, revise_of_some h, ih]
      rfl

theorem eq_of_revise_eq_given {rules : Rules ρ} {input text : String}
    (h : rules.revise input = .given text) : text = input := by
  induction rules with
  | nil => exact (Revision.given.inj h).symm
  | cons rule rules ih =>
    rw [revise, List.foldl_cons] at h
    cases hmatch : PatternLanguage.replaceAll? rule.pattern rule.replacement input with
    | none =>
      rw [revise_of_none hmatch] at h
      exact ih h
    | some changed =>
      rw [revise_of_some hmatch, foldl_changed] at h
      cases h

theorem revise_append (front back : Rules ρ) (input : String) :
    revise (front ++ back) input =
      match front.revise input with
      | .given text => back.revise text
      | .changed text => .changed (back.revise text).text := by
  rw [revise, List.foldl_append]
  change back.foldl Rule.revise (front.revise input) = _
  cases front.revise input with
  | given text => rfl
  | changed text => exact foldl_changed back text

theorem isGiven_revise_rule :
    (Rule.revise held rule).isGiven ↔ held.isGiven ∧
      PatternLanguage.replaceAll? rule.pattern rule.replacement held.text = none := by
  cases h : PatternLanguage.replaceAll? rule.pattern rule.replacement held.text with
  | none => simp [revise_of_none h]
  | some text => simp [revise_of_some h, Revision.isGiven]

/-- A text counts as given if and only if none of the rules matches what it is handed. -/
theorem isGiven_revise {rules : Rules ρ} {input : String} :
    (rules.revise input).isGiven ↔ ∀ earlier rule later, rules = earlier ++ rule :: later →
      PatternLanguage.replaceAll? rule.pattern rule.replacement (revise earlier input).text =
        none := by
  -- from the back, since what a rule is handed depends on the rules before it only
  induction rules using List.reverseRecOn with
  | nil =>
    refine iff_of_true rfl fun earlier rule later h ↦ ?_
    exact absurd h.symm (by simp)
  | append_singleton rules last ih =>
    have step : revise (rules ++ [last]) input = Rule.revise (revise rules input) last := by
      rw [revise, List.foldl_append]
      rfl
    rw [step, isGiven_revise_rule, ih]
    constructor
    · rintro ⟨front, final⟩ earlier rule later h
      -- the rule is the last one, or it is one of those before
      rcases List.eq_nil_or_concat later with rfl | ⟨later, other, rfl⟩
      · obtain ⟨rfl, same⟩ := List.append_inj' h rfl
        obtain rfl := (List.cons.inj same).1
        exact final
      · rw [List.concat_eq_append, ← List.cons_append, ← List.append_assoc] at h
        exact front earlier rule later (List.append_inj' h rfl).1
    · intro all
      refine ⟨fun earlier rule later h ↦ ?_, all rules last [] rfl⟩
      refine all earlier rule (later ++ [last]) ?_
      rw [h, List.append_assoc]
      rfl

/-- What is changed, and whether it is, is known without what is held in between. -/
theorem revise_eq (rules : Rules ρ) (input : String) :
    rules.revise input =
      match rules.change? input with
      | none => .given input
      | some text => .changed text := by
  induction rules generalizing input with
  | nil => rfl
  | cons rule rules ih =>
    rw [revise, List.foldl_cons, change?]
    cases h : PatternLanguage.replaceAll? rule.pattern rule.replacement input with
    | none =>
      rw [revise_of_none h]
      exact ih input
    | some changed =>
      rw [revise_of_some h, foldl_changed, ih]
      dsimp only
      cases change? rules changed <;> rfl

theorem text_revise (rules : Rules ρ) (input : String) :
    (rules.revise input).text = rules.apply input := by
  rw [revise_eq, apply]
  cases rules.change? input <;> rfl

theorem isGiven_revise_eq (rules : Rules ρ) (input : String) :
    (rules.revise input).isGiven = (rules.change? input).isNone := by
  rw [revise_eq]
  cases rules.change? input <;> rfl

end Applying

/-- Lists of rules are read as one list if each of them is, and refused together for the first
pattern that cannot be read. Together they make of a text what the second list makes of the text
that the first one has left. The text counts as given if and only if no rule has matched, which is
to say in both lists, and is then the one that was given. -/
theorem ofPairs_append (Matches : ρ → String → Prop)
    (unmatched : ∀ pattern replacement text,
      PatternLanguage.replaceAll? pattern replacement text = none ↔ ¬ Matches pattern text)
    (first second : List (String × String)) :
    (∀ cause, (ofPairs (first ++ second) : Except ConfigError (Rules ρ)) = .error cause ↔
      ∃ place, (first ++ second).findIdx?
          (fun pair ↦ (PatternLanguage.ofString? pair.1 : Option ρ).isNone) = some place ∧
        cause = .invalidRule place) ∧
    ((∃ cause, (ofPairs (first ++ second) : Except ConfigError (Rules ρ)) = .error cause) ↔
      ∃ pair ∈ first ++ second, (PatternLanguage.ofString? pair.1 : Option ρ) = none) ∧
    ∀ front back : Rules ρ, ofPairs first = .ok front → ofPairs second = .ok back →
      ofPairs (first ++ second) = .ok (front ++ back) ∧
      (first ++ second).map (fun pair ↦ (PatternLanguage.ofString? pair.1).map (⟨·, pair.2⟩)) =
        (front ++ back).map some ∧
      ∀ input, let halfway := front.revise input
        let final := back.revise halfway.text
        let whole := revise (front ++ back) input
        whole.text = final.text ∧
        (whole.isGiven ↔ halfway.isGiven ∧ final.isGiven) ∧
        (whole.isGiven ↔ ∀ earlier rule later, front ++ back = earlier ++ rule :: later →
          ¬ Matches rule.pattern (revise earlier input).text) ∧
        (whole.isGiven → whole.text = input) ∧
        whole.text = apply (front ++ back) input ∧
        whole.isGiven = (change? (front ++ back) input).isNone := by
  refine ⟨fun cause ↦ ofPairs_eq_error, exists_ofPairs_eq_error, ?_⟩
  intro front back readFront readBack
  have read : (first ++ second).map ofPair? = (front ++ back).map some := by
    rw [List.map_append, List.map_append, ofPairsFrom_eq_ok.1 readFront,
      ofPairsFrom_eq_ok.1 readBack]
  refine ⟨ofPairsFrom_eq_ok.2 read, read, fun input ↦ ?_⟩
  intro halfway final whole
  have parts : whole = match halfway with
      | .given text => back.revise text
      | .changed text => .changed (back.revise text).text := revise_append front back input
  refine ⟨?_, ?_, ?_, ?_, text_revise _ input, isGiven_revise_eq _ input⟩
  · rw [parts]
    cases h : halfway <;> simp [final, h, Revision.text]
  · rw [parts]
    cases h : halfway <;> simp [final, h, Revision.text, Revision.isGiven]
  · simp only [whole, isGiven_revise, unmatched]
  · intro given
    cases h : whole with
    | given text => exact eq_of_revise_eq_given h
    | changed text =>
      rw [h] at given
      cases given

/-- A pattern that is a single letter, which matches wherever it stands. -/
structure LetterPattern where
  letter : Char
deriving DecidableEq

instance : PatternLanguage LetterPattern where
  ofString? pattern :=
    match pattern.toList with
    | [c] => if c.isAlpha then some ⟨c⟩ else none
    | _ => none
  replaceAll? pattern replacement text :=
    if pattern.letter ∈ text.toList then
      some (String.ofList (text.toList.flatMap fun c ↦
        if c = pattern.letter then replacement.toList else [c]))
    else none

/-- The second list matches what the first one has made, and its last rule matches nothing. -/
theorem ofPairs_append_letters :
    let front : Rules LetterPattern := [⟨⟨'a'⟩, "b"⟩]
    let back : Rules LetterPattern := [⟨⟨'b'⟩, "c"⟩, ⟨⟨'a'⟩, "d"⟩]
    ofPairs [("a", "b")] = .ok front ∧ ofPairs [("b", "c"), ("a", "d")] = .ok back ∧
      ofPairs [("a", "b"), ("b", "c"), ("a", "d")] = .ok (front ++ back) ∧
      revise (front ++ back) "ab" = .changed "cc" ∧
      (revise (front ++ back) "ab").text = (back.revise (front.revise "ab").text).text := by
  intro front back
  have readFront : ofPairs [("a", "b")] = .ok front := rfl
  have readBack : ofPairs [("b", "c"), ("a", "d")] = .ok back := rfl
  let Matches (pattern : LetterPattern) (text : String) : Prop := pattern.letter ∈ text.toList
  have unmatched (pattern : LetterPattern) (replacement text : String) :
      PatternLanguage.replaceAll? pattern replacement text = none ↔ ¬ Matches pattern text := by
    change (if Matches pattern text then _ else none) = none ↔ _
    split_ifs with mem <;> simp [mem]
  obtain ⟨-, -, together⟩ :=
    ofPairs_append Matches unmatched [("a", "b")] [("b", "c"), ("a", "d")]
  obtain ⟨read, -, texts⟩ := together front back readFront readBack
  exact ⟨readFront, readBack, read, by decide, (texts "ab").1⟩

end AsciiMath.Rules
