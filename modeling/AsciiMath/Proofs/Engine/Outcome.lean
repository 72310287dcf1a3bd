import AsciiMath.Engine.Basic
import AsciiMath.Proofs.Formula.Outcome
import AsciiMath.Proofs.Symbol.Table

/-!
# What can go wrong

An engine is made from any configuration whose patterns are accepted, and all that can stop it is
an input that nests too deep. Scanning never gets stuck, since the keywords come from a trie, and no
token is of a keyword without a use. The message of the one error that is left needs no escapes.
-/

namespace AsciiMath

namespace Text

/-- Characters that are set in TeX as they stand. -/
def isPlain (c : Char) : Bool :=
  c ∉ ['\\', '~', '^', '\x7b', '\x7d', '$', '&', '#', '%', '_']

theorem texChar_of_isPlain {c : Char} (h : isPlain c) : texChar c = c.toString := by
  unfold texChar
  split
  · simp [isPlain] at h
  · simp [isPlain] at h
  · simp [isPlain] at h
  · rw [if_neg]
    simp_all [isPlain]

theorem texEscaped_eq_self {text : String} (h : ∀ c ∈ text.toList, isPlain c) :
    texEscaped text = text := by
  have hmap : text.toList.map texChar = text.toList.map (·.toString) :=
    List.map_congr_left fun c hc ↦ texChar_of_isPlain (h c hc)
  rw [texEscaped, hmap]
  apply String.toList_injective
  rw [String.toList_join, List.flatMap_map]
  simp

theorem isPlain_of_isDigit {c : Char} (h : c.isDigit) : isPlain c := by
  have others : ['\\', '~', '^', '\x7b', '\x7d', '$', '&', '#', '%', '_'].all (!·.isDigit) := by
    decide
  refine decide_eq_true fun hmem ↦ ?_
  have other := List.all_eq_true.1 others c hmem
  rw [h] at other
  exact Bool.false_ne_true other

theorem isPlain_of_mem_repr (n : Nat) : ∀ c ∈ n.repr.toList, isPlain c := by
  intro c hc
  rw [Nat.repr, String.toList_ofList] at hc
  exact isPlain_of_isDigit (Nat.isDigit_of_mem_toDigits (by decide) (by decide) hc)

end Text

theorem Position.isPlain_of_mem_toText (position : Position) :
    ∀ c ∈ position.toText.toList, Text.isPlain c := by
  have colon := List.all_eq_true.1 (by decide : ":".toList.all Text.isPlain)
  rw [toText, String.toList_append, String.toList_append]
  exact List.forall_mem_append.2 ⟨List.forall_mem_append.2
    ⟨Text.isPlain_of_mem_repr position.line, colon⟩, Text.isPlain_of_mem_repr position.column⟩

theorem message_nestingTooDeep (position : Position) :
    (ConversionError.nestingTooDeep position).message =
      "input nests deeper than 64 levels at " ++ position.toText := rfl

theorem isPlain_of_mem_message (position : Position) :
    ∀ c ∈ (ConversionError.nestingTooDeep position).message.toList, Text.isPlain c := by
  have front := List.all_eq_true.1
    (by decide : "input nests deeper than 64 levels at ".toList.all Text.isPlain)
  rw [message_nestingTooDeep, String.toList_append]
  exact List.forall_mem_append.2 ⟨front, position.isPlain_of_mem_toText⟩

/-- The message is set as it stands. -/
theorem texText_nestingTooDeep (position : Position) :
    Text.texText (ConversionError.nestingTooDeep position).message =
      "\\text\x7binput nests deeper than 64 levels at " ++ position.line.repr ++ ":" ++
        position.column.repr ++ "\x7d" := by
  have front : "\\text\x7binput nests deeper than 64 levels at " =
      "\\text\x7b" ++ "input nests deeper than 64 levels at " := rfl
  calc
    Text.texText (ConversionError.nestingTooDeep position).message =
        "\\text\x7b" ++ (ConversionError.nestingTooDeep position).message ++ "\x7d" := by
      rw [Text.texText, Text.texEscaped_eq_self (isPlain_of_mem_message position)]
    _ = "\\text\x7b" ++ ("input nests deeper than 64 levels at " ++ position.toText) ++ "\x7d" := by
      rw [message_nestingTooDeep]
    _ = _ := by
      rw [Position.toText, front]
      simp only [String.append_assoc]

/-- Tokens of a table without unused keywords are read, or nest too deep. -/
theorem nestingTooDeep_of_error {table : SymbolTable} {text : List Char} {tokens : List Token}
    {cause : ConversionError}
    (used : ∀ text token, Scanned table text token → token.category ≠ .unused)
    (scanned : ∀ token ∈ tokens, Scanned table text token)
    (h : Formula.ofTokens tokens = .error cause) :
    ∃ token ∈ tokens, cause = .nestingTooDeep token.position := by
  obtain ⟨front, token, back, hsplit, -, hcause⟩ := Formula.stopsAt_of_error h
  have hmem : token ∈ tokens := by simp [hsplit]
  rcases hcause with rfl | ⟨hunused, -⟩
  · exact ⟨token, hmem, rfl⟩
  · exact absurd hunused (used text token (scanned token hmem))

namespace Rules

variable {ρ : Type} [PatternLanguage ρ]

theorem ofPairsFrom_outcome (index : Nat) (pairs : List (String × String)) :
    match (ofPairsFrom index pairs : Except ConfigError (Rules ρ)) with
    | .ok _ => ∀ pair ∈ pairs, (PatternLanguage.ofString? pair.1 : Option ρ).isSome
    | .error cause => ∃ front pair back, pairs = front ++ pair :: back ∧
        (∀ earlier ∈ front, (PatternLanguage.ofString? earlier.1 : Option ρ).isSome) ∧
        (PatternLanguage.ofString? pair.1 : Option ρ) = none ∧
        cause = .invalidRule (index + front.length) := by
  induction pairs generalizing index with
  | nil => simp [ofPairsFrom]
  | cons pair pairs ih =>
    rw [ofPairsFrom]
    cases hpattern : (PatternLanguage.ofString? pair.1 : Option ρ) with
    | none => exact ⟨[], pair, pairs, rfl, by simp, hpattern, rfl⟩
    | some pattern =>
      have more := ih (index + 1)
      have here : (PatternLanguage.ofString? pair.1 : Option ρ).isSome := by rw [hpattern]; rfl
      cases hmore : (ofPairsFrom (index + 1) pairs : Except ConfigError (Rules ρ)) with
      | ok rules =>
        rw [hmore] at more
        exact List.forall_mem_cons.2 ⟨here, more⟩
      | error cause =>
        rw [hmore] at more
        obtain ⟨front, refused, back, rfl, hfront, hrefused, rfl⟩ := more
        refine ⟨pair :: front, refused, back, rfl, List.forall_mem_cons.2 ⟨here, hfront⟩,
          hrefused, ?_⟩
        rw [List.length_cons, Nat.add_right_comm, Nat.add_assoc]

end Rules

namespace Engine

variable {ρ : Type} [PatternLanguage ρ]

theorem convert?_eq {engine : Engine ρ} {input : String} {tokens : List Token}
    (h : tokenize engine.symbols (engine.rules.apply input) = .ok tokens) :
    engine.convert? input = (Formula.ofTokens tokens).map fun formula ↦
      if engine.displayMode then displayStyle ++ formula.tex else formula.tex := by
  rw [convert?, h]
  change (Formula.ofTokens tokens).bind _ = _
  cases Formula.ofTokens tokens with
  | ok formula => rfl
  | error cause => rfl

theorem convert_eq {engine : Engine ρ} {input : String} {tokens : List Token}
    (h : tokenize engine.symbols (engine.rules.apply input) = .ok tokens) :
    engine.convert input = match Formula.ofTokens tokens with
      | .ok formula => if engine.displayMode then displayStyle ++ formula.tex else formula.tex
      | .error cause => Text.texText cause.message := by
  unfold convert
  simp only [convert?_eq h]
  cases Formula.ofTokens tokens with
  | ok formula => rfl
  | error cause => rfl

theorem ofConfig_eq {config : Config} {table : SymbolTable}
    (h : SymbolTable.withExtras Standard.symbols config.extraSymbols = .ok table) :
    (ofConfig config : Except ConfigError (Engine ρ)) =
      (Rules.ofPairs config.rules).map (⟨config.displayMode, table, ·⟩) := by
  rw [ofConfig, h]
  cases (Rules.ofPairs config.rules : Except ConfigError (Rules ρ)) with
  | ok rules => rfl
  | error cause => rfl

theorem convert?_outcome {engine : Engine ρ}
    (used : ∀ text token, Scanned engine.symbols text token → token.category ≠ .unused)
    (input : String) :
    ∃ tokens, tokenize engine.symbols (engine.rules.apply input) = .ok tokens ∧
      Scanner.Yields engine.symbols (.ofText (engine.rules.apply input).toList) tokens ∧
      match engine.convert? input with
      | .ok tex => engine.convert input = tex
      | .error cause => ∃ token ∈ tokens, cause = .nestingTooDeep token.position ∧
          engine.convert input = "\\text\x7binput nests deeper than 64 levels at " ++
            token.position.line.repr ++ ":" ++ token.position.column.repr ++ "\x7d" := by
  obtain ⟨tokens, htokens, yields, scanned⟩ :=
    tokenize_eq_ok engine.symbols.fits (engine.rules.apply input)
  refine ⟨tokens, htokens, yields, ?_⟩
  simp only [convert?_eq htokens, convert_eq htokens]
  cases hread : Formula.ofTokens tokens with
  | ok formula => rfl
  | error cause =>
    obtain ⟨token, hmem, rfl⟩ := nestingTooDeep_of_error used scanned hread
    exact ⟨token, hmem, rfl, texText_nestingTooDeep token.position⟩

/-- A configuration is refused only for its first pattern that is not accepted, and an input, which
is always scanned to its end, only for nesting too deep at one of the tokens that its text has after
the rules. -/
theorem ofConfig_outcome (config : Config) :
    match (ofConfig config : Except ConfigError (Engine ρ)) with
    | .error cause => ∃ front pair back, config.rules = front ++ pair :: back ∧
        (∀ earlier ∈ front, (PatternLanguage.ofString? earlier.1 : Option ρ).isSome) ∧
        (PatternLanguage.ofString? pair.1 : Option ρ) = none ∧
        cause = .invalidRule front.length
    | .ok engine => (∀ pair ∈ config.rules, (PatternLanguage.ofString? pair.1 : Option ρ).isSome) ∧
        ∀ input, ∃ tokens, tokenize engine.symbols (engine.rules.apply input) = .ok tokens ∧
          Scanner.Yields engine.symbols (.ofText (engine.rules.apply input).toList) tokens ∧
          match engine.convert? input with
          | .ok tex => engine.convert input = tex
          | .error cause => ∃ token ∈ tokens, cause = .nestingTooDeep token.position ∧
              engine.convert input = "\\text\x7binput nests deeper than 64 levels at " ++
                token.position.line.repr ++ ":" ++ token.position.column.repr ++ "\x7d" := by
  obtain ⟨table, htable, used⟩ := SymbolTable.withExtras_standard config.extraSymbols
  have outcome := Rules.ofPairsFrom_outcome (ρ := ρ) 0 config.rules
  rw [ofConfig_eq htable, Rules.ofPairs]
  cases hrules : (Rules.ofPairsFrom 0 config.rules : Except ConfigError (Rules ρ)) with
  | error cause =>
    simp only [hrules, Nat.zero_add] at outcome
    exact outcome
  | ok rules =>
    rw [hrules] at outcome
    exact ⟨outcome, @convert?_outcome ρ _ ⟨config.displayMode, table, rules⟩ used⟩

end Engine

end AsciiMath
