import AsciiMath.Proofs.Token.Layout

/-!
# How many tokens are left

At any point of a run a scanner hints at how many tokens may still come: at least the argument that
it holds, and at most one more than there are bytes left. Every token takes a byte off the text, but
an argument may be empty. So the hint holds if keywords that ask for an argument have two bytes or
more, and the tokens that are left exceed it by no more than the number of shorter ones among them.
-/

namespace AsciiMath

/-- A keyword of one byte that asks for an argument. The two tokens may take one byte together. -/
def Token.cramped (token : Token) : Bool :=
  token.asks.isSome && Text.byteLength token.value.toList == 1

variable {μ : Type} [KeywordMap μ Symbol] {keywords : μ}

/-- What a token takes off the text pays for it and for the argument it asks for. An argument is
paid for by its keyword. -/
theorem Segment.Stands.one_add_le {front back : List Char} {asking : Option Flag}
    {segment : Segment} (stands : segment.Stands keywords front asking back) :
    1 + segment.token.asks.isSome.toNat ≤
      Text.byteLength segment.text + segment.token.cramped.toNat + asking.isSome.toNat := by
  have paid {token : Token} {text : List Char} (plain : token.keyword = false) (more : text ≠ []) :
      1 + token.asks.isSome.toNat ≤ Text.byteLength text + token.cramped.toNat := by
    have := Text.byteLength_pos more
    rw [Token.asks_of_plain plain, Option.isSome_none, Bool.toNat_false]
    omega
  cases stands with
  | @rowBreak blank c cs _ broken =>
    refine paid rfl ?_
    rintro empty
    simp_all [Segment.text]
  | @lexeme gap opening closing back token _ spelled =>
    cases spelled with
    | @keyword value back symbol nonempty =>
      have bytes := Text.byteLength_pos nonempty
      simp only [Segment.text, Token.cramped, Text.byteLength_append, String.toList_ofList,
        Text.byteLength_nil]
      by_cases single : Text.byteLength value = 1
      · simp only [single, beq_self_eq_true, Bool.and_true]
        omega
      · have := Bool.toNat_le (Token.asks ⟨String.ofList value, symbol.template, symbol.category,
          true, symbol.flag, .behind (front ++ gap)⟩).isSome
        omega
    | number _ numeral => exact paid rfl (by simp [Segment.text, Token.literal, numeral.ne_nil])
    | quotation => exact paid rfl (by simp [Segment.text])
    | run nonempty => exact paid rfl (by simp [Segment.text, Token.literal, nonempty])
  | argument =>
    rw [Token.literal_asks, Option.isSome_none, Option.isSome_some, Bool.toNat_false,
      Bool.toNat_true]
    omega

/-- There are no more tokens than bytes, apart from those that share their byte with a keyword. -/
theorem Laid.length_le {front rest : List Char} {asking : Option Flag} {segments : List Segment}
    (laid : Laid keywords front asking segments rest) :
    segments.length ≤ Text.byteLength rest +
      (segments.map Segment.token).countP Token.cramped + asking.isSome.toNat := by
  -- A keyword pays for its argument in advance, so an argument that is asked for counts as paid.
  induction laid with
  | nil => exact Nat.zero_le _
  | @cons front back asking segment segments stands _ ih =>
    have step := stands.one_add_le
    have count : ((segment :: segments).map Segment.token).countP Token.cramped =
        (segments.map Segment.token).countP Token.cramped + segment.token.cramped.toNat := by
      rw [List.map_cons, List.countP_cons]
      cases segment.token.cramped <;> rfl
    rw [List.length_cons, Text.byteLength_append, count]
    omega

namespace Scanner

/-- The items that come are the tokens that a scanner yields. -/
theorem Yields.item_eq {scanner : Scanner} {tokens : List Token}
    (yields : Yields keywords scanner tokens) (calls : Nat) :
    scanner.item keywords calls = tokens[calls]?.map .ok := by
  induction yields generalizing calls with
  | @stop scanner after last =>
    have step := calls_next keywords scanner
    rw [last] at step
    cases calls with
    | zero => simp [item_zero, last]
    | succ calls => simp [item_succ, last, step.spent.item]
  | @token scanner after token tokens first _ ih =>
    cases calls with
    | zero => simp [item_zero, first]
    | succ calls => simp [item_succ, first, ih]

theorem Yields.next {scanner : Scanner} {tokens : List Token}
    (yields : Yields keywords scanner tokens) :
    Yields keywords (scanner.next keywords).2 tokens.tail := by
  cases yields with
  | @stop _ after last =>
    have step := calls_next keywords scanner
    rw [last] at step ⊢
    exact .stop (Prod.ext (step.spent.next keywords).1 rfl)
  | token first more =>
    rw [first]
    exact more

theorem Yields.afterCalls {scanner : Scanner} {tokens : List Token}
    (yields : Yields keywords scanner tokens) (calls : Nat) :
    Yields keywords (scanner.afterCalls keywords calls) (tokens.drop calls) := by
  induction calls with
  | zero => exact yields
  | succ calls ih =>
    rw [afterCalls_succ, ← List.tail_drop]
    exact ih.next

/-- The hint is met by the tokens that a scanner of a text yields, up to cramped ones. -/
theorem Yields.sizeHint_le {text : List Char} {scanner : Scanner} {tokens : List Token}
    (yields : Yields keywords scanner tokens) (place : Within text scanner ∨ Spent scanner) :
    scanner.sizeHint.1 ≤ tokens.length ∧
      tokens.length ≤ scanner.sizeHint.2 + tokens.countP Token.cramped := by
  rcases place with within | spent
  · obtain ⟨front, rest, -, hcursor⟩ := within.cursor
    obtain ⟨segments, rfl, laid⟩ := yields.laid hcursor
    have bound := laid.length_le
    simp only [sizeHint, hcursor, Cursor.behind_rest, List.length_append, List.length_map,
      List.countP_append, Option.isSome_none, Bool.toNat_false] at bound ⊢
    cases scanner.pending with
    | none => exact ⟨Nat.zero_le _, by simp only [List.length_nil, Option.toList_none]; omega⟩
    | some token =>
      refine ⟨by simp, ?_⟩
      simp only [Option.toList_some, List.length_singleton]
      omega
  · have none_left := yields.item_eq 0
    rw [spent.item, eq_comm, Option.map_eq_none_iff, List.getElem?_eq_none_iff] at none_left
    obtain rfl := List.length_eq_zero_iff.1 (Nat.le_zero.1 none_left)
    simp [sizeHint, spent.pending]

end Scanner

/-- No keyword of one byte asks for an argument. -/
def SymbolTable.Roomy (table : SymbolTable) : Prop :=
  ∀ keyword symbol, table.get? keyword = some symbol → Text.byteLength keyword.toList = 1 →
    symbol.flag ∈ [none, some .rowRule]

theorem SymbolTable.Roomy.not_cramped {table : SymbolTable} (roomy : table.Roomy)
    {text : List Char} {token : Token} (scanned : Scanned table text token) :
    ¬ token.cramped := by
  intro cramped
  rw [Token.cramped, Bool.and_eq_true, beq_iff_eq] at cramped
  obtain ⟨asks, bytes⟩ := cramped
  cases scanned with
  | keyword front back symbol position found =>
    have flag := roomy _ symbol (get?_of_longest? found) bytes
    simp only [List.mem_cons, List.not_mem_nil, or_false] at flag
    rcases flag with flag | flag <;> simp [Token.asks, flag] at asks
  | _ => simp [Token.literal, Token.asks] at asks

/-- At every point of a run the hint is met from below, and from above up to one token for each
keyword of one byte that is left and asks for an argument. A roomy table has no such keywords. -/
theorem Scanner.sizeHint_bounds (table : SymbolTable) (text : List Char) (calls : Nat) :
    let scanner := (ofText text).afterCalls table calls
    ∃ left : List Token, (∀ more, scanner.item table more = left[more]?.map .ok) ∧
      scanner.sizeHint.1 ≤ left.length ∧
      left.length ≤ scanner.sizeHint.2 + left.countP Token.cramped ∧
      (table.Roomy → left.length ≤ scanner.sizeHint.2) := by
  intro scanner
  have start : (ofText text).In table text := ⟨List.suffix_refl _, by simp [ofText]⟩
  obtain ⟨tokens, yields, -, scanned⟩ := exists_yields table.fits start
  have left := yields.afterCalls calls
  obtain ⟨lower, upper⟩ := left.sizeHint_le (within_afterCalls table text calls)
  refine ⟨tokens.drop calls, left.item_eq, lower, upper, fun roomy ↦ ?_⟩
  have none_cramped : (tokens.drop calls).countP Token.cramped = 0 :=
    List.countP_eq_zero.2 fun token mem ↦
      roomy.not_cramped (scanned token (List.mem_of_mem_drop mem))
  rwa [none_cramped] at upper

/-- All keywords of the standard symbols that ask for an argument have two letters or more. -/
theorem SymbolTable.roomy_standard {table : SymbolTable}
    (built : SymbolTable.standard = .ok table) : table.Roomy := by
  have roomy : ∀ entry ∈ Standard.symbols, Text.byteLength entry.1.toList = 1 →
      entry.2.flag ∈ [none, some .rowRule] := by
    decide +kernel
  exact fun keyword symbol found ↦ roomy (keyword, symbol) (mem_of_get? built found)

/-- What is left behind the keyword of a color: the color, and a keyword with an empty argument. -/
def colored : List Token :=
  [.literal ['r', 'e', 'd'] .text ⟨1, 7⟩,
    ⟨"op", "\\operatorname\x7b$1\x7d", .prefixUnary, true, some .rawText, ⟨1, 11⟩⟩,
    .literal [] .text ⟨1, 13⟩]

theorem tokenize_colored : tokenize Standard.table "color(red)op" =
    .ok (⟨"color", "\x7b \\color\x7b$1\x7d $2 \x7d", .prefixBinary, true, some .colorSpec,
      ⟨1, 1⟩⟩ :: colored) := by
  decide +kernel

/-- Behind the first keyword the color is held, and as many tokens are left as the hint allows. -/
theorem Scanner.sizeHint_bounds_color : ∃ table : SymbolTable,
    SymbolTable.standard = .ok table ∧ table.Roomy ∧
      (∀ more, ((ofText "color(red)op".toList).afterCalls table 1).item table more =
        colored[more]?.map .ok) ∧
      colored.length ≤ ((ofText "color(red)op".toList).afterCalls table 1).sizeHint.2 := by
  obtain ⟨table, built⟩ := SymbolTable.ofEntries_eq_ok Standard.symbols
  have roomy := SymbolTable.roomy_standard built
  obtain ⟨left, items, -, -, upper⟩ := sizeHint_bounds table "color(red)op".toList 1
  obtain ⟨tokens, scanned, yields, -⟩ := tokenize_eq_ok table.fits "color(red)op"
  rw [tokenize_standard built, tokenize_colored] at scanned
  obtain rfl := Except.ok.inj scanned
  have behind := (yields.afterCalls 1).item_eq
  have same : left = colored := List.ext_getElem? fun more ↦
    Option.map_injective (fun _ _ ↦ Except.ok.inj) ((items more).symm.trans (behind more))
  subst same
  exact ⟨table, built, roomy, items, upper roomy⟩

/-- Two keywords of one byte, each followed by an argument that is empty. -/
theorem Scanner.sizeHint_lt_length : ∃ (table : SymbolTable) (tokens : List Token),
    SymbolTable.ofEntries [("@", ⟨"$1", .prefixUnary, some .colorSpec⟩)] = .ok table ∧
      (∀ more, (ofText ['@', '@']).item table more = tokens[more]?.map .ok) ∧
      (ofText ['@', '@']).sizeHint.2 < tokens.length := by
  obtain ⟨table, built⟩ :=
    SymbolTable.ofEntries_eq_ok [("@", ⟨"$1", .prefixUnary, some .colorSpec⟩)]
  obtain ⟨tokens, htokens, yields, -⟩ := tokenize_eq_ok table.fits "@@"
  refine ⟨table, tokens, built, yields.item_eq, ?_⟩
  cases built
  cases htokens
  decide

end AsciiMath
