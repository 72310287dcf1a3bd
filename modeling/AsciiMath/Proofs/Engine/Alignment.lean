import AsciiMath.Proofs.Engine.Nesting
import AsciiMath.Proofs.Formula.TopLevel
import AsciiMath.Proofs.Token.Lexeme

/-!
# When the standard engine aligns

No standard symbol is written like an alignment point unless it is one, and the keywords that are
followed by verbatim text take an operand. So the output is aligned if and only if the input has an
alignment point outside all regions that no script or operator follows.
-/

namespace AsciiMath

open Formula

theorem Standard.distinct : ∀ entry ∈ symbols,
    let token : Token := ⟨entry.1, entry.2.template, entry.2.category, true, entry.2.flag, .start⟩
    token.distinct ∧ ¬ token.disguised := by
  decide +kernel

theorem Standard.isPrefix_of_flag : ∀ entry ∈ symbols,
    entry.2.flag ∈ [none, some .rowRule] ∨ entry.2.category.isPrefix := by
  decide +kernel

theorem isAlignPoint_ofList {characters : List Char} {source : String} :
    (leaf (String.ofList characters) source).isAlignPoint ↔
      characters = ['&'] ∨ characters = ['\\', '\\'] := by
  have point : "&".toList = ['&'] := by decide
  have slashes : rowBreak.toList = ['\\', '\\'] := by decide
  rw [isAlignPoint, Bool.or_eq_true, beq_iff_eq, beq_iff_eq, ← String.toList_inj,
    ← String.toList_inj, String.toList_ofList, point, slashes]

theorem not_isAlignPoint_of_not_startsKeyword {table : SymbolTable}
    (built : SymbolTable.standard = .ok table) {characters back : List Char}
    (plain : KeywordMap.startsKeyword table (characters ++ back) = false) (source : String) :
    ¬ (leaf (String.ofList characters) source).isAlignPoint := by
  have point : ("&", ⟨"&", .alignMark, none⟩) ∈ Standard.symbols := by decide
  have slashes : ("\\\\", ⟨"\\backslash", .constant, none⟩) ∈ Standard.symbols := by
    decide
  have starts {entry : String × Symbol} (h : entry ∈ Standard.symbols) {c : Char} {cs : List Char}
      (hkey : entry.1.toList = c :: cs) : characters ≠ c :: cs := by
    rintro rfl
    rw [SymbolTable.startsKeyword_of_mem built h hkey] at plain
    exact Bool.false_ne_true plain.symm
  rw [isAlignPoint_ofList]
  exact not_or.2 ⟨starts point (by decide), starts slashes (by decide)⟩

theorem Token.distinct_literal {characters : List Char} {category : Category} {position : Position}
    (other : category ∉ [.alignMark, .infixOp, .postfixOp, .bar])
    (plain : ¬ (leaf (String.ofList characters) (String.ofList characters)).isAlignPoint) :
    (Token.literal characters category position).distinct := by
  cases category <;> simp_all [Token.distinct, Token.literal, ofToken]

theorem not_isAlignPoint_text (text source : String) :
    (leaf ("\\text\x7b" ++ text ++ "\x7d") source).isAlignPoint = false := by
  have front : "\\text\x7b".length = 6 := by decide
  refine not_isAlignPoint_of_length ?_ source
  rw [String.length_append, String.length_append, front]
  omega

theorem distinct_of_lexed {table : SymbolTable} (built : SymbolTable.standard = .ok table)
    {token : Token} {argument : Option Token} (lexed : Lexed table token argument) :
    token.distinct ∧ ¬ token.disguised ∧
      ∀ text ∈ argument, text.distinct ∧ token.category.isPrefix := by
  cases lexed with
  | keyword found asked text =>
    have mem := SymbolTable.mem_of_longest? built found
    obtain ⟨distinct, plain⟩ := Standard.distinct _ mem
    refine ⟨distinct, plain, fun token htoken ↦ ?_⟩
    obtain ⟨inside, position, rfl⟩ := text token htoken
    obtain ⟨flag, hflag, other⟩ := asked (by rw [htoken]; rfl)
    refine ⟨rfl, (Standard.isPrefix_of_flag _ mem).resolve_left ?_⟩
    simp [hflag, other]
  | @number digits position numeric =>
    have plain : ¬ (leaf (String.ofList digits) (String.ofList digits)).isAlignPoint := by
      rw [isAlignPoint_ofList]
      rintro (rfl | rfl) <;> exact absurd (numeric _ List.mem_cons_self) (by decide)
    refine ⟨Token.distinct_literal (by simp) plain, ?_, by simp⟩
    simp [Token.disguised, Token.literal]
  | quotation =>
    refine ⟨rfl, ?_, by simp⟩
    rw [Token.disguised, ofToken, not_isAlignPoint_text]
    simp
  | @run characters back position plain =>
    have plain := not_isAlignPoint_of_not_startsKeyword built plain (String.ofList characters)
    refine ⟨Token.distinct_literal (by simp) plain, ?_, by simp⟩
    simp [Token.disguised, Token.literal]
  | rowBreak => exact ⟨rfl, by simp [Token.disguised], by simp⟩

theorem Scanner.Lexemes.distinct {table : SymbolTable} (built : SymbolTable.standard = .ok table)
    {tokens : List Token} (h : Lexemes table tokens) :
    (∀ token ∈ tokens, token.distinct) ∧
      tokens.IsChain (fun token next ↦ next.disguised → token.category.isPrefix) ∧
        ∀ next ∈ tokens.head?, ¬ next.disguised := by
  induction h with
  | nil => simp
  | @cons token argument tokens lexed _ ih =>
    obtain ⟨distinct, chain, clear⟩ := ih
    obtain ⟨here, plain, told⟩ := distinct_of_lexed built lexed
    have behind (token : Token) : (token :: tokens).IsChain
        (fun token next ↦ next.disguised → token.category.isPrefix) :=
      List.isChain_cons.2 ⟨fun next hnext disguised ↦ absurd disguised (clear next hnext), chain⟩
    cases argument with
    | none => exact ⟨List.forall_mem_cons.2 ⟨here, distinct⟩, behind token, by simpa using plain⟩
    | some text =>
      obtain ⟨shown, takes⟩ := told text rfl
      refine ⟨?_, List.isChain_cons_cons.2 ⟨fun _ ↦ takes, behind text⟩, by simpa using plain⟩
      exact List.forall_mem_cons.2 ⟨here, List.forall_mem_cons.2 ⟨shown, distinct⟩⟩

/-- The output is aligned if and only if an alignment point stands outside all regions and nothing
takes it for its base. -/
theorem convert_aligned_iff (input : String) :
    ∃ engine tokens, Engine.standard = .ok engine ∧ tokenize engine.symbols input = .ok tokens ∧
      match ofTokens tokens with
      | .ok formula => convert input = formula.tex ∧ ∃ children, formula = .root children ∧
          (children.any isAlignPoint ↔ FreeMark (Placed.ofTokens tokens))
      | .error cause => convert input = Text.texText cause.message := by
  obtain ⟨table, built, -⟩ := SymbolTable.withExtras_standard []
  rw [SymbolTable.withExtras_nil, ← SymbolTable.standard] at built
  obtain ⟨tokens, scanned, yields, -⟩ := tokenize_eq_ok table.fits input
  refine ⟨_, tokens, Engine.standard_eq built, scanned, ?_⟩
  obtain ⟨others, same, lexemes⟩ := yields.lexemes table.fits
  obtain rfl : tokens = others := same
  obtain ⟨distinct, chain, clear⟩ := lexemes.distinct built
  rw [convert_eq built scanned]
  cases hread : ofTokens tokens with
  | ok formula => exact ⟨rfl, aligned_of_ofTokens hread distinct chain clear⟩
  | error cause => rfl

/-- The tokens of a letter, an alignment point, a postfix operator and another letter. -/
def followedMark : List Token :=
  [.literal ['a'] .run ⟨1, 1⟩, ⟨"&", "&", .alignMark, true, none, ⟨1, 3⟩⟩,
    ⟨"!", "$1 !", .postfixOp, true, none, ⟨1, 4⟩⟩, .literal ['b'] .run ⟨1, 6⟩]

theorem tokenize_followedMark : tokenize Standard.table "a &! b" = .ok followedMark := by
  decide +kernel

/-- An alignment point at the top level does not align the output if an operator follows it. -/
theorem convert_followedMark : ∃ engine tokens, Engine.standard = .ok engine ∧
    tokenize engine.symbols "a &! b" = .ok tokens ∧
      (∃ mark rest, TopLevel (Placed.ofTokens tokens) (mark :: rest) ∧
        mark.category = .alignMark) ∧
      convert "a &! b" = "a & ! b" ∧
      ∃ children, ofTokens tokens = .ok (.root children) ∧ ¬ children.any isAlignPoint := by
  obtain ⟨table, built, -⟩ := SymbolTable.withExtras_standard []
  rw [SymbolTable.withExtras_nil, ← SymbolTable.standard] at built
  have scanned : tokenize table "a &! b" = .ok followedMark := by
    rw [tokenize_standard built, tokenize_followedMark]
  refine ⟨_, followedMark, Engine.standard_eq built, scanned, ?_, ?_, ?_⟩
  · exact ⟨_, _, .beyond .here, rfl⟩
  · rw [convert_eq built scanned]
    decide +kernel
  · exact ⟨_, rfl, by decide +kernel⟩

end AsciiMath
