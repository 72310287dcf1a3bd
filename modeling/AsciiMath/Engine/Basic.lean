import AsciiMath.Engine.Rules
import AsciiMath.Formula.OfTokens
import AsciiMath.Formula.Tex
import AsciiMath.Symbol.Table
import AsciiMath.Text.Escaped
import AsciiMath.Token.Scanner

/-!
# Engines

An engine turns AsciiMath into TeX. It changes the input by its rules, splits it into tokens with
its own table of symbols, reads the formula and writes its TeX. Where that fails the TeX is the
message, set as text.
-/

namespace AsciiMath

structure Engine (ρ : Type := Pattern) where
  displayMode : Bool
  symbols : SymbolTable
  rules : Rules ρ

namespace Engine

variable {ρ : Type} [PatternLanguage ρ]

def ofConfig (config : Config) : Except ConfigError (Engine ρ) := do
  let symbols ← (SymbolTable.withExtras Standard.symbols config.extraSymbols).mapError .alphabet
  let rules ← Rules.ofPairs config.rules
  return ⟨config.displayMode, symbols, rules⟩

def displayStyle : String := "\\displaystyle "

/-- The TeX of an input, or what is wrong with it. -/
def convert? (engine : Engine ρ) (input : String) : Except ConversionError String := do
  let tokens ← tokenize engine.symbols (engine.rules.apply input)
  let formula ← Formula.ofTokens tokens
  return if engine.displayMode then displayStyle ++ formula.tex else formula.tex

def convert (engine : Engine ρ) (input : String) : String :=
  match engine.convert? input with
  | .ok tex => tex
  | .error cause => Text.texText cause.message

/-- The TeX of an input, or why there is no engine that could write it. -/
def convertWith : Except ConfigError (Engine ρ) → String → String
  | .ok engine, input => engine.convert input
  | .error cause, _ => Text.texText cause.message

/-- The engine with the standard symbols and no rules. -/
def standard : Except ConfigError Engine := ofConfig .default

end Engine

/-- The TeX of an input as the standard engine writes it. -/
def convert (input : String) : String := Engine.convertWith Engine.standard input

end AsciiMath
