import AsciiMath.Engine.Config
import AsciiMath.Pattern.Basic

/-!
# Rules for the input

Before an input is read, rules change it one after the other: each replaces all matches of its
pattern in what the rules before it have made of the input. A rule that matches nowhere leaves the
text as it is, and if none matches the input is not changed at all. How patterns are written and
what they match is left to the language they are taken from.
-/

namespace AsciiMath

/-- What rules ask of the patterns they are made of. -/
class PatternLanguage (ρ : Type) where
  ofString? : String → Option ρ
  /-- The text with all matches replaced, if there are any. -/
  replaceAll? (pattern : ρ) (replacement text : String) : Option String

@[default_instance] instance : PatternLanguage Pattern := ⟨Pattern.ofString?, Pattern.replaceAll?⟩

structure Rule (ρ : Type := Pattern) where
  pattern : ρ
  replacement : String

abbrev Rules (ρ : Type := Pattern) := List (Rule ρ)

namespace Rules

variable {ρ : Type} [PatternLanguage ρ]

/-- The rules of which the first has the given index. -/
def ofPairsFrom : Nat → List (String × String) → Except ConfigError (Rules ρ)
  | _, [] => .ok []
  | index, (pattern, replacement) :: pairs =>
    match PatternLanguage.ofString? pattern with
    | none => .error (.invalidRule index)
    | some pattern => (⟨pattern, replacement⟩ :: ·) <$> ofPairsFrom (index + 1) pairs

/-- Patterns with their replacements. -/
def ofPairs (pairs : List (String × String)) : Except ConfigError (Rules ρ) := ofPairsFrom 0 pairs

/-- The changed text, if a rule matches. -/
def change? : Rules ρ → String → Option String
  | [], _ => none
  | rule :: rules, text =>
    match PatternLanguage.replaceAll? rule.pattern rule.replacement text with
    | none => change? rules text
    | some changed => some ((change? rules changed).getD changed)

def apply (rules : Rules ρ) (text : String) : String := (rules.change? text).getD text

end Rules

end AsciiMath
