import AsciiMath.Engine.Rules

/-!
# Revisions of a text

Rules can go over a text one after the other, each over what the last one left. This is the text as
it was given until a rule matches it, and from then on a text that rules have made, even if it
reads the same. A rule that does not match leaves what it is handed.
-/

namespace AsciiMath

inductive Revision where
  | given (text : String)
  | changed (text : String)
deriving DecidableEq, Repr

namespace Revision

def text : Revision → String
  | .given text | .changed text => text

def isGiven : Revision → Bool
  | .given _ => true
  | .changed _ => false

end Revision

variable {ρ : Type} [PatternLanguage ρ]

def Rule.revise (held : Revision) (rule : Rule ρ) : Revision :=
  match PatternLanguage.replaceAll? rule.pattern rule.replacement held.text with
  | none => held
  | some changed => .changed changed

def Rules.revise (rules : Rules ρ) (text : String) : Revision :=
  rules.foldl Rule.revise (.given text)

end AsciiMath
