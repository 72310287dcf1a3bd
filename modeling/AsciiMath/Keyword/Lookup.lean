/-!
# Looking up keywords

A scanner asks one thing of a map from keywords to values: which keyword is the longest one at the
start of a text, and what it stands for. The answer gives the keyword's length in bytes. An empty
keyword may be found, but it does not start a keyword.
-/

namespace AsciiMath

class KeywordMap (μ : Type) (α : outParam Type) where
  longest? : μ → List Char → Option (Nat × α)

namespace KeywordMap

variable {μ α : Type} [KeywordMap μ α]

/-- A keyword of at least one byte stands at the start of the text. -/
def startsKeyword (keywords : μ) (text : List Char) : Bool :=
  match longest? keywords text with
  | some (length, _) => 0 < length
  | none => false

theorem startsKeyword_iff (keywords : μ) (text : List Char) : startsKeyword keywords text ↔
    ∃ length value, longest? keywords text = some (length, value) ∧ 0 < length := by
  unfold startsKeyword
  split
  · next length value found => simp [found]
  · next none => simp [none]

end KeywordMap

end AsciiMath
