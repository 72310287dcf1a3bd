import AsciiMath.Token.Basic

/-!
# Tokens in their place

What a token means can depend on the token before it, and brackets and bars are matched by looking
ahead. A bracketed region ends at the closer that no opener inside it takes. A bar is closed by the
next bar of the same kind that is not inside brackets, if no bracket around it closes first.
-/

namespace AsciiMath

structure Placed where
  token : Token
  /-- Nothing before the token is an operand of it, so that a sign belongs to what follows. -/
  leads : Bool
deriving DecidableEq, Repr

namespace Placed

def category (placed : Placed) : Category := placed.token.category

def follow : Bool → List Token → List Placed
  | _, [] => []
  | leads, token :: tokens => ⟨token, leads⟩ :: follow token.category.takesOperand tokens

/-- The first token of all has nothing before it. -/
def ofTokens (tokens : List Token) : List Placed := follow true tokens

end Placed

structure Region where
  inside : List Placed
  closer : Placed
  after : List Placed
deriving DecidableEq, Repr

namespace Region

def grow (token : Placed) (region : Region) : Region :=
  { region with inside := token :: region.inside }

/-- The region that starts inside the given number of brackets. -/
def ofBrackets? : Nat → List Placed → Option Region
  | _, [] => none
  | depth, token :: tokens =>
    match token.category, depth with
    | .opener, depth => (ofBrackets? (depth + 1) tokens).map (grow token)
    | .closer, 0 => some ⟨[], token, tokens⟩
    | .closer, depth + 1 => (ofBrackets? depth tokens).map (grow token)
    | _, depth => (ofBrackets? depth tokens).map (grow token)

def ofBars? (bar : String) : Nat → List Placed → Option Region
  | _, [] => none
  | depth, token :: tokens =>
    match token.category, depth with
    | .opener, depth => (ofBars? bar (depth + 1) tokens).map (grow token)
    | .closer, 0 => none
    | .closer, depth + 1 => (ofBars? bar depth tokens).map (grow token)
    | .bar, 0 =>
      if token.token.value = bar then some ⟨[], token, tokens⟩
      else (ofBars? bar 0 tokens).map (grow token)
    | _, depth => (ofBars? bar depth tokens).map (grow token)

/-- A row separator outside all brackets makes a region a matrix. -/
def hasRows : Nat → List Placed → Bool
  | _, [] => false
  | depth, token :: tokens =>
    match token.category with
    | .opener => hasRows (depth + 1) tokens
    | .closer => hasRows (depth - 1) tokens
    | _ => (depth == 0 && token.token.isRowSeparator) || hasRows depth tokens

end Region

end AsciiMath
