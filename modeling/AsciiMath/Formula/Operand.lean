import AsciiMath.Error
import AsciiMath.Formula.Grid
import AsciiMath.Formula.Placed

/-!
# Operands and what follows them

A reader takes a token and the tokens behind it, and gives a formula with the tokens that are left.
The readers here are given one for formulas a level deeper, which reads a formula either alone or
with the scripts and operators that follow it. A chain of followers nests as deep as it is long, so
it may have no more links than there are levels left.
-/

namespace AsciiMath

abbrev Reading := Except ConversionError (Formula × List Placed)

abbrev Reader := Placed → List Placed → Reading

namespace Formula

def ofToken (token : Token) : Formula := .leaf token.template token.value

def readEach (read : Reader) : Nat → List Placed → Except ConversionError (List Formula)
  | _, [] => .ok []
  | 0, _ :: _ => .ok []
  | fuel + 1, token :: tokens => do
    let (first, after) ← read token tokens
    return first :: (← readEach read fuel after)

/-- All formulas of a region, one after the other. -/
def sequence (read : Reader) (tokens : List Placed) : Except ConversionError (List Formula) :=
  readEach read tokens.length tokens

def endsCell (ruled cellBegun : Bool) (token : Token) : Option GridPiece :=
  if token.category = .separator then
    some (if token.isRowSeparator then .rowEnd else .cellEnd)
  else if token.category = .bar && token.value == "|" && ruled && cellBegun then
    some .rule
  else
    none

def readPieces (read : Reader) (ruled : Bool) :
    Nat → Bool → List Placed → Except ConversionError (List GridPiece)
  | _, _, [] => .ok []
  | 0, _, _ :: _ => .ok []
  | fuel + 1, cellBegun, token :: tokens =>
    match endsCell ruled cellBegun token.token with
    | some piece => (piece :: ·) <$> readPieces read ruled fuel false tokens
    | none => do
      let (first, after) ← read token tokens
      return .formula first :: (← readPieces read ruled fuel true after)

/-- The rows of a region, whose first cell may have begun before it. Where rules are allowed, a bar
behind the start of a cell is one. -/
def grid (read : Reader) (ruled : Bool) (leading : List Formula) (tokens : List Placed) :
    Except ConversionError Grid :=
  Grid.ofPieces [] leading <$> readPieces read ruled tokens.length (!leading.isEmpty) tokens

/-- An operand is missing at the end and before separators, alignment points and closers. -/
def operand (deeper : Bool → Reader) : List Placed → Reading
  | [] => .ok (empty, [])
  | token :: tokens =>
    if token.category ∈ [.separator, .alignMark, .closer] then .ok (empty, token :: tokens)
    else deeper false token tokens

def strippedOperand (deeper : Bool → Reader) (tokens : List Placed) : Reading := do
  let (operand, after) ← operand deeper tokens
  return (operand.stripBrackets, after)

def withScript (base : Formula) (script : Token) (argument : Formula) : Formula :=
  .flat [base, .unary script.template argument]

def attachScripts (deeper : Bool → Reader) : Nat → Formula → List Placed → Reading
  | _, base, [] => .ok (base, [])
  | links, base, token :: tokens =>
    if token.category = .script then
      match links with
      | 0 => .error (.nestingTooDeep token.token.position)
      | links + 1 => do
        let (argument, after) ← strippedOperand deeper tokens
        attachScripts deeper links (withScript base token.token argument) after
    else
      .ok (base, token :: tokens)

/-- The formula that a follower makes of the one before it. -/
def withFollower (deeper : Bool → Reader) (levels : Nat) (base : Formula) (token : Token)
    (tokens : List Placed) : Reading :=
  match token.category with
  | .script => do
    let (argument, after) ← strippedOperand deeper tokens
    return (withScript base token argument, after)
  | .infixOp => do
    let (second, after) ← operand deeper tokens
    let (second, after) ← attachScripts deeper levels second after
    return (.binary token.template base.stripBrackets second.stripBrackets, after)
  | _ => .ok (.unary token.template base, tokens)

def attachFollowers (deeper : Bool → Reader) (levels : Nat) :
    Nat → Formula → List Placed → Reading
  | _, base, [] => .ok (base, [])
  | links, base, token :: tokens =>
    if token.category.follows then
      match links with
      | 0 => .error (.nestingTooDeep token.token.position)
      | links + 1 => do
        let (base, after) ← withFollower deeper levels base token.token tokens
        attachFollowers deeper levels links base after
    else
      .ok (base, token :: tokens)

end Formula

end AsciiMath
