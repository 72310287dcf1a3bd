import AsciiMath.Formula.Operand

/-!
# Formulas from tokens

A formula is read token by token, with the levels it may still nest. Brackets and bars take the
region up to their partner, operators take their operands, and a token that finds no place in a
formula stands for itself. Only a keyword without a use, and nesting that is too deep, stop the
reading.
-/

namespace AsciiMath.Formula

/-- An opener without a closer is closed by an invisible bracket at the end of its region. -/
def bracketRegion (deeper : Bool → Reader) (leading : List Formula) (opener : Token)
    (tokens : List Placed) : Reading :=
  match Region.ofBrackets? 0 tokens with
  | none => do
    let body ← sequence (deeper true) tokens
    return (.flat (leading ++ ofToken opener :: body ++ [.leaf "\\right." ""]), [])
  | some region =>
    let closer := region.closer.token
    if Region.hasRows 0 region.inside then do
      let cells ← grid (deeper true) true leading region.inside
      let alignment := if opener.value == "\x7b" && closer.value == ":\x7d" then .left else .center
      match cells.toMatrix opener.template closer.template alignment with
      | some found => return (.matrix found, region.after)
      | none => .error .ruleBeyondRow
    else do
      let body ← sequence (deeper true) region.inside
      return (.flat (leading ++ ofToken opener :: body ++ [ofToken closer]), region.after)

/-- The TeX of a bar that stands alone. -/
def barRelation (bar : Token) : String :=
  if bar.template = "|" then "\\mid"
  else if bar.template = "\\|" then "\\parallel"
  else bar.template

def barRegion (deeper : Bool → Reader) (bar : Token) (tokens : List Placed) : Reading :=
  let left := "\\left" ++ bar.template
  let right := "\\right" ++ bar.template
  match Region.ofBars? bar.value 0 tokens with
  | none => .ok (.leaf (barRelation bar) bar.value, tokens)
  | some region =>
    if Region.hasRows 0 region.inside then do
      let cells ← grid (deeper true) false [] region.inside
      match cells.toMatrix left right .center with
      | some found => return (.matrix found, region.after)
      | none => .error .ruleBeyondRow
    else do
      let body ← sequence (deeper true) region.inside
      return (.flat (.leaf left bar.value :: body ++ [.leaf right bar.value]), region.after)

/-- A script of the wanted kind at the start of the tokens, and the tokens behind it. -/
def leadingScript? (wanted : Token → Bool) : List Placed → Option (Token × List Placed)
  | token :: tokens =>
    if token.category = .script && wanted token.token then some (token.token, tokens) else none
  | [] => none

def isAbove (script : Token) : Bool := script.value == "^"

/-- A script and one of the other kind, in either order, each of which may be missing. -/
def optionalScripts (deeper : Bool → Reader) (operator : Token) (tokens : List Placed) :
    Reading :=
  let placed (above : Bool) (first second : Formula) : Formula :=
    if above then .binary operator.template first second else .binary operator.template second first
  match leadingScript? (fun _ => true) tokens with
  | none => .ok (.binary operator.template empty empty, tokens)
  | some (script, tokens) => do
    let above := isAbove script
    let (first, after) ← strippedOperand deeper tokens
    match leadingScript? (isAbove · != above) after with
    | none => return (placed above first empty, after)
    | some (_, after) => do
      let (second, after) ← strippedOperand deeper after
      return (placed above first second, after)

def startsVariable (category : Category) : Bool :=
  category ∈ [.letter, .run, .text, .opener]

/-- What is differentiated by: the terms of a group, or one term with its scripts. -/
def derivativeTerms (deeper : Bool → Reader) (levels : Nat) (token : Placed)
    (tokens : List Placed) : Except ConversionError (List Formula × List Placed) := do
  let (term, after) ← deeper false token tokens
  match term.groupBody? with
  | some terms => return (terms, after)
  | none => do
    let (term, after) ← attachScripts deeper levels term after
    return ([term], after)

/-- The order of a derivative, as the one script or none that its operator has. -/
def derivativeOrder (deeper : Bool → Reader) (tokens : List Placed) :
    Except ConversionError (List Formula × List Placed) :=
  match leadingScript? isAbove tokens with
  | some (script, tokens) => do
    let (order, after) ← strippedOperand deeper tokens
    return ([.unary script.template order], after)
  | none => .ok ([], tokens)

/-- The operator stands before each of several terms; the order goes with a single one. -/
def denominator (operator : Formula) (order terms : List Formula) : Formula :=
  if 1 < terms.length then .flat (terms.flatMap ([operator, ·]))
  else .flat (operator :: terms ++ order)

def fractionTemplate : String := "\\frac\x7b $1 \x7d\x7b $2 \x7d"

/-- A derivative is a fraction, whose denominator is empty if no variable follows. -/
def derivativeOf (deeper : Bool → Reader) (levels : Nat) (operator : Token)
    (tokens : List Placed) : Reading := do
  let (order, tokens) ← derivativeOrder deeper tokens
  let (function, tokens) ← strippedOperand deeper tokens
  let numerator := flat (ofToken operator :: order ++ [function])
  match tokens with
  | [] => return (.binary fractionTemplate numerator empty, [])
  | token :: tokens =>
    if startsVariable token.category then do
      let (terms, after) ← derivativeTerms deeper levels token tokens
      let denominator := denominator (ofToken operator) order terms
      return (.binary fractionTemplate numerator denominator, after)
    else
      return (.binary fractionTemplate numerator empty, token :: tokens)

/-- A rule keyword directly before a bracket is the first thing inside it. -/
def ofLeaf (deeper : Bool → Reader) (token : Token) : List Placed → Reading
  | [] => .ok (ofToken token, [])
  | next :: tokens =>
    if token.flag = some .rowRule && next.category = .opener then
      bracketRegion deeper [ofToken token] next.token tokens
    else
      .ok (ofToken token, next :: tokens)

/-- The formula that begins with a token, without what follows it. -/
def readAlone (deeper : Bool → Reader) (levels : Nat) (placed : Placed) (tokens : List Placed) :
    Reading :=
  let token := placed.token
  match token.category with
  | .constant | .letter | .text | .number | .run => ofLeaf deeper token tokens
  | .opener => bracketRegion deeper [] token tokens
  | .bar => barRegion deeper token tokens
  | .script | .prefixUnary => do
    let (argument, after) ← strippedOperand deeper tokens
    return (.unary token.template argument, after)
  | .prefixBinary => do
    let (first, after) ← strippedOperand deeper tokens
    let (second, after) ← strippedOperand deeper after
    return (.binary token.template first second, after)
  | .sign =>
    if placed.leads then do
      let (term, after) ← operand deeper tokens
      return (.flat [ofToken token, term], after)
    else
      .ok (ofToken token, tokens)
  | .optionalScripts => optionalScripts deeper token tokens
  | .derivative => derivativeOf deeper levels token tokens
  | .separator | .alignMark => .ok (ofToken token, tokens)
  | .closer => .ok (.leaf ("\\left. " ++ token.template) token.value, tokens)
  | .infixOp | .postfixOp => .ok (.leaf token.value token.value, tokens)
  | .unused => .error (.unusedKeyword token.value token.position)

/-- The formula that begins with a token, for which the given number of levels is left. -/
def read : Nat → (followed : Bool) → Reader
  | 0, _, placed, _ => .error (.nestingTooDeep placed.token.position)
  | levels + 1, followed, placed, tokens => do
    let (formula, after) ← readAlone (read levels) levels placed tokens
    if followed then attachFollowers (read levels) levels levels formula after
    else return (formula, after)

/-- The whole formula that tokens stand for. -/
def ofTokens (tokens : List Token) : Except ConversionError Formula :=
  .root <$> sequence (read maxLevels true) (Placed.ofTokens tokens)

end AsciiMath.Formula
