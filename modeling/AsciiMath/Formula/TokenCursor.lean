import AsciiMath.Formula.OfTokens

/-!
# A cursor in the tokens

Formulas can be read with one cursor that runs through all tokens. The region that is read ends at a
place of its own. While the inside of a bracket or a bar is read this place is that of the closer,
and then it is put back. A formula is read one level deeper than the one it stands in, and the depth
is put back as well. Nothing here keeps a reader from going on forever or from looking where there
is no token. Every round of a loop and every formula inside another one uses up fuel, and a run that
has no fuel left, or looks at a token that is not there, has no outcome.
-/

namespace AsciiMath

structure TokenCursor where
  tokens : Array Token
  place : Nat
  /-- The end of the region. -/
  stop : Nat
  depth : Nat
  /-- The greatest depth so far. -/
  deepest : Nat
deriving DecidableEq, Repr

namespace TokenCursor

open Formula (ofToken withScript isAbove startsVariable)

/-- What is found or what stops the run, and where the cursor is then. -/
abbrev Run (α : Type) := ExceptT ConversionError (StateT TokenCursor Option) α

variable {α : Type}

def ofTokens (tokens : List Token) : TokenCursor := ⟨tokens.toArray, 0, tokens.length, 0, 0⟩

def goTo (cursor : TokenCursor) (place : Nat) : TokenCursor := { cursor with place }

def step (cursor : TokenCursor) : TokenCursor := cursor.goTo (cursor.place + 1)

/-- The cursor in the region that ends at a place. -/
def upTo (cursor : TokenCursor) (stop : Nat) : TokenCursor := { cursor with stop }

def descend (cursor : TokenCursor) : TokenCursor :=
  { cursor with depth := cursor.depth + 1, deepest := max cursor.deepest (cursor.depth + 1) }

def ascend? (cursor : TokenCursor) : Option TokenCursor :=
  match cursor.depth with
  | 0 => none
  | depth + 1 => some { cursor with depth }

/-- The token at the cursor, if it is in the region. The region has to end within the tokens. -/
def next? (cursor : TokenCursor) : Option (Option Token) :=
  if cursor.stop ≤ cursor.tokens.size then
    some (if cursor.place < cursor.stop then cursor.tokens[cursor.place]? else none)
  else
    none

/-- Nothing before the cursor is an operand of the token there. -/
def leads? (cursor : TokenCursor) : Option Bool :=
  if cursor.place = 0 then some true
  else cursor.tokens[cursor.place - 1]?.map (·.category.takesOperand)

/-- Where a region closes, and whether it has rows. -/
structure Extent where
  close : Nat
  rows : Bool
deriving DecidableEq, Repr

/-- The first token from a place on that closes a region, unless brackets around it close before. -/
def closing? (closes : Token → Bool) : Nat → Bool → Nat → List Token → Option Extent
  | _, _, _, [] => none
  | depth, rows, index, token :: tokens =>
    match token.category, depth with
    | .opener, depth => closing? closes (depth + 1) rows (index + 1) tokens
    | .closer, depth + 1 => closing? closes depth rows (index + 1) tokens
    | category, 0 =>
      if closes token then some ⟨index, rows⟩
      else if category = .closer then none
      else closing? closes 0 (rows || token.isRowSeparator) (index + 1) tokens
    | _, depth + 1 => closing? closes (depth + 1) rows (index + 1) tokens

def closesBracket (token : Token) : Bool := token.category = .closer

def closesBar (bar token : Token) : Bool := token.category = .bar && token.value = bar.value

def extent? (closes : Token → Bool) (cursor : TokenCursor) : Option (Option Extent) :=
  if cursor.stop ≤ cursor.tokens.size then
    some (closing? closes 0 false cursor.place
      (cursor.tokens.extract cursor.place cursor.stop).toList)
  else
    none

/-- A look that fails leaves the run without an outcome. -/
def look (sight? : TokenCursor → Option α) : Run α :=
  fun cursor => (sight? cursor).map fun sight => (.ok sight, cursor)

def next : Run (Option Token) := look next?

def tokenAt (place : Nat) : Run Token := look (·.tokens[place]?)

def noFuel : Run α := look fun _ => none

/-- A run one level deeper, after which the depth is put back. -/
def nested (run : Run α) : Run α := fun cursor => do
  let (outcome, after) ← run cursor.descend
  return (outcome, ← after.ascend?)

/-- A run in the region up to a place, after which the region is put back. -/
def confined (stop : Nat) (run : Run α) : Run α := fun cursor => do
  let (outcome, after) ← run (cursor.upTo stop)
  return (outcome, after.upTo cursor.stop)

/-- Each follower wraps what is before it, so that a chain nests as deep as it has links. -/
def checkChain (token : Token) (links : Nat) : Run Unit := do
  if maxLevels ≤ (← get).depth + links then throw (.nestingTooDeep token.position)

section

variable (deeper : Bool → Run Formula)

def operand : Run Formula := do
  match ← next with
  | none => return .empty
  | some token =>
    if token.category ∈ [.separator, .alignMark, .closer] then return .empty else deeper false

def strippedOperand : Run Formula := do
  return (← operand deeper).stripBrackets

def attachScripts : (fuel links : Nat) → Formula → Run Formula
  | 0, _, _ => noFuel
  | fuel + 1, links, base => do
    match (← next).filter (·.category = .script) with
    | none => return base
    | some token =>
      checkChain token links
      modify step
      attachScripts fuel (links + 1) (withScript base token (← strippedOperand deeper))

def withFollower (fuel : Nat) (base : Formula) (token : Token) : Run Formula := do
  modify step
  match token.category with
  | .script => return withScript base token (← strippedOperand deeper)
  | .infixOp =>
    let second ← operand deeper
    let second ← attachScripts deeper fuel 0 second
    return .binary token.template base.stripBrackets second.stripBrackets
  | _ => return .unary token.template base

def attachFollowers : (fuel links : Nat) → Formula → Run Formula
  | 0, _, _ => noFuel
  | fuel + 1, links, base => do
    match (← next).filter (·.category.follows) with
    | none => return base
    | some token =>
      checkChain token links
      attachFollowers fuel (links + 1) (← withFollower deeper fuel base token)

/-- All formulas up to the end of the region. -/
def sequence : (fuel : Nat) → Run (List Formula)
  | 0 => noFuel
  | fuel + 1 => do
    let cursor ← get
    if cursor.place < cursor.stop then
      let first ← deeper true
      return first :: (← sequence fuel)
    else
      return []

def pieces (ruled : Bool) : (fuel : Nat) → (cellBegun : Bool) → Run (List GridPiece)
  | 0, _ => noFuel
  | fuel + 1, cellBegun => do
    match ← next with
    | none => return []
    | some token =>
      match Formula.endsCell ruled cellBegun token with
      | some piece =>
        modify step
        return piece :: (← pieces ruled fuel false)
      | none =>
        let first ← deeper true
        return .formula first :: (← pieces ruled fuel true)

def grid (fuel : Nat) (ruled : Bool) (leading : List Formula) : Run Grid := do
  return .ofPieces [] leading (← pieces deeper ruled fuel (!leading.isEmpty))

/-- The region of the opener at the cursor. -/
def bracketRegion (fuel : Nat) (leading : List Formula) : Run Formula := do
  let opener ← tokenAt (← get).place
  modify step
  match ← look (extent? closesBracket) with
  | none =>
    let body ← sequence deeper fuel
    return .flat (leading ++ ofToken opener :: body ++ [.leaf "\\right." ""])
  | some extent =>
    let closer ← tokenAt extent.close
    if extent.rows then
      let cells ← confined extent.close (grid deeper fuel true leading)
      modify (·.goTo (extent.close + 1))
      let alignment := if opener.value == "\x7b" && closer.value == ":\x7d" then .left else .center
      return .matrix (← look fun _ => cells.toMatrix opener.template closer.template alignment)
    else
      let body ← confined extent.close (sequence deeper fuel)
      modify (·.goTo (extent.close + 1))
      return .flat (leading ++ ofToken opener :: body ++ [ofToken closer])

/-- The region of the bar at the cursor. -/
def barRegion (fuel : Nat) : Run Formula := do
  let bar ← tokenAt (← get).place
  modify step
  match ← look (extent? (closesBar bar)) with
  | none => return .leaf (Formula.barRelation bar) bar.value
  | some extent =>
    let left := "\\left" ++ bar.template
    let right := "\\right" ++ bar.template
    if extent.rows then
      let cells ← confined extent.close (grid deeper fuel false [])
      modify (·.goTo (extent.close + 1))
      return .matrix (← look fun _ => cells.toMatrix left right .center)
    else
      let body ← confined extent.close (sequence deeper fuel)
      modify (·.goTo (extent.close + 1))
      return .flat (.leaf left bar.value :: body ++ [.leaf right bar.value])

/-- The next token is a script for which there is room. -/
def fills (above below : Option Formula) (token : Token) : Bool :=
  token.category = .script && (if isAbove token then above else below).isNone

def fillScripts (operator : Token) : (fuel : Nat) → (above below : Option Formula) → Run Formula
  | 0, _, _ => noFuel
  | fuel + 1, above, below => do
    match (← next).filter (fills above below) with
    | none => return .binary operator.template (above.getD .empty) (below.getD .empty)
    | some token =>
      modify step
      let argument ← strippedOperand deeper
      if isAbove token then fillScripts operator fuel (some argument) below
      else fillScripts operator fuel above (some argument)

def optionalScripts (fuel : Nat) (operator : Token) : Run Formula := do
  modify step
  fillScripts deeper operator fuel none none

def derivativeOrder : Run (List Formula) := do
  match (← next).filter fun token => token.category = .script && isAbove token with
  | none => return []
  | some script =>
    modify step
    return [.unary script.template (← strippedOperand deeper)]

def derivativeTerms (fuel : Nat) : Run (List Formula) := do
  let term ← deeper false
  match term.groupBody? with
  | some terms => return terms
  | none => return [← attachScripts deeper fuel 0 term]

def derivative (fuel : Nat) (operator : Token) : Run Formula := do
  modify step
  let order ← derivativeOrder deeper
  let function ← strippedOperand deeper
  let numerator := .flat (ofToken operator :: order ++ [function])
  match (← next).filter (startsVariable ·.category) with
  | none => return .binary Formula.fractionTemplate numerator .empty
  | some _ =>
    let terms ← derivativeTerms deeper fuel
    let denominator := Formula.denominator (ofToken operator) order terms
    return .binary Formula.fractionTemplate numerator denominator

def readLeaf (fuel : Nat) (token : Token) : Run Formula := do
  modify step
  let opens (next : Token) := token.flag = some .rowRule && next.category = .opener
  match (← next).filter opens with
  | some _ => bracketRegion deeper fuel [ofToken token]
  | none => return ofToken token

def readAlone (fuel : Nat) (token : Token) : Run Formula :=
  match token.category with
  | .constant | .letter | .text | .number | .run => readLeaf deeper fuel token
  | .opener => bracketRegion deeper fuel []
  | .bar => barRegion deeper fuel
  | .script | .prefixUnary => do
    modify step
    return .unary token.template (← strippedOperand deeper)
  | .prefixBinary => do
    modify step
    let first ← strippedOperand deeper
    let second ← strippedOperand deeper
    return .binary token.template first second
  | .sign => do
    let leads ← look leads?
    modify step
    if leads then return .flat [ofToken token, ← operand deeper] else return ofToken token
  | .optionalScripts => optionalScripts deeper fuel token
  | .derivative => derivative deeper fuel token
  | .separator | .alignMark => do
    modify step
    return ofToken token
  | .closer => do
    modify step
    return .leaf ("\\left. " ++ token.template) token.value
  | .infixOp | .postfixOp => do
    modify step
    return .leaf token.value token.value
  | .unused => throw (.unusedKeyword token.value token.position)

def readToken (fuel : Nat) (followed : Bool) (token : Token) : Run Formula := do
  let formula ← readAlone deeper fuel token
  if followed then attachFollowers deeper fuel 0 formula else return formula

end

/-- The formula at the cursor, which is empty at the end of the region. -/
def read : (fuel : Nat) → (followed : Bool) → Run Formula
  | 0, _ => noFuel
  | fuel + 1, followed => do
    match ← next with
    | none => return .empty
    | some token =>
      if maxLevels ≤ (← get).depth then throw (.nestingTooDeep token.position)
      else nested (readToken (read fuel) fuel followed token)

/-- Each level takes some, and what is left on the last one is enough for every loop. -/
def enoughFuel (cursor : TokenCursor) : Nat := 2 * maxLevels + cursor.tokens.size + 3

/-- The whole formula that tokens stand for. -/
def formula? (tokens : List Token) : Option (Except ConversionError Formula) := do
  let cursor := ofTokens tokens
  let (outcome, _) ← sequence (read cursor.enoughFuel) cursor.enoughFuel cursor
  return .root <$> outcome

end TokenCursor

end AsciiMath
