import AsciiMath.Pattern.Class

/-!
# Reading patterns

A pattern is read into an expression, or refused. Refused are brackets and groups that do not close,
counts and ranges that run backwards, repetitions of nothing, escapes, modes and names that mean
nothing, and looking around or back.
-/

namespace AsciiMath.Pattern

/-- The pattern that is left, the modes that hold, and the groups that were opened with a number. -/
structure Progress where
  rest : List Char
  modes : Modes
  groups : Nat
  names : List (String × Nat)

namespace Progress

def skip (progress : Progress) : Progress :=
  { progress with rest := progress.modes.skip progress.rest }

def openGroup (progress : Progress) (rest : List Char) : Progress :=
  { progress with rest, groups := progress.groups + 1 }

end Progress

def startsGroupName (c : Char) : Bool := c == '_' || Text.isLetter c

def continuesGroupName (c : Char) : Bool :=
  c ∈ ['_', '.', '[', ']'] || Text.isAlphanumeric c

def isGroupName : List Char → Bool
  | [] => false
  | c :: cs => startsGroupName c && cs.all continuesGroupName

/-- The modes set by the letters of a group's head, where a hyphen turns the ones behind it off.
Letters and hyphen may stand once each, and the hyphen not last. -/
def readModes (modes : Modes) : List Char → (on : Bool) → (seen : List Char) →
    Option (Modes × List Char × List Char)
  | [], _, _ => none
  | c :: cs, on, seen =>
    if c = ':' || c = ')' then
      if seen.head? = some '-' then none else some (modes, seen, c :: cs)
    else if c ∈ seen then
      none
    else if c = '-' then
      readModes modes cs false (c :: seen)
    else do
      readModes (← modes.set? c on) cs on (c :: seen)

inductive GroupHead where
  /-- Modes for the rest of the group around it. -/
  | modes
  | group (number : Option Nat)

/-- What stands between an opening parenthesis and the contents of the group. -/
def readGroupHead (progress : Progress) : Option (GroupHead × Progress) :=
  let progress := progress.skip
  let named (cs : List Char) : Option (GroupHead × Progress) :=
    let name := cs.takeWhile (· != '>')
    match cs.dropWhile (· != '>') with
    | '>' :: after =>
      let number := progress.groups + 1
      let text := String.ofList name
      if isGroupName name && (progress.names.lookup text).isNone then
        some (.group (some number),
          { progress.openGroup after with names := (text, number) :: progress.names })
      else
        none
    | _ => none
  match progress.rest with
  | '?' :: '=' :: _ | '?' :: '!' :: _ | '?' :: '<' :: '=' :: _ | '?' :: '<' :: '!' :: _ => none
  | '?' :: 'P' :: '<' :: cs | '?' :: '<' :: cs => named cs
  | '?' :: cs => do
    let (modes, seen, after) ← readModes progress.modes cs true []
    match after with
    | ')' :: after =>
      if seen.isEmpty then none else some (.modes, { progress with rest := after, modes })
    | _ :: after => some (.group none, { progress with rest := after, modes })
    | [] => none
  | cs => some (.group (some (progress.groups + 1)), progress.openGroup cs)

/-- The digits of a count, which blanks may surround, and the pattern behind them. -/
def readDecimal (modes : Modes) : Nat → List Char → List Char × List Char
  | 0, pattern => ([], pattern)
  | fuel + 1, pattern =>
    match pattern with
    | [] => ([], [])
    | c :: cs =>
      if c.isDigit then
        let (digits, after) := readDecimal modes fuel (modes.skip cs)
        (c :: digits, after)
      else
        ([], modes.skip (pattern.dropWhile Text.isBlank))

def decimal? (digits : List Char) : Option Nat :=
  if digits.isEmpty then none
  else
    let value := digits.foldl (fun value c => 10 * value + (c.toNat - '0'.toNat)) 0
    if value < 0x100000000 then some value else none

def readCountNumber (modes : Modes) (pattern : List Char) : Option Nat × List Char :=
  let pattern := pattern.dropWhile Text.isBlank
  let (digits, after) := readDecimal modes (pattern.length + 1) pattern
  (decimal? digits, after)

/-- The bounds of a count behind its opening brace, and the pattern behind the closing one. -/
def readCount (modes : Modes) (pattern : List Char) : Option (Nat × Option Nat × List Char) := do
  let (least?, after) := readCountNumber modes (modes.skip pattern)
  let least ← least?
  match after with
  | '\x7d' :: after => return (least, some least, modes.skip after)
  | ',' :: after =>
    match modes.skip after with
    | '\x7d' :: after => return (least, none, modes.skip after)
    | after => do
      let (most?, after) := readCountNumber modes after
      let most ← most?
      if most < least then none
      match after with
      | '\x7d' :: after => return (least, some most, modes.skip after)
      | _ => none
  | _ => none

/-- A question mark behind a repetition makes it lazy. -/
def readLazy : List Char → Bool × List Char
  | '?' :: cs => (true, cs)
  | cs => (false, cs)

/-- The items of a sequence, the last one first; a change of modes is an item that cannot be
repeated. -/
abbrev Items := List (Option Expr)

def Items.toExpr (items : Items) : Expr := .ofList (items.filterMap id).reverse

/-- The items with the last one repeated. -/
def Items.repeatLast? (items : Items) (modes : Modes) (least : Nat) (most : Option Nat)
    (pattern : List Char) : Option (Items × List Char) :=
  match items with
  | some expr :: items =>
    let (lazy, after) := readLazy pattern
    some (some (.repeated expr least most (lazy != modes.swapLazy)) :: items, after)
  | _ => none

def Atom.toExpr (modes : Modes) : Atom → Expr
  | .literal c => .one (modes.closeCase (.single c))
  | .set found => .one found
  | .look found => .look found

/-- A single character, escape or sign of a pattern. -/
def readPrimitive (modes : Modes) (c : Char) (cs : List Char) : Option (Expr × List Char) :=
  match c with
  | '\\' => do
    let (atom, after) ← readEscape modes cs
    return (atom.toExpr modes, after)
  | '.' => do return (.one (← modes.dot?), cs)
  | '^' => some (.look modes.startLook, cs)
  | '$' => some (.look modes.endLook, cs)
  | c => some (.one (modes.closeCase (.single c)), cs)

mutual

/-- The choices up to the end of the group. -/
def readChoices : Nat → List Expr → Progress → Option (Expr × Progress)
  | 0, _, _ => none
  | fuel + 1, choices, progress => do
    let (items, progress) ← readItems fuel [] progress
    let choices := items.toExpr :: choices
    match progress.rest with
    | '|' :: rest => readChoices fuel choices { progress with rest }
    | _ => return (.ofChoices choices.reverse, progress)

/-- The items up to the end of the choice. -/
def readItems : Nat → Items → Progress → Option (Items × Progress)
  | 0, _, _ => none
  | fuel + 1, items, progress =>
    let progress := progress.skip
    let modes := progress.modes
    let repeated (least : Nat) (most : Option Nat) (pattern : List Char) :
        Option (Items × Progress) := do
      let (items, rest) ← items.repeatLast? modes least most pattern
      readItems fuel items { progress with rest }
    match progress.rest with
    | [] => some (items, progress)
    | c :: cs =>
      match c with
      | ')' | '|' => some (items, progress)
      | '(' => do
        let (head, inner) ← readGroupHead { progress with rest := cs }
        match head with
        | .modes => readItems fuel (none :: items) inner
        | .group number => do
          let (body, after) ← readChoices fuel [] inner
          match after.rest with
          | ')' :: rest =>
            readItems fuel (some (.group number body) :: items) { after with rest, modes }
          | _ => none
      | '?' => repeated 0 (some 1) cs
      | '*' => repeated 0 none cs
      | '+' => repeated 1 none cs
      | '\x7b' => do
        let (least, most, after) ← readCount modes cs
        repeated least most after
      | '[' => do
        let (set, rest) ← readClass modes (2 * cs.length + 2) cs
        readItems fuel (some (.one (← modes.admit? set)) :: items) { progress with rest }
      | c => do
        let (expr, rest) ← readPrimitive modes c cs
        readItems fuel (some expr :: items) { progress with rest }

end

/-- Expressions nested deeper than this are refused. -/
def maxDepth : Nat := 250

/-- The expression of a pattern, with the number of its groups and their names. -/
def readPattern (pattern : List Char) : Option (Expr × Nat × List (String × Nat)) := do
  let (expr, progress) ← readChoices (2 * pattern.length + 2) [] ⟨pattern, .start, 0, []⟩
  if progress.rest.isEmpty && expr.depth ≤ maxDepth then
    return (expr, progress.groups, progress.names)
  else
    none

end AsciiMath.Pattern
