import AsciiMath.Text.Cut
import AsciiMath.Token.Scanner

/-!
# Scanning by byte counts

A scanner can work on the bytes of its text. It counts the bytes up to the next character of some
kind and cuts the text that is left there. Nothing here keeps such a count from falling inside of a
character, past the end or below zero, or the rounds of a call from going on: a run in which that
happens has no outcome. Only the length that a keyword map tells is tested before the text is cut,
because no look at the text has been taken for it.
-/

namespace AsciiMath

structure ByteScanner where
  cursor : Cursor
  /-- An argument that was read with its keyword and comes next. -/
  pending : Option Token
  /-- How often the scanner has tried in vain. -/
  stalls : Nat
  budget : Nat
deriving DecidableEq, Repr

namespace ByteScanner

/-- What is found, and the scanner after that. -/
abbrev Run (α : Type) := StateT ByteScanner Option α

variable {α : Type}

def ofText (text : List Char) : ByteScanner := ⟨.ofText text, none, 0, 4 * (text.length + 1)⟩

/-- What is left of the patience of a scanner that counts down. -/
def toScanner (scanner : ByteScanner) : Scanner :=
  ⟨scanner.cursor, scanner.pending, scanner.budget - scanner.stalls, scanner.budget⟩

def goTo (scanner : ByteScanner) (cursor : Cursor) : ByteScanner := { scanner with cursor }

/-- A count that does not fit leaves the run without an outcome. -/
def check (found? : Option α) : Run α := fun scanner => found?.map (·, scanner)

def place : Run Cursor := do
  return (← get).cursor

def take (count : Nat) : Run (List Char) := do
  let cursor ← place
  let (front, back) ← check (Text.splitBytes? count cursor.rest)
  modify (·.goTo (cursor.between front back))
  return front

/-- All of the text up to the first character of a kind. -/
def takeUpTo (p : Char → Bool) : Run (List Char) := do
  take (Text.bytesUpTo p (← place).rest)

/-- Blanks with two or more line ends before more text. -/
def blankLine : Run (Option Token) := do
  let cursor ← place
  match Text.bytesBefore? (!Text.isBlank ·) cursor.rest with
  | none => return none
  | some count =>
    let (blank, _) ← check (Text.splitBytes? count cursor.rest)
    if blank.count '\n' < 2 then
      return none
    else
      let value ← take count
      return some ⟨String.ofList value, rowBreak, .alignMark, false, none, cursor.position⟩

def lessOne? : Nat → Option Nat
  | 0 => none
  | count + 1 => some count

/-- The bytes inside of the group that begins a text, and those of the whole group. -/
def groupBytes? : (offset : Nat) → (depth : Int) → List Char → Option (Nat × Nat)
  | offset, _, [] => return (← lessOne? offset, offset)
  | offset, depth, c :: cs =>
    if c = '(' then groupBytes? (offset + c.utf8Size) (depth + 1) cs
    else if c = ')' then
      if depth = 1 then return (← lessOne? offset, offset + 1)
      else groupBytes? (offset + c.utf8Size) (depth - 1) cs
    else groupBytes? (offset + c.utf8Size) depth cs

def rawText : Run Token := do
  let _ ← takeUpTo (!Text.isInlineBlank ·)
  let cursor ← place
  if cursor.startsWith ['('] then
    let (inner, total) ← check (groupBytes? 0 0 cursor.rest)
    let value ← check (Text.slice? 1 (1 + inner) cursor.rest)
    let _ ← take total
    return .literal value .text cursor.position
  else
    return .literal (← takeUpTo Text.isBlank) .text cursor.position

/-- The text between the double quote that begins a text and the next one, and the bytes up to
behind that. -/
def quoted? (text : List Char) : Option (List Char × Nat) := do
  let (_, behind) ← Text.splitBytes? 1 text
  match Text.bytesBefore? (· == '\x22') behind with
  | some count => return (← Text.slice? 1 (count + 1) text, count + 2)
  | none => return (behind, Text.byteLength text)

def quotedLiteral : Run Token := do
  let _ ← takeUpTo (!Text.isInlineBlank ·)
  let cursor ← place
  if cursor.startsWith ['\x22'] then
    let (value, total) ← check (quoted? cursor.rest)
    let _ ← take total
    return .literal value .text cursor.position
  else
    rawText

/-- One byte is taken for a bracket. -/
def takeBracket (bracketed : Bool) : Run Unit := do
  if bracketed then
    let _ ← take 1

def colorSpec : Run Token := do
  let _ ← takeUpTo (!Text.isInlineBlank ·)
  let bracketed := (← place).startsWith ['(', '[', '\x7b']
  takeBracket bracketed
  let cursor ← place
  let value ← takeUpTo (!Cursor.isColorChar ·)
  let closed := (← place).startsWith [')', ']', '\x7d']
  takeBracket (bracketed && closed)
  return .literal value .text cursor.position

def argument : Flag → Run (Option Token)
  | .rawText => return some (← rawText)
  | .texLiteral | .lengthLiteral => return some (← quotedLiteral)
  | .colorSpec => return some (← colorSpec)
  | .rowRule => return none

/-- The bytes of digits and at most one point, and whether there is a point among them. -/
def numericBytes : (pointed : Bool) → List Char → Nat × Bool
  | pointed, [] => (0, pointed)
  | pointed, c :: cs =>
    if c = '.' && !pointed then
      let (count, pointed) := numericBytes true cs
      (c.utf8Size + count, pointed)
    else if c.isDigit then
      let (count, pointed) := numericBytes pointed cs
      (c.utf8Size + count, pointed)
    else
      (0, pointed)

/-- A point alone is not a number. -/
def numeralBytes (text : List Char) : Nat :=
  let (count, pointed) := numericBytes false text
  if 1 < count || (!pointed && 0 < count) then count else 0

/-- One more round in vain, which is followed by another or by a report and the end. -/
def stall (again : Run (Option (Except ConversionError Token))) :
    Run (Option (Except ConversionError Token)) := do
  modify fun scanner => { scanner with stalls := scanner.stalls + 1 }
  let scanner ← get
  if scanner.budget < scanner.stalls then
    modify (·.goTo ⟨[], scanner.cursor.position⟩)
    return some (.error (.stalled scanner.cursor.position scanner.budget))
  else
    again

section

variable {μ : Type} [KeywordMap μ Symbol]

/-- The bytes up to a blank or a place where a keyword starts, in what is left of a whole text. -/
def runBytes? (keywords : μ) (text : List Char) : (offset : Nat) → List Char → Option Nat
  | _, [] => some (Text.byteLength text)
  | offset, c :: cs =>
    if Text.isBlank c then
      some offset
    else do
      let (_, behind) ← Text.splitBytes? offset text
      if KeywordMap.startsKeyword keywords behind then return offset
      else runBytes? keywords text (offset + c.utf8Size) cs

/-- The argument of a keyword is kept for later. -/
def takeArgument (flag? : Option Flag) : Run Unit := do
  match flag? with
  | some flag =>
    let pending ← argument flag
    modify fun scanner => { scanner with pending }
  | none => return

def keyword (keywords : μ) : Run (Option Token) := do
  let cursor ← place
  let fits (found : Nat × Symbol) := 0 < found.1 && Text.isBoundary found.1 cursor.rest
  match (KeywordMap.longest? keywords cursor.rest).filter fits with
  | none => return none
  | some (count, symbol) =>
    let value ← take count
    takeArgument symbol.flag
    return some ⟨String.ofList value, symbol.template, symbol.category, true, symbol.flag,
      cursor.position⟩

def numeral : Run (Option Token) := do
  let cursor ← place
  let count := numeralBytes cursor.rest
  if 0 < count then return some (.literal (← take count) .number cursor.position) else return none

def quotation : Run (Option Token) := do
  let cursor ← place
  if cursor.startsWith ['\x22'] then
    let (inside, total) ← check (quoted? cursor.rest)
    let _ ← take total
    let value := String.ofList inside
    return some ⟨value, "\\text\x7b" ++ value ++ "\x7d", .text, false, none, cursor.position⟩
  else
    return none

def run (keywords : μ) : Run (Option Token) := do
  let cursor ← place
  let count ← check (runBytes? keywords cursor.rest 0 cursor.rest)
  if count = 0 then return none else return some (.literal (← take count) .run cursor.position)

def orElse (first second : Run (Option Token)) : Run (Option Token) := do
  match ← first with
  | some token => return some token
  | none => second

def lexeme (keywords : μ) : Run (Option Token) :=
  orElse (keyword keywords) (orElse numeral (orElse quotation (run keywords)))

/-- A round without a token that shortens the text is in vain. -/
def retry (keywords : μ) : (rounds : Nat) → Run (Option (Except ConversionError Token))
  | 0 => check none
  | rounds + 1 => do
    match ← blankLine with
    | some token => return some (.ok token)
    | none =>
      let _ ← takeUpTo (!Text.isBlank ·)
      let before := (← place).rest
      if before.isEmpty then
        return none
      else
        let found ← lexeme keywords
        let after := (← place).rest
        match found.filter fun _ => Text.byteLength after < Text.byteLength before with
        | some token => return some (.ok token)
        | none => stall (retry keywords rounds)

/-- The next token, nothing at the end. -/
def next (keywords : μ) : Run (Option (Except ConversionError Token)) := do
  let scanner ← get
  match scanner.pending with
  | some token =>
    set { scanner with pending := none }
    return some (.ok token)
  | none => retry keywords (scanner.budget + 1)

/-- What comes after a number of calls. -/
def item? (keywords : μ) : (calls : Nat) → ByteScanner →
    Option (Option (Except ConversionError Token))
  | 0, scanner => (next keywords scanner).map Prod.fst
  | calls + 1, scanner => do
    let (_, after) ← next keywords scanner
    item? keywords calls after

end

end ByteScanner

end AsciiMath
