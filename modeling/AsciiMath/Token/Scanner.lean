import AsciiMath.Error
import AsciiMath.Keyword.Lookup
import AsciiMath.Text.Bytes
import AsciiMath.Token.Argument

/-!
# Scanning

A scanner splits the input into tokens. A token is the longest keyword at its place, else a number,
else a quotation, else a run that ends at a blank or where a keyword starts. Blanks separate tokens,
and those with two or more line ends before more text are a row break. A keyword that asks for an
argument is followed by it. Where no token can be read the scanner tries again until its patience is
used up, reports the place, and is at its end.
-/

namespace AsciiMath

namespace Cursor

/-- A token with the argument that it takes along, and the place behind both. -/
structure Lexeme where
  token : Token
  argument : Option Token
  after : Cursor
deriving DecidableEq, Repr

variable {μ : Type} [KeywordMap μ Symbol]

def keyword? (cursor : Cursor) (keywords : μ) : Option Lexeme :=
  match KeywordMap.longest? keywords cursor.rest with
  | some (length + 1, symbol) =>
    (Text.splitBytes? (length + 1) cursor.rest).map fun (front, back) =>
      let token : Token :=
        ⟨String.ofList front, symbol.template, symbol.category, true, symbol.flag, cursor.position⟩
      let after := cursor.between front back
      match symbol.flag with
      | some flag => let (argument, after) := after.argument flag; ⟨token, argument, after⟩
      | none => ⟨token, none, after⟩
  | _ => none

/-- Digits with at most one point among them or at either end. -/
def numeral (text : List Char) : List Char × List Char :=
  let whole := text.takeWhile Char.isDigit
  let back := text.dropWhile Char.isDigit
  match back with
  | '.' :: back' =>
    let fraction := back'.takeWhile Char.isDigit
    if whole.isEmpty && fraction.isEmpty then ([], text)
    else (whole ++ '.' :: fraction, back'.dropWhile Char.isDigit)
  | _ => (whole, back)

def numeral? (cursor : Cursor) : Option Lexeme :=
  match numeral cursor.rest with
  | ([], _) => none
  | (front, back) =>
    some ⟨.literal front .number cursor.position, none, cursor.between front back⟩

def quotation? (cursor : Cursor) : Option Lexeme :=
  if cursor.startsWith ['\x22'] then
    let (inside, after) := cursor.quotation
    let value := String.ofList inside
    let template := "\\text\x7b" ++ value ++ "\x7d"
    some ⟨⟨value, template, .text, false, none, cursor.position⟩, none, after⟩
  else
    none

/-- The text up to a blank or a place where a keyword starts, and the text from there on. -/
def splitRun (keywords : μ) : List Char → List Char × List Char
  | [] => ([], [])
  | c :: cs =>
    if Text.isBlank c || KeywordMap.startsKeyword keywords (c :: cs) then
      ([], c :: cs)
    else
      let (front, back) := splitRun keywords cs
      (c :: front, back)

def run? (cursor : Cursor) (keywords : μ) : Option Lexeme :=
  match splitRun keywords cursor.rest with
  | ([], _) => none
  | (front, back) => some ⟨.literal front .run cursor.position, none, cursor.between front back⟩

def lexeme? (cursor : Cursor) (keywords : μ) : Option Lexeme :=
  cursor.keyword? keywords <|> cursor.numeral? <|> cursor.quotation? <|> cursor.run? keywords

def rowBreak? (cursor : Cursor) : Option Lexeme :=
  let blank := cursor.rest.takeWhile Text.isBlank
  let after := cursor.skip Text.isBlank
  if after.rest.isEmpty || blank.count '\n' < 2 then
    none
  else
    some ⟨⟨String.ofList blank, rowBreak, .alignMark, false, none, cursor.position⟩, none, after⟩

end Cursor

namespace Cursor

variable {μ : Type} [KeywordMap μ Symbol]

/-- One attempt at a token, and the place where it was made. -/
def attempt (cursor : Cursor) (keywords : μ) : Option Lexeme × Cursor :=
  match cursor.rowBreak? with
  | some lexeme => (some lexeme, cursor)
  | none =>
    let cursor := cursor.skip Text.isBlank
    (cursor.lexeme? keywords, cursor)

/-- Attempts are repeated while text is left and patience too. -/
def retry (keywords : μ) : Nat → Cursor → (Option Lexeme × Cursor) × Nat
  | 0, cursor => (cursor.attempt keywords, 0)
  | patience + 1, cursor =>
    let result := cursor.attempt keywords
    if result.1.isSome || result.2.rest.isEmpty then (result, patience + 1)
    else retry keywords patience result.2

end Cursor

structure Scanner where
  cursor : Cursor
  /-- An argument that was read with its keyword and comes next. -/
  pending : Option Token
  /-- How often the scanner may still try in vain. -/
  patience : Nat
  budget : Nat
deriving DecidableEq, Repr

namespace Scanner

/-- Four attempts in vain are allowed for each character, and four for the end. -/
def ofText (text : List Char) : Scanner :=
  let budget := 4 * (text.length + 1)
  ⟨.ofText text, none, budget, budget⟩

variable {μ : Type} [KeywordMap μ Symbol]

/-- The next token, nothing at the end. -/
def next (keywords : μ) (scanner : Scanner) : Option (Except ConversionError Token) × Scanner :=
  match scanner.pending with
  | some token => (some (.ok token), { scanner with pending := none })
  | none =>
    match Cursor.retry keywords scanner.patience scanner.cursor with
    | ((some lexeme, _), patience) =>
      (some (.ok lexeme.token),
        { scanner with cursor := lexeme.after, pending := lexeme.argument, patience })
    | ((none, cursor), patience) =>
      if cursor.rest.isEmpty then
        (none, { scanner with cursor, patience })
      else
        (some (.error (.stalled cursor.position scanner.budget)),
          { scanner with cursor := ⟨[], cursor.position⟩, patience })

/-- The fewest and the most tokens that may still come. -/
def sizeHint (scanner : Scanner) : Nat × Nat :=
  (if scanner.pending.isSome then 1 else 0, Text.byteLength scanner.cursor.rest + 1)

/-- At most this many tokens are left. -/
def size (scanner : Scanner) : Nat :=
  2 * scanner.cursor.rest.length + if scanner.pending.isSome then 1 else 0

def collect (keywords : μ) : Nat → Scanner → Except ConversionError (List Token)
  | 0, _ => .ok []
  | fuel + 1, scanner =>
    match scanner.next keywords with
    | (none, _) => .ok []
    | (some (.error cause), _) => .error cause
    | (some (.ok token), scanner) => (token :: ·) <$> collect keywords fuel scanner

end Scanner

/-- All tokens of a text. -/
def tokenize {μ : Type} [KeywordMap μ Symbol] (keywords : μ) (text : String) :
    Except ConversionError (List Token) :=
  let scanner := Scanner.ofText text.toList
  Scanner.collect keywords (scanner.size + 1) scanner

end AsciiMath
