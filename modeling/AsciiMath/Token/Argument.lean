import AsciiMath.Text.Blank
import AsciiMath.Token.Cursor

/-!
# Arguments read with a keyword

Some keywords are followed by text that is not a formula: words in parentheses, TeX in double
quotes, the name of a color. It is read to the delimiter that closes it and stands in the output as
it is. What is never closed runs to the end of the input.
-/

namespace AsciiMath

namespace Cursor

/-- The text up to the parenthesis that closes a group, and the text from there on. -/
def splitGroup : Nat → List Char → List Char × List Char
  | _, [] => ([], [])
  | depth, c :: cs =>
    if c = ')' then
      match depth with
      | 0 => ([], c :: cs)
      | depth + 1 => let (inside, back) := splitGroup depth cs; (c :: inside, back)
    else
      let (inside, back) := splitGroup (if c = '(' then depth + 1 else depth) cs
      (c :: inside, back)

/-- The text between the double quote at the cursor and the next one. -/
def quotation (cursor : Cursor) : List Char × Cursor :=
  let opened := cursor.step
  (opened.rest.takeWhile (· != '\x22'), (opened.skip (· != '\x22')).step)

def rawText (cursor : Cursor) : Token × Cursor :=
  let cursor := cursor.skip Text.isInlineBlank
  if cursor.startsWith ['('] then
    let opened := cursor.step
    let (inside, back) := splitGroup 0 opened.rest
    (.literal inside .text cursor.position, (opened.between inside back).step)
  else
    (.literal (cursor.rest.takeWhile (!Text.isBlank ·)) .text cursor.position,
      cursor.skip (!Text.isBlank ·))

/-- Text without quotes is read as raw text. -/
def quotedLiteral (cursor : Cursor) : Token × Cursor :=
  let cursor := cursor.skip Text.isInlineBlank
  if cursor.startsWith ['\x22'] then
    let (inside, after) := cursor.quotation
    (.literal inside .text cursor.position, after)
  else
    cursor.rawText

def isColorChar (c : Char) : Bool := c == '#' || c.isAlphanum

/-- Any closing bracket goes with any opening one. -/
def colorSpec (cursor : Cursor) : Token × Cursor :=
  let cursor := cursor.skip Text.isInlineBlank
  let bracketed := cursor.startsWith ['(', '[', '\x7b']
  let cursor := if bracketed then cursor.step else cursor
  let after := cursor.skip isColorChar
  (.literal (cursor.rest.takeWhile isColorChar) .text cursor.position,
    if bracketed && after.startsWith [')', ']', '\x7d'] then after.step else after)

/-- The argument a flag asks for, and the place behind it. -/
def argument (cursor : Cursor) : Flag → Option Token × Cursor
  | .rawText => cursor.rawText.map some id
  | .texLiteral | .lengthLiteral => cursor.quotedLiteral.map some id
  | .colorSpec => cursor.colorSpec.map some id
  | .rowRule => (none, cursor)

end Cursor

end AsciiMath
