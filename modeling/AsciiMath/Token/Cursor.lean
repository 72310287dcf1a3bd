import AsciiMath.Token.Basic

/-!
# Cursors

A cursor is a place in the input: the text that is left and the position where it starts. Moving it
never changes the text that is left apart from cutting off its front.
-/

namespace AsciiMath

structure Cursor where
  rest : List Char
  position : Position
deriving DecidableEq, Repr

namespace Cursor

def ofText (text : List Char) : Cursor := ⟨text, .start⟩

/-- The place between two parts of the text that is left. -/
def between (cursor : Cursor) (front back : List Char) : Cursor :=
  ⟨back, cursor.position.after front⟩

/-- One character further, if there is one. -/
def step (cursor : Cursor) : Cursor :=
  match cursor.rest with
  | [] => cursor
  | c :: cs => cursor.between [c] cs

def skip (cursor : Cursor) (p : Char → Bool) : Cursor :=
  cursor.between (cursor.rest.takeWhile p) (cursor.rest.dropWhile p)

def startsWith (cursor : Cursor) (characters : List Char) : Bool :=
  match cursor.rest with
  | [] => false
  | c :: _ => c ∈ characters

end Cursor

end AsciiMath
