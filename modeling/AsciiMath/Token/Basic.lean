import AsciiMath.Symbol.Basic

/-!
# Tokens

A token is a piece of the input with the TeX it is written as and the place where it starts. Lines
and columns are counted in characters and start at one.
-/

namespace AsciiMath

structure Position where
  line : Nat
  column : Nat
deriving DecidableEq, Repr

namespace Position

def start : Position := ⟨1, 1⟩

def next (position : Position) (c : Char) : Position :=
  if c = '\n' then ⟨position.line + 1, 1⟩ else ⟨position.line, position.column + 1⟩

/-- The position behind a text that starts at the given one. -/
def after (position : Position) (text : List Char) : Position := text.foldl next position

def toText (position : Position) : String :=
  position.line.repr ++ ":" ++ position.column.repr

@[simp] theorem after_nil (position : Position) : position.after [] = position := rfl

@[simp] theorem after_append (position : Position) (front back : List Char) :
    position.after (front ++ back) = (position.after front).after back :=
  List.foldl_append

end Position

structure Token where
  value : String
  template : String
  category : Category
  /-- The token is an entry of the symbol table. -/
  keyword : Bool
  flag : Option Flag
  position : Position
deriving DecidableEq, Repr

/-- The TeX of a row break. -/
def rowBreak : String := "\\\\"

namespace Token

/-- A token that is written as it stands. -/
def literal (value : List Char) (category : Category) (position : Position) : Token :=
  ⟨String.ofList value, String.ofList value, category, false, none, position⟩

def isRowSeparator (token : Token) : Bool :=
  token.category == .separator && token.value == ";"

end Token

end AsciiMath
