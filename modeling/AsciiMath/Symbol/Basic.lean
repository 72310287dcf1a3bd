/-!
# Symbols

A symbol is what a keyword stands for: the TeX it is written as, the category that tells how it
combines with its neighbours, and for some keywords a flag. The TeX of an operator marks the places
of its arguments by `$1` and `$2`.
-/

namespace AsciiMath

inductive Category where
  | constant
  /-- A letter such as theta, which can name a variable. -/
  | letter
  | text
  | number
  /-- A run of characters that start no keyword. -/
  | run
  | opener
  | closer
  /-- A bar opens, closes or separates. -/
  | bar
  /-- A comma between cells or a semicolon between rows. -/
  | separator
  /-- An alignment point, or the row break of a blank line. -/
  | alignMark
  | script
  /-- A plus or minus, between two terms or before one. -/
  | sign
  | prefixUnary
  | prefixBinary
  | infixOp
  | postfixOp
  /-- An operator over which and under which something may be written. -/
  | optionalScripts
  | derivative
  /-- A keyword that takes part in no formula. -/
  | unused
deriving DecidableEq, Repr

/-- A sign after a token of such a category belongs to the operand that follows. -/
def Category.takesOperand : Category → Bool
  | .script | .prefixUnary | .prefixBinary | .infixOp | .optionalScripts | .derivative => true
  | _ => false

/-- A script or an operator that takes what stands before it. -/
def Category.follows : Category → Bool
  | .script | .infixOp | .postfixOp => true
  | _ => false

/-- What a keyword asks of the text right after it. -/
inductive Flag where
  /-- Text in parentheses, or up to the next blank. -/
  | rawText
  /-- The name or number of a color, with or without brackets. -/
  | colorSpec
  /-- TeX in double quotes. -/
  | texLiteral
  /-- A length in double quotes. -/
  | lengthLiteral
  /-- Nothing is read, but a matrix that follows takes the keyword into its first row. -/
  | rowRule
deriving DecidableEq, Repr

structure Symbol where
  template : String
  category : Category
  flag : Option Flag
deriving DecidableEq, Repr

namespace Symbol

/-- Whether the place of the given argument occurs in a template. -/
def mentions (digit : Char) : List Char → Bool
  | [] => false
  | c :: cs => (c == '$' && cs.head? == some digit) || mentions digit cs

/-- A symbol known by its template alone takes as many arguments as the template has places for. -/
def ofTemplate (template : String) : Symbol where
  template
  category :=
    if mentions '2' template.toList then .prefixBinary
    else if mentions '1' template.toList then .prefixUnary
    else .constant
  flag := none

end Symbol

end AsciiMath
