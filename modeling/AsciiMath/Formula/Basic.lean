import AsciiMath.Formula.Matrix

/-!
# Formulas

A formula is a tree of leaves, rows of neighbours, templates with one or two arguments, and
matrices. A leaf keeps the source it came from beside its TeX, which is how a row is known to be a
bracketed group. An operand loses such brackets.
-/

namespace AsciiMath

inductive Formula where
  | leaf (template source : String)
  | flat (children : List Formula)
  | unary (template : String) (argument : Formula)
  | binary (template : String) (first second : Formula)
  | matrix (grid : Matrix Formula)
  /-- A whole formula. -/
  | root (children : List Formula)
deriving Repr

namespace Formula

/-- Stands where an operand is missing. -/
def empty : Formula := .leaf "" ""

instance : Inhabited Formula := ⟨empty⟩

def isEmpty : Formula → Bool
  | .leaf template _ => template == ""
  | _ => false

/-- Neighbours as one formula. -/
def ofList : List Formula → Formula
  | [] => empty
  | [child] => child
  | children => .flat children

def isLeafFrom (sources : List String) : Formula → Bool
  | .leaf _ source => source ∈ sources
  | _ => false

def groupOpeners : List String := ["(", "[", "\x7b", "\x7b:"]

def groupClosers : List String := [")", "]", "\x7d", ":\x7d"]

/-- What stands between the brackets of a group. -/
def groupBody? : Formula → Option (List Formula)
  | .flat (first :: rest) =>
    if first.isLeafFrom groupOpeners && rest.getLast?.any (isLeafFrom groupClosers) then
      some rest.dropLast
    else
      none
  | _ => none

def stripBrackets (formula : Formula) : Formula :=
  match formula.groupBody? with
  | some body => ofList body
  | none => formula

end Formula

end AsciiMath
