import AsciiMath.Formula.PlaceCursor
import AsciiMath.Formula.Tex

/-!
# Writing a formula

The TeX of a formula can be written behind what has been written before it, part by part. Each of
several neighbours is written for itself first, to see whether there is anything to write, and a
space goes before each of them that is not the first. Templates are filled by their cursor.
-/

namespace AsciiMath.Formula

mutual

/-- What has been written once the formula is; none if a template is cut inside a character. -/
def write? : Formula → String → Option String
  | .leaf template _, out => some (out ++ template)
  | .flat children, out => writeJoined? true children out
  | .unary template argument, out => do
    let argument ← write? argument ""
    PlaceCursor.finish? [argument] ⟨out, template.toList⟩
  | .binary template first second, out => do
    let first ← write? first ""
    let second ← write? second ""
    PlaceCursor.finish? [first, second] ⟨out, template.toList⟩
  | .matrix grid, out => do
    let before := out ++ grid.left ++ " \\begin\x7barray\x7d\x7b" ++ grid.columnSpec ++ "\x7d "
    let rows ← writeRows? grid.rows before
    return rows ++ " \\end\x7barray\x7d " ++ grid.right
  | .root children, out =>
    if children.any isAlignPoint then do
      let body ← writeJoined? true children (out ++ "\\begin\x7baligned\x7d ")
      return body ++ " \\end\x7baligned\x7d"
    else
      writeJoined? true children out
termination_by structural formula => formula

/-- Neighbours behind others, unless they are the first. An empty leaf is not even tried. -/
def writeJoined? : Bool → List Formula → String → Option String
  | _, [], out => some out
  | first, child :: children, out =>
    if child.isEmpty then
      writeJoined? first children out
    else do
      let shown ← write? child ""
      if shown = "" then
        writeJoined? first children out
      else
        writeJoined? false children ((if first then out else out ++ " ") ++ shown)
termination_by structural _ children => children

def writeRows? : List (List Formula) → String → Option String
  | [], out => some out
  | row :: rows, out => do
    let cells ← writeCells? row
    let line := out ++ " & ".intercalate cells
    writeRows? rows (if rows.isEmpty then line else line ++ " \\\\ ")
termination_by structural rows => rows

def writeCells? : List Formula → Option (List String)
  | [] => some []
  | cell :: cells => do
    let shown ← write? cell ""
    return shown :: (← writeCells? cells)
termination_by structural cells => cells

end

end AsciiMath.Formula
