import AsciiMath.Engine.Basic
import AsciiMath.Engine.Revision
import AsciiMath.Formula.OfTokens
import AsciiMath.Formula.Operand
import AsciiMath.Formula.RuleCursor
import AsciiMath.Formula.Tex
import AsciiMath.Formula.TokenCursor
import AsciiMath.Formula.Writer
import AsciiMath.Keyword.LinkedTrie
import AsciiMath.Keyword.Trie
import AsciiMath.Symbol.Table
import AsciiMath.Text.Blank
import AsciiMath.Text.Bytes
import AsciiMath.Text.CaseClass
import AsciiMath.Text.Escaped
import AsciiMath.Text.Graphic
import AsciiMath.Text.Quoted
import AsciiMath.Text.Word
import AsciiMath.Token.ByteScanner
import AsciiMath.Token.Scanner
import AsciiMath.Proofs.Formula.Reads
import AsciiMath.Proofs.Formula.Sound
import AsciiMath.Proofs.Formula.Grid
import AsciiMath.Proofs.Formula.Closed
import AsciiMath.Proofs.Formula.Outcome
import AsciiMath.Proofs.Keyword.Trie
import AsciiMath.Proofs.Symbol.Table
import AsciiMath.Proofs.Engine.Outcome
import AsciiMath.Proofs.Tex.Compose
import AsciiMath.Proofs.Formula.Nesting
import AsciiMath.Proofs.Engine.Nesting
import AsciiMath.Proofs.Formula.Content
import AsciiMath.Proofs.Formula.Carries
import AsciiMath.Proofs.Formula.Lookahead
import AsciiMath.Proofs.Formula.Height
import AsciiMath.Proofs.Token.Lookup
import AsciiMath.Proofs.Token.Lexeme
import AsciiMath.Proofs.Formula.TopLevel
import AsciiMath.Proofs.Engine.Alignment
import AsciiMath.Proofs.Formula.Columns
import AsciiMath.Proofs.Token.Munch
import AsciiMath.Proofs.Keyword.Refinement
import AsciiMath.Proofs.Keyword.Fronts
import AsciiMath.Proofs.Symbol.Merge
import AsciiMath.Proofs.Symbol.Extra
import AsciiMath.Proofs.Formula.Blind
import AsciiMath.Proofs.Token.SizeHint
import AsciiMath.Proofs.Token.Lines
import AsciiMath.Proofs.Engine.PlainText
import AsciiMath.Proofs.Engine.Verbatim
import AsciiMath.Proofs.Formula.Chain
import AsciiMath.Proofs.Formula.BarPairs
import AsciiMath.Proofs.Formula.LeafGrid
import AsciiMath.Proofs.Formula.ColumnSpec
import AsciiMath.Proofs.Formula.Derivative
import AsciiMath.Proofs.Formula.OptionalScripts
import AsciiMath.Proofs.Formula.Regroup
import AsciiMath.Proofs.Formula.Writer
import AsciiMath.Proofs.Symbol.Arity
import AsciiMath.Proofs.Engine.Rules
import AsciiMath.Proofs.Formula.Discipline
