import Lexical.CharClass
import Lexical.Cursor.Basic
import Lexical.Cursor.Script
import Lexical.Diagnostic.Basic
import Lexical.Diagnostic.Draft
import Lexical.Diagnostic.Handler
import Lexical.Fault
import Lexical.Json.Basic
import Lexical.Json.Encoding
import Lexical.Number.Binary64
import Lexical.Number.Decimal
import Lexical.Number.Nearest
import Lexical.Number.Rounding
import Lexical.Number.Shortest
import Lexical.Number.Style
import Lexical.Proofs.Appending
import Lexical.Proofs.Cursor.Cut
import Lexical.Proofs.Cursor.Eating
import Lexical.Proofs.Cursor.Lookahead
import Lexical.Proofs.Cursor.Reading
import Lexical.Proofs.Cursor.Standing
import Lexical.Proofs.Cutting
import Lexical.Proofs.Diagnostic.Building
import Lexical.Proofs.Diagnostic.Collecting
import Lexical.Proofs.Faultless
import Lexical.Proofs.Grammar.Extension
import Lexical.Proofs.Grammar.Literal
import Lexical.Proofs.Grammar.Longest
import Lexical.Proofs.Grammar.Rules
import Lexical.Proofs.Grammar.Seam
import Lexical.Proofs.History
import Lexical.Proofs.Json.Encoding
import Lexical.Proofs.Json.Grammar
import Lexical.Proofs.Json.Numeral
import Lexical.Proofs.Json.Unambiguous
import Lexical.Proofs.Json.Writing
import Lexical.Proofs.LineByLine
import Lexical.Proofs.LineEndings
import Lexical.Proofs.Lines
import Lexical.Proofs.Logging
import Lexical.Proofs.LongestMatch
import Lexical.Proofs.Modes
import Lexical.Proofs.Number.Grid
import Lexical.Proofs.Number.Nearest
import Lexical.Proofs.Number.Numeral
import Lexical.Proofs.Number.Rounding
import Lexical.Proofs.Number.Value
import Lexical.Proofs.Number.Word
import Lexical.Proofs.Number.Written
import Lexical.Proofs.ReadingBack
import Lexical.Proofs.Rendering
import Lexical.Proofs.Reporting
import Lexical.Proofs.RoundedNumbers
import Lexical.Proofs.Scan.Errors
import Lexical.Proofs.Scan.Join
import Lexical.Proofs.Scan.Layout
import Lexical.Proofs.Scan.Piece
import Lexical.Proofs.Scan.Read
import Lexical.Proofs.Scan.Returns
import Lexical.Proofs.Scan.Run
import Lexical.Proofs.Serialization
import Lexical.Proofs.Slicing
import Lexical.Proofs.Stopping
import Lexical.Proofs.Text.Boundary
import Lexical.Proofs.Text.Line
import Lexical.Proofs.Text.LineEnding
import Lexical.Proofs.Text.Run
import Lexical.Proofs.Text.Width
import Lexical.Proofs.Tiling
import Lexical.Scan.Basic
import Lexical.Scan.Error
import Lexical.Scan.Item
import Lexical.Scan.Log
import Lexical.Session
import Lexical.Span
import Lexical.Text.Hidden
import Lexical.Text.Inspection
import Lexical.Text.Offset
import Lexical.Text.Quoted
import Lexical.Token.Basic
import Lexical.Token.Kind
import Lexical.Token.Reserved
