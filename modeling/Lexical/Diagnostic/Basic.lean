import Lexical.Span
import Lexical.Text.Quoted

/-!
# Diagnostics

What is said about a fault in the source text: a message, the line to report it on, the text
it is about, perhaps a code, and notes. The reported line and the line of the span are two
fields on purpose. They differ for a string that is never closed, which is reported where the
input ends but is about the text from its opening quote on.
-/

set_option autoImplicit false

namespace Lexical

/-- A code that names one kind of diagnostic: a family and a number within it. -/
structure Code where
  family : String
  number : Nat
  deriving DecidableEq

namespace Code

/-- The code of a character that starts no token. -/
def unexpectedCharacter : Code := ⟨"E", 1001⟩

/-- The code of a string that is never closed. -/
def unterminatedString : Code := ⟨"E", 1002⟩

/-- The family, then the number with zeros before it up to four digits. -/
def text (c : Code) : String :=
  c.family ++ "".pushn '0' (4 - c.number.repr.length) ++ c.number.repr

def inspect (c : Code) : String :=
  Text.Inspection.record "DiagnosticCode"
    [("prefix", Text.quoted c.family), ("number", c.number.repr)]

end Code

/-- A report about the source text. -/
structure Diagnostic where
  message : String
  line : Nat
  span : Span
  code : Option Code
  notes : List String
  deriving DecidableEq

namespace Diagnostic

/-- An error about `span`, reported on the line the span starts on. -/
def error (message : String) (span : Span) : Diagnostic :=
  { message, line := span.line, span, code := none, notes := [] }

def withCode (d : Diagnostic) (code : Code) : Diagnostic := { d with code := some code }

/-- The one line a user sees. -/
def text (d : Diagnostic) : String :=
  "[line " ++ d.line.repr ++ "] Error: " ++ d.message

def inspect (d : Diagnostic) : String :=
  Text.Inspection.record "Diagnostic"
    [("message", Text.quoted d.message), ("line", d.line.repr), ("span", d.span.inspect),
      ("code", Text.Inspection.option (d.code.map Code.inspect)),
      ("notes", Text.Inspection.list (d.notes.map Text.quoted))]

end Diagnostic
end Lexical
