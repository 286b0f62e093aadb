import Lexical.Diagnostic.Draft

/-!
# Lexical errors

The two ways in which a source can fail to be made of tokens, with their wording and codes. An
error becomes a diagnostic once its place is known.
-/

set_option autoImplicit false

namespace Lexical

inductive Error where
  /-- A character that starts no token and separates none. -/
  | unexpectedCharacter (ch : Char)
  /-- A string that is still open where the source ends. -/
  | unterminatedString
  deriving DecidableEq

namespace Error

def message : Error → String
  | unexpectedCharacter _ => "Unexpected character."
  | unterminatedString => "Unterminated string."

def code : Error → Code
  | unexpectedCharacter _ => .unexpectedCharacter
  | unterminatedString => .unterminatedString

/-- What is added to the message: which character it was. -/
def notes : Error → List String
  | unexpectedCharacter ch => ["found " ++ Text.quotedChar ch]
  | unterminatedString => []

def inspect : Error → String
  | unexpectedCharacter ch =>
    Text.Inspection.record "UnexpectedCharacter" [("ch", Text.quotedChar ch)]
  | unterminatedString => "UnterminatedString"

/-- The diagnostic of an error about `span`, reported on `line`. -/
def diagnostic (e : Error) (span : Span) (line : Nat) : Diagnostic :=
  ((Draft.error e.message).setAll
    ([.code e.code, .span span, .line line] ++ e.notes.map .note)).build

end Error
end Lexical
