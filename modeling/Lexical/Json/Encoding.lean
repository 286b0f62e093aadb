import Lexical.Diagnostic.Basic
import Lexical.Json.Basic
import Lexical.Token.Basic

/-!
# Tokens and diagnostics as JSON

Which members each type has, and in which order. A literal stands for itself: a string for a
string, a number for a finite number. JSON has no infinity and no NaN, so those are null, and
so is the literal of a token that has none.
-/

set_option autoImplicit false

namespace Lexical

/-- A binary64 number, if JSON can hold it. -/
def Binary64.toJson (x : Binary64) : Json :=
  if x.isFinite then .number (Style.serialized.finite x) else .null

def Span.toJson (s : Span) : Json :=
  .object [("start", .nat s.start), ("end", .nat s.stop), ("line", .nat s.line)]

def Code.toJson (c : Code) : Json :=
  .object [("prefix", .string c.family), ("number", .nat c.number)]

def Diagnostic.toJson (d : Diagnostic) : Json :=
  .object [("message", .string d.message), ("line", .nat d.line), ("span", d.span.toJson),
    ("code", .optional (d.code.map Code.toJson)), ("notes", .array (d.notes.map .string))]

def Kind.toJson (k : Kind) : Json := .string k.name

def Literal.toJson : Literal → Json
  | .number value => value.toJson
  | .string value => .string value

def Token.toJson (t : Token) : Json :=
  .object [("kind", t.kind.toJson), ("lexeme", .string t.lexeme),
    ("literal", .optional (t.literal.map Literal.toJson)), ("line", .nat t.line),
    ("span", t.span.toJson)]

def tokensText (tokens : List Token) : String := (Json.array (tokens.map Token.toJson)).text

def diagnosticsText (diagnostics : List Diagnostic) : String :=
  (Json.array (diagnostics.map Diagnostic.toJson)).text

end Lexical
