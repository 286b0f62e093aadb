import Lexical.Number.Style
import Lexical.Span
import Lexical.Token.Kind

/-!
# Tokens

A token is a kind with the text it was made from, the place of that text, and the value the
text denotes if it is a string or a number.

Two tokens are compared by `Token.equal`, which compares numbers as numbers. That is not the
equality of the data: a token whose number is NaN equals no token, itself included. Reading
never produces one, so on the tokens of a source the two agree but for the sign of zero.
-/

set_option autoImplicit false

namespace Lexical

inductive Literal where
  | number (value : Binary64)
  | string (value : String)
  deriving DecidableEq

namespace Literal

/-- The value as a listing shows it: a string without its quotes. -/
def text : Literal → String
  | number value => Style.shown value
  | string value => value

def equal : Literal → Literal → Bool
  | number x, number y => x.equal y
  | string s, string t => s == t
  | _, _ => false

end Literal

structure Token where
  kind : Kind
  lexeme : String
  literal : Option Literal
  line : Nat
  span : Span
  deriving DecidableEq

namespace Token

/-- The token that `lexeme` is, at its place. Its line is the line its text starts on. -/
def ofLexeme (kind : Kind) (lexeme : String) (literal : Option Literal) (span : Span) : Token :=
  { kind, lexeme, literal, line := span.line, span }

/-- The token that ends every token list. -/
def endOfSource (offset line : Nat) : Token :=
  ofLexeme .endOfSource "" none (Span.point offset line)

def isEnd (t : Token) : Bool := t.kind = .endOfSource

/-- The token as a line of a listing. -/
def text (t : Token) : String :=
  t.kind.name ++ " " ++ t.lexeme ++ " " ++ (t.literal.map Literal.text).getD "null"

def literalEqual : Option Literal → Option Literal → Bool
  | some x, some y => x.equal y
  | none, none => true
  | _, _ => false

/-- Equality of tokens, numbers being compared as numbers. -/
def equal (t u : Token) : Bool :=
  t.kind = u.kind && t.lexeme == u.lexeme && literalEqual t.literal u.literal &&
    t.line == u.line && t.span = u.span

end Token
end Lexical
