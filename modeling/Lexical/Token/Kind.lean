import Lexical.Token.Reserved

/-!
# Kinds of tokens

What a token is, apart from its text. Two tables say which characters make a token whatever
follows them: the punctuators, which stand alone, and the operators, which an equals sign may
extend.
-/

set_option autoImplicit false

namespace Lexical

inductive Kind where
  | leftParen
  | rightParen
  | leftBrace
  | rightBrace
  | comma
  | dot
  | minus
  | plus
  | semicolon
  | slash
  | star
  | bang
  | bangEqual
  | equal
  | equalEqual
  | greater
  | greaterEqual
  | less
  | lessEqual
  | identifier
  | string
  | number
  | reserved (word : Reserved)
  | endOfSource
  deriving DecidableEq

namespace Kind

/-- The name of a kind in listings and in JSON. -/
def name : Kind → String
  | leftParen => "LEFT_PAREN"
  | rightParen => "RIGHT_PAREN"
  | leftBrace => "LEFT_BRACE"
  | rightBrace => "RIGHT_BRACE"
  | comma => "COMMA"
  | dot => "DOT"
  | minus => "MINUS"
  | plus => "PLUS"
  | semicolon => "SEMICOLON"
  | slash => "SLASH"
  | star => "STAR"
  | bang => "BANG"
  | bangEqual => "BANG_EQUAL"
  | equal => "EQUAL"
  | equalEqual => "EQUAL_EQUAL"
  | greater => "GREATER"
  | greaterEqual => "GREATER_EQUAL"
  | less => "LESS"
  | lessEqual => "LESS_EQUAL"
  | identifier => "IDENTIFIER"
  | string => "STRING"
  | number => "NUMBER"
  | reserved word => String.ofList (word.spelling.toList.map Char.toUpper)
  | endOfSource => "EOF"

def isReserved : Kind → Bool
  | reserved _ => true
  | _ => false

/-- The kind of a character that is a token by itself. -/
def punctuator? : Char → Option Kind
  | '(' => some leftParen
  | ')' => some rightParen
  | '{' => some leftBrace
  | '}' => some rightBrace
  | ',' => some comma
  | '.' => some dot
  | '-' => some minus
  | '+' => some plus
  | ';' => some semicolon
  | '*' => some star
  | '/' => some slash
  | _ => none

/-- The two kinds of a character that an equals sign may extend: alone, and extended. -/
def operator? : Char → Option (Kind × Kind)
  | '!' => some (bang, bangEqual)
  | '=' => some (equal, equalEqual)
  | '<' => some (less, lessEqual)
  | '>' => some (greater, greaterEqual)
  | _ => none

/-- The kind of a word: its reserved kind if its whole text is a reserved spelling. -/
def ofWord (s : String) : Kind := ((Reserved.ofSpelling? s).map reserved).getD identifier

end Kind
end Lexical
