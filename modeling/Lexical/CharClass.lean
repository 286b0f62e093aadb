/-!
# Classes of characters

The four classes the token rules are written in. All are sets of ASCII characters: a letter
or a digit of another script belongs to none of them, so a source can hold one only inside a
string or a comment.
-/

set_option autoImplicit false

namespace Lexical
namespace CharClass

def isDigit (c : Char) : Bool := '0' ≤ c && c ≤ '9'

/-- A character that may start a word: a letter or an underscore. -/
def isAlpha (c : Char) : Bool :=
  ('a' ≤ c && c ≤ 'z') || ('A' ≤ c && c ≤ 'Z') || c = '_'

/-- A character that may continue a word. -/
def isAlphaNumeric (c : Char) : Bool := isAlpha c || isDigit c

/-- A character that separates tokens and belongs to none. -/
def isBlank (c : Char) : Bool := c = ' ' || c = '\r' || c = '\t' || c = '\n'

end CharClass
end Lexical
