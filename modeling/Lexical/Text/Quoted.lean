import Lexical.Text.Hidden

/-!
# Characters and strings in quotes

How a message shows a character of the source, and how an inspection shows a string. The two
forms share one body: short names for the four commonest controls, a backslash before a
backslash, the number of a hidden character, and every other character as itself. They differ
in the quote: each form escapes its own quote and leaves the other one alone.
-/

set_option autoImplicit false

namespace Lexical
namespace Text

/-- `n` in base sixteen, lower case, without leading zeros. -/
def hex (n : Nat) : List Char := Nat.toDigits 16 n

/-- One character inside quotes of the form `quote`. -/
def escaped (quote c : Char) : List Char :=
  if c = '\x00' then ['\\', '0']
  else if c = '\t' then ['\\', 't']
  else if c = '\r' then ['\\', 'r']
  else if c = '\n' then ['\\', 'n']
  else if c = '\\' ∨ c = quote then ['\\', c]
  else if isHidden c then ['\\', 'u', '\x7b'] ++ hex c.toNat ++ ['\x7d']
  else [c]

/-- A character in single quotes. -/
def quotedChar (c : Char) : String := String.ofList ('\'' :: escaped '\'' c ++ ['\''])

/-- A string in double quotes. -/
def quoted (s : String) : String :=
  String.ofList ('"' :: s.toList.flatMap (escaped '"') ++ ['"'])

example : quotedChar '@' = "'@'" ∧ quotedChar '"' = "'\"'" ∧ quotedChar '\'' = "'\\''" := by
  decide +kernel

example : quotedChar (Char.ofNat 0x301) = "'\\u\x7b301\x7d'" ∧ quotedChar '\x00' = "'\\0'" := by
  decide +kernel

end Text
end Lexical
