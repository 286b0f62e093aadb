/-!
# JSON

A JSON value and its compact text. A number is kept as it is written, because the writer of a
number decides how many digits it shows and the text should not be read back and changed on
the way. Members of an object keep their order.

The writer adds to a text that is already there, so that a long list is written in one pass.
-/

set_option autoImplicit false

namespace Lexical

inductive Json where
  | null
  | bool (value : Bool)
  | number (written : String)
  | string (value : String)
  | array (items : List Json)
  | object (members : List (String × Json))

namespace Json

def nat (n : Nat) : Json := number n.repr

def optional : Option Json → Json
  | none => null
  | some j => j

/-- The escape of a control character that has no short name. -/
def unicodeEscape (c : Char) : List Char :=
  let ds := Nat.toDigits 16 c.toNat
  '\\' :: 'u' :: List.replicate (4 - ds.length) '0' ++ ds

/-- One character inside a string. -/
def escaped (c : Char) : List Char :=
  if c = '"' ∨ c = '\\' then ['\\', c]
  else if c = '\x08' then ['\\', 'b']
  else if c = '\x0c' then ['\\', 'f']
  else if c = '\n' then ['\\', 'n']
  else if c = '\r' then ['\\', 'r']
  else if c = '\t' then ['\\', 't']
  else if c.toNat < 0x20 then unicodeEscape c
  else [c]

def quoted (s : String) : String :=
  String.ofList ('"' :: s.toList.flatMap escaped ++ ['"'])

mutual

def write (text : String) : Json → String
  | null => text ++ "null"
  | bool true => text ++ "true"
  | bool false => text ++ "false"
  | number written => text ++ written
  | string value => text ++ quoted value
  | array [] => text ++ "[]"
  | array (item :: rest) => writeItems (write (text ++ "[") item) rest ++ "]"
  | object [] => text ++ "\x7b\x7d"
  | object ((key, value) :: rest) =>
    writeMembers (write (text ++ "\x7b" ++ quoted key ++ ":") value) rest ++ "\x7d"

/-- Adds the items after the first. -/
def writeItems (text : String) : List Json → String
  | [] => text
  | item :: rest => writeItems (write (text ++ ",") item) rest

/-- Adds the members after the first. -/
def writeMembers (text : String) : List (String × Json) → String
  | [] => text
  | (key, value) :: rest => writeMembers (write (text ++ "," ++ quoted key ++ ":") value) rest

end

def text (j : Json) : String := write "" j

end Json
end Lexical
