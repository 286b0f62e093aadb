import Lexical.Json.Basic
import Lexical.Proofs.Grammar.Rules

/-!
# The grammar of JSON

RFC 8259, as a relation between a text and its value. `Reads p text rest` says that `text` starts
with a phrase `p` and that `rest` is what comes after it, so two phrases in a row are two relations
in a row and no text has to be cut. A whole text is a value with whitespace around it and nothing
behind (`Json.IsText`).

Nothing here is taken from the writer. The grammar has all that the RFC allows and the writer
never does: whitespace between the parts, the escapes of characters that need none, pairs of
escapes for a character beyond the first 2 ^ 16, and either case for hexadecimal digits and for the
letter of an exponent. An escape that names half of such a pair alone is allowed by the RFC's
syntax, but no character is its value, so it is no text of a `Json`. The value of a number is its
digits as they are written.
-/

set_option autoImplicit false

namespace Lexical
namespace Json

/-! ## Whitespace -/

def isSpace (c : Char) : Bool := c = ' ' || c = '\t' || c = '\n' || c = '\r'

/-- `ws`: a text starts with whitespace, or with none. -/
inductive Spaces : List Char → List Char → Prop
  | none {rest : List Char} : Spaces rest rest
  | more {c : Char} {text rest : List Char} :
      isSpace c = true → Spaces text rest → Spaces (c :: text) rest

/-! ## Numbers -/

/-- `int`: digits without a zero in front of others. -/
def IsWhole (text : List Char) : Prop :=
  IsDigits text ∧ (text.head? = some '0' → text = ['0'])

/-- `[ frac ]` -/
def IsFraction (text : List Char) : Prop :=
  text = [] ∨ ∃ ds, text = '.' :: ds ∧ IsDigits ds

/-- `[ exp ]` -/
def IsExponent (text : List Char) : Prop :=
  text = [] ∨ ∃ e sign ds, text = e :: sign ++ ds ∧ e ∈ ['e', 'E'] ∧
    sign ∈ [[], ['+'], ['-']] ∧ IsDigits ds

/-- `number` -/
inductive IsNumeral : List Char → Prop
  | parts {sign whole fraction exponent : List Char} :
      sign ∈ [[], ['-']] → IsWhole whole → IsFraction fraction → IsExponent exponent →
      IsNumeral (sign ++ whole ++ fraction ++ exponent)

/-! ## Strings -/

/-- The character that a backslash and a letter stand for. -/
def shortEscape? : Char → Option Char
  | '"' => some '"'
  | '\\' => some '\\'
  | '/' => some '/'
  | 'b' => some '\x08'
  | 'f' => some '\x0c'
  | 'n' => some '\n'
  | 'r' => some '\r'
  | 't' => some '\t'
  | _ => none

def hexDigit? (c : Char) : Option Nat :=
  if '0' ≤ c ∧ c ≤ '9' then some (c.toNat - '0'.toNat)
  else if 'a' ≤ c ∧ c ≤ 'f' then some (c.toNat - 'a'.toNat + 10)
  else if 'A' ≤ c ∧ c ≤ 'F' then some (c.toNat - 'A'.toNat + 10)
  else none

/-- `4HEXDIG`: a row of hexadecimal digits as a number. -/
def hexNumber? (ds : List Char) : Option Nat :=
  ds.foldlM (fun n c => (hexDigit? c).map (16 * n + ·)) 0

/-- The first half of a pair. -/
def IsHigh (n : Nat) : Prop := 0xd800 ≤ n ∧ n < 0xdc00

/-- The second half of a pair. -/
def IsLow (n : Nat) : Prop := 0xdc00 ≤ n ∧ n < 0xe000

/-- `char`: a text starts with a character of a string, as it is or escaped. -/
inductive ReadsChar : Char → List Char → List Char → Prop
  | plain {c : Char} {rest : List Char} :
      0x20 ≤ c.toNat → c ≠ '"' → c ≠ '\\' → ReadsChar c (c :: rest) rest
  | short {e c : Char} {rest : List Char} :
      shortEscape? e = some c → ReadsChar c ('\\' :: e :: rest) rest
  | one {n : Nat} {a b c d : Char} {rest : List Char} :
      hexNumber? [a, b, c, d] = some n → ¬ IsHigh n → ¬ IsLow n →
      ReadsChar (Char.ofNat n) ('\\' :: 'u' :: a :: b :: c :: d :: rest) rest
  | pair {m n : Nat} {a b c d e f g h : Char} {rest : List Char} :
      hexNumber? [a, b, c, d] = some m → IsHigh m → hexNumber? [e, f, g, h] = some n → IsLow n →
      ReadsChar (Char.ofNat (0x10000 + 0x400 * (m - 0xd800) + (n - 0xdc00)))
        ('\\' :: 'u' :: a :: b :: c :: d :: '\\' :: 'u' :: e :: f :: g :: h :: rest) rest

/-- `*char quotation-mark`: the rest of a string whose first quote has been read. -/
inductive ReadsString : List Char → List Char → List Char → Prop
  | closed {rest : List Char} : ReadsString [] ('"' :: rest) rest
  | char {c : Char} {cs text mid rest : List Char} :
      ReadsChar c text mid → ReadsString cs mid rest → ReadsString (c :: cs) text rest

/-! ## Values -/

/-- What the grammar has a rule for: a value, a value or a member with whitespace around it, and
rows of these with commas between them. -/
inductive Phrase where
  | value (j : Json)
  | element (j : Json)
  | member (m : String × Json)
  | elements (js : List Json)
  | members (ms : List (String × Json))

/-- **The grammar.** -/
inductive Reads : Phrase → List Char → List Char → Prop
  | null {rest : List Char} : Reads (.value null) ('n' :: 'u' :: 'l' :: 'l' :: rest) rest
  | yes {rest : List Char} : Reads (.value (bool true)) ('t' :: 'r' :: 'u' :: 'e' :: rest) rest
  | no {rest : List Char} :
      Reads (.value (bool false)) ('f' :: 'a' :: 'l' :: 's' :: 'e' :: rest) rest
  | number {numeral text rest : List Char} :
      IsNumeral numeral → text = numeral ++ rest →
      Reads (.value (number (String.ofList numeral))) text rest
  | string {cs text rest : List Char} :
      ReadsString cs text rest → Reads (.value (string (String.ofList cs))) ('"' :: text) rest
  | emptyArray {text rest : List Char} :
      Spaces text (']' :: rest) → Reads (.value (array [])) ('[' :: text) rest
  | array {js : List Json} {text rest : List Char} :
      Reads (.elements js) text (']' :: rest) → Reads (.value (array js)) ('[' :: text) rest
  | emptyObject {text rest : List Char} :
      Spaces text ('\x7d' :: rest) → Reads (.value (object [])) ('\x7b' :: text) rest
  | object {ms : List (String × Json)} {text rest : List Char} :
      Reads (.members ms) text ('\x7d' :: rest) → Reads (.value (object ms)) ('\x7b' :: text) rest
  | element {j : Json} {text start stop rest : List Char} :
      Spaces text start → Reads (.value j) start stop → Spaces stop rest →
      Reads (.element j) text rest
  | member {key : List Char} {j : Json} {text name stop colon rest : List Char} :
      Spaces text ('"' :: name) → ReadsString key name stop → Spaces stop (':' :: colon) →
      Reads (.element j) colon rest → Reads (.member (String.ofList key, j)) text rest
  | lastElement {j : Json} {text rest : List Char} :
      Reads (.element j) text rest → Reads (.elements [j]) text rest
  | moreElements {j : Json} {js : List Json} {text mid rest : List Char} :
      Reads (.element j) text (',' :: mid) → Reads (.elements js) mid rest →
      Reads (.elements (j :: js)) text rest
  | lastMember {m : String × Json} {text rest : List Char} :
      Reads (.member m) text rest → Reads (.members [m]) text rest
  | moreMembers {m : String × Json} {ms : List (String × Json)} {text mid rest : List Char} :
      Reads (.member m) text (',' :: mid) → Reads (.members ms) mid rest →
      Reads (.members (m :: ms)) text rest

/-- `JSON-text`: the whole of a text is a value with whitespace around it. -/
def IsText (text : String) (j : Json) : Prop := Reads (.element j) text.toList []

/-- A text is JSON, and this value is the only one it has. -/
def Denotes (text : String) (j : Json) : Prop := ∀ j', IsText text j' ↔ j' = j

end Json
end Lexical
