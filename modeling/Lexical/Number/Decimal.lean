import Lexical.CharClass

/-!
# Decimals

A number as it is written: a coefficient and a power of ten, with no bound on either. Reading
a numeral loses nothing, so every question about rounding is asked of a `Decimal` and not of
the text it came from.
-/

set_option autoImplicit false

namespace Lexical

open CharClass

/-- The number `coefficient * 10 ^ exponent`. -/
structure Decimal where
  coefficient : Nat
  exponent : Int
  deriving DecidableEq

namespace Decimal

/-- The number as a fraction: what stands above the line. -/
def numerator (d : Decimal) : Nat := d.coefficient * Nat.pow 10 d.exponent.toNat

/-- The number as a fraction: the power of ten below the line. -/
def denominator (d : Decimal) : Nat := Nat.pow 10 (-d.exponent).toNat

def digitValue (c : Char) : Nat := c.toNat - '0'.toNat

/-- What a row of digits counts, the most significant one first. -/
def ofDigits (ds : List Char) : Nat := ds.foldl (fun n c => 10 * n + digitValue c) 0

/-- Reads a numeral: digits, then perhaps a point and more digits. Both rows of digits have
to be non-empty, and nothing else is accepted. -/
def read? (s : List Char) : Option Decimal :=
  let whole := s.takeWhile isDigit
  if whole.isEmpty then none
  else
    match s.dropWhile isDigit with
    | [] => some ⟨ofDigits whole, 0⟩
    | '.' :: fraction =>
      if !fraction.isEmpty && fraction.all isDigit then
        some ⟨ofDigits (whole ++ fraction), -fraction.length⟩
      else none
    | _ => none

example : read? "12.50".toList = some ⟨1250, -2⟩ ∧ read? "7".toList = some ⟨7, 0⟩ := by
  decide +kernel

example : read? "12.".toList = none ∧ read? ".5".toList = none ∧ read? "1e5".toList = none := by
  decide +kernel

end Decimal
end Lexical
