import Lexical.Number.Shortest

/-!
# How a number is written

Two places of the output write numbers: a listing of tokens, and their JSON form. Both take
the shortest digits that read back; they part over ties, over how small a number may be before
it is written with an exponent, and over the exponent's sign. Those three decisions are a
value, `Style`, and the two styles are the values at the end of this file.
-/

set_option autoImplicit false

namespace Lexical

/-- The decisions that a way of writing numbers makes. -/
structure Style where
  /-- Which of two equally near decimals is taken. -/
  tie : Tie
  /-- A number below `10 ^ leastPlain` is written with an exponent. -/
  leastPlain : Int
  /-- A number from `10 ^ endPlain` on is written with an exponent. -/
  endPlain : Int
  /-- Whether an exponent that is not negative has a plus sign. -/
  plusSign : Bool

namespace Style

def digits (n : Nat) : List Char := Nat.toDigits 10 n

/-- Digits with a point after the first `point` of them, with zeros to fill a place that has
no digit, and at least one digit on either side of the point. -/
def plain (ds : List Char) (point : Int) : List Char :=
  if point ≤ 0 then '0' :: '.' :: List.replicate (-point).toNat '0' ++ ds
  else if ds.length ≤ point then
    ds ++ List.replicate (point - ds.length).toNat '0' ++ ['.', '0']
  else ds.take point.toNat ++ '.' :: ds.drop point.toNat

def exponentPart (s : Style) (e : Int) : List Char :=
  'e' :: (if e < 0 then ['-'] else if s.plusSign then ['+'] else []) ++ digits e.natAbs

/-- Digits with a point after the first, if there are more, and the exponent `e`. -/
def scientific (s : Style) (ds : List Char) (e : Int) : List Char :=
  match ds with
  | d :: [] => d :: s.exponentPart e
  | d :: rest => d :: '.' :: rest ++ s.exponentPart e
  | [] => s.exponentPart e

/-- A decimal, in one of the two forms. Zero counts as having its one digit before the
point. -/
def decimal (s : Style) (d : Decimal) : List Char :=
  let ds := digits d.coefficient
  let point := ds.length + d.exponent
  if d.coefficient = 0 ∨ (s.leastPlain < point ∧ point ≤ s.endPlain) then plain ds point
  else s.scientific ds (point - 1)

def finite (s : Style) (x : Binary64) : String :=
  String.ofList ((if x.negative then ['-'] else []) ++ s.decimal (x.shortest s.tie))

/-- The style of listings: plain from 0.0001 up to 10^16, ties upward. -/
def listed : Style := ⟨.upward, -4, 16, false⟩

/-- The style of JSON: plain from 0.00001 up to 10^16, ties to an even last digit, and a plus
sign before an exponent. -/
def serialized : Style := ⟨.toEven, -5, 16, true⟩

/-- Any number in the style of listings, where infinities and NaN have names. -/
def shown (x : Binary64) : String :=
  if x.isNaN then "NaN"
  else if x.isFinite then listed.finite x
  else if x.negative then "-inf"
  else "inf"

end Style
end Lexical
