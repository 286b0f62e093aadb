/-!
# Binary64 numbers

The value of a number literal is an IEEE 754 binary64 number, kept here as its 64 bits. The
bits are what a comparison of two programs can see, and arithmetic on them is arithmetic on
natural numbers, so nothing below depends on a machine's floating-point unit.

The order of the fields makes the words of the non-negative numbers ascend with the numbers
themselves: the least number above a finite one is the next word, and infinity is the word
after the greatest finite one. Rounding (`Lexical.Number.Nearest`) rests on this.
-/

set_option autoImplicit false

namespace Lexical

/-- A binary64 number: sign, eleven bits of exponent, fifty-two bits of fraction. -/
structure Binary64 where
  bits : UInt64
  deriving DecidableEq

namespace Binary64

/-- How many words share one exponent. -/
def binade : Nat := Nat.pow 2 52

/-- The word of the positive infinity. -/
def infinityWord : Nat := 2047 * binade

def negative (x : Binary64) : Bool := Nat.pow 2 63 ≤ x.bits.toNat

/-- The word without its sign bit. -/
def magnitude (x : Binary64) : Nat := x.bits.toNat % Nat.pow 2 63

/-- Neither an infinity nor a NaN. -/
def isFinite (x : Binary64) : Bool := x.magnitude < infinityWord

/-- Not a number: the words above infinity. -/
def isNaN (x : Binary64) : Bool := infinityWord < x.magnitude

def exponentField (x : Binary64) : Nat := x.magnitude / binade

def fraction (x : Binary64) : Nat := x.magnitude % binade

/-- The integer that a finite number is a multiple of a power of two by: the fraction, and
above the least exponent the leading bit that is not written. -/
def significand (x : Binary64) : Nat :=
  if x.exponentField = 0 then x.fraction else binade + x.fraction

/-- The power of two it is multiplied by. -/
def exponent (x : Binary64) : Int := if x.exponentField = 0 then -1074 else x.exponentField - 1075

/-- The word of a non-negative number as a number. -/
def ofWord (n : Nat) : Binary64 := ⟨UInt64.ofNat n⟩

/-- Positive infinity, the value of every numeral too large to round to a finite number. -/
def infinity : Binary64 := ofWord infinityWord

/-- Equality of numbers, which is not equality of words: a NaN equals nothing, itself
included, and the two zeros are equal. -/
def equal (x y : Binary64) : Bool :=
  !x.isNaN && !y.isNaN && (x = y || x.magnitude = 0 && y.magnitude = 0)

end Binary64
end Lexical
