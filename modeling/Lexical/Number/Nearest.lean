import Lexical.Number.Binary64
import Lexical.Number.Decimal
import Lexical.Number.Rounding

/-!
# The nearest binary64 number

A numeral of any length denotes an exact rational; its value is the binary64 number nearest to
that rational, and of two equally near ones the one with the even significand. No digit is
dropped on the way: the quotient is rounded once, in natural numbers, after the unit of the
last place has been fixed. A numeral that lies just beside a tie is therefore decided by its
last digit, however far out that digit stands.
-/

set_option autoImplicit false

namespace Lexical

namespace Binary64

/-- Whether `2 ^ e ≤ num / den`. -/
def powerLe (e : Int) (num den : Nat) : Bool :=
  den * Nat.pow 2 e.toNat ≤ num * Nat.pow 2 (-e).toNat

/-- The greatest `e` with `2 ^ e ≤ num / den`. The difference of the two logarithms is `e` or
one more than it. -/
def floorLog (num den : Nat) : Int :=
  let guess : Int := (num.log2 : Int) - den.log2
  if powerLe guess num den then guess else guess - 1

/-- The exponent of the unit in the last place for a rational of this size: fifty-two places
below its leading bit, but never below the least one there is. -/
def unitExponent (num den : Nat) : Int := max (floorLog num den - 52) (-1074)

/-- The binary64 number nearest to `num / den`. With `e` the unit's exponent and `m` the
rounded multiple of it, the word is `(e + 1074) * 2 ^ 52 + m`: a significand that rounds up to
the next power of two carries into the exponent field by itself, and a word that reaches
infinity's is infinity. -/
def ofFraction (num den : Nat) : Binary64 :=
  if num = 0 then ofWord 0
  else
    let e := unitExponent num den
    let m := roundDiv .toEven (num * Nat.pow 2 (-e).toNat) (den * Nat.pow 2 e.toNat)
    let word := (e + 1074).toNat * binade + m
    if word < infinityWord then ofWord word else infinity

/-- The binary64 number nearest to a decimal. -/
def nearest (d : Decimal) : Binary64 := ofFraction d.numerator d.denominator

example : nearest ⟨1, -1⟩ = ⟨0x3fb999999999999a⟩ ∧ nearest ⟨9007199254740993, 0⟩ =
    ⟨0x4340000000000000⟩ := by decide +kernel

example : nearest ⟨5, -324⟩ = ⟨1⟩ ∧ nearest ⟨2, -324⟩ = ⟨0⟩ ∧ nearest ⟨1, 309⟩ = infinity := by
  decide +kernel

end Binary64
end Lexical
