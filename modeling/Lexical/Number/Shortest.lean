import Lexical.Number.Binary64
import Lexical.Number.Decimal
import Lexical.Number.Rounding

/-!
# The shortest decimal that reads back

A number is written with the fewest digits that still denote it and no other binary64 number,
and among the decimals of that length with the one nearest to it. The rationals that round to
a number form an interval around it; its ends belong to it exactly when the significand is
even, since a tie goes to the even one. The multiples of a power of ten form a grid, and a
grid has a point in the interval only if one of the number's two neighbours on it is such a
point. So the search tries one grid after the other, the coarsest first, and looks at two
points of each.

Everything is compared in natural numbers over one denominator.
-/

set_option autoImplicit false

namespace Lexical

/-- The interval of rationals that round to a positive finite number, together with that
number, as numerators over `denominator`. -/
structure RoundingInterval where
  lower : Nat
  value : Nat
  upper : Nat
  denominator : Nat
  closed : Bool
  deriving DecidableEq

namespace RoundingInterval

/-- The interval around a number: half a unit of the last place to either side, but only a
quarter below a power of two, where the numbers lie twice as close. Quarters of the unit are
the common measure. -/
def ofBinary64 (x : Binary64) : RoundingInterval :=
  let quarters := 4 * x.significand
  let belowGap := if x.fraction = 0 ∧ 1 < x.exponentField then 1 else 2
  let scale := Nat.pow 2 (x.exponent - 2).toNat
  { lower := (quarters - belowGap) * scale
    value := quarters * scale
    upper := (quarters + 2) * scale
    denominator := Nat.pow 2 (2 - x.exponent).toNat
    closed := x.significand % 2 = 0 }

/-- Whether `n / (denominator * parts)` lies in the interval. -/
def contains (r : RoundingInterval) (parts n : Nat) : Bool :=
  if r.closed then r.lower * parts ≤ n && n ≤ r.upper * parts
  else r.lower * parts < n && n < r.upper * parts

/-- The multiple of `10 ^ k` to write the number with, if one of its two neighbours on that
grid lies in the interval: the nearer one if both do. -/
def gridPoint? (r : RoundingInterval) (tie : Tie) (k : Int) : Option Nat :=
  let parts := Nat.pow 10 (-k).toNat
  let step := r.denominator * Nat.pow 10 k.toNat
  let below := r.value * parts / step
  match r.contains parts (below * step), r.contains parts ((below + 1) * step) with
  | true, true => some (roundDiv tie (r.value * parts) step)
  | true, false => some below
  | false, true => some (below + 1)
  | false, false => none

/-- The exponent of the finest grid that is ever needed. Ten to it is less than half the least
positive number, so the grid's point below any number lies in the number's interval. -/
def finest : Int := -324

/-- The decimal on the coarsest grid with a point in the interval, among those from `n` steps
above the finest grid down to it. -/
def coarsest (r : RoundingInterval) (tie : Tie) : Nat → Decimal
  | 0 => ⟨(r.gridPoint? tie finest).getD 0, finest⟩
  | n + 1 =>
    match r.gridPoint? tie (finest + (n + 1 : Nat)) with
    | some c => ⟨c, finest + (n + 1 : Nat)⟩
    | none => r.coarsest tie n

/-- How many steps above the finest grid to start: at a power of ten above the interval, on
whose grid no point can lie inside. -/
def startingStep (r : RoundingInterval) : Nat :=
  (Nat.toDigits 10 (r.upper / r.denominator)).length + 324

end RoundingInterval

namespace Binary64

/-- The decimal a finite number is written with, its sign aside. -/
def shortest (tie : Tie) (x : Binary64) : Decimal :=
  if x.magnitude = 0 then ⟨0, 0⟩
  else
    let r := RoundingInterval.ofBinary64 x
    r.coarsest tie r.startingStep

example : shortest .upward ⟨0x3fb999999999999a⟩ = ⟨1, -1⟩ ∧
    shortest .upward ⟨0x405ec00000000000⟩ = ⟨123, 0⟩ ∧ shortest .upward ⟨1⟩ = ⟨5, -324⟩ := by
  decide +kernel

example : shortest .upward ⟨0x42b853ff5910c190⟩ = ⟨26749045379265563, -3⟩ ∧
    shortest .toEven ⟨0x42b853ff5910c190⟩ = ⟨26749045379265562, -3⟩ := by
  decide +kernel

end Binary64
end Lexical
