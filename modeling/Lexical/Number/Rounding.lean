/-!
# Rounding a quotient

One rule for rounding is used in both directions: to read a numeral as a binary64 number, and
to choose the digits such a number is written with. Only the treatment of ties differs, so it
is an argument.
-/

set_option autoImplicit false

namespace Lexical

/-- Where a quotient midway between two natural numbers goes. -/
inductive Tie where
  | toEven
  | upward
  deriving DecidableEq

/-- `num / den` rounded to the nearest natural number. -/
def roundDiv (tie : Tie) (num den : Nat) : Nat :=
  let below := num / den
  let excess := 2 * (num % den)
  if excess < den then below
  else if den < excess then below + 1
  else
    match tie with
    | .toEven => if below % 2 = 0 then below else below + 1
    | .upward => below + 1

example : roundDiv .toEven 5 2 = 2 ∧ roundDiv .upward 5 2 = 3 ∧ roundDiv .toEven 7 2 = 4 := by
  decide

end Lexical
