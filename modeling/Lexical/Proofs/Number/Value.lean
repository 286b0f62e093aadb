import Lexical.Proofs.Number.Word
import Mathlib.Algebra.Order.Field.Power
import Mathlib.Algebra.Order.Ring.Rat
import Mathlib.Tactic.Linarith
import Mathlib.Tactic.Positivity
import Mathlib.Tactic.Ring

/-!
# The numbers that words stand for

A finite binary64 number is a whole multiple of a power of two, and `toRat` is that number among the
rationals. Without their sign the words ascend with the numbers: `wordValue` gives the number of every
word, each of them one unit in the last place above the one before (`wordValue_succ`). The words are
not stopped at infinity's. What would be the number of a later word is what rounding compares with
before it finds that a number is too large.

Halfway between two neighbouring words is their `midpoint`, and rounding is a question of which
midpoints a rational lies between.
-/

set_option autoImplicit false

namespace Lexical
namespace Binary64

/-- A finite number without its sign. -/
def size (x : Binary64) : Rat := x.significand * 2 ^ x.exponent

/-- A rational of a sign and a size. -/
def signed (negative : Bool) (q : Rat) : Rat := if negative then -q else q

/-- The rational that a finite number is. -/
def toRat (x : Binary64) : Rat := signed x.negative x.size

/-- How often the least unit in the last place is doubled at a word. Below the first power of two with
its leading bit unwritten, and from there up to the second one, it is the least unit itself. -/
def doublings (n : Nat) : Nat := n / binade - 1

/-- The unit in the last place at a word. -/
def unit (n : Nat) : Rat := 2 ^ ((doublings n : Int) - 1074)

/-- The number that a word stands for, as if there were words for every exponent. -/
def wordValue (n : Nat) : Rat := (n - doublings n * binade : Nat) * unit n

/-- The number halfway between a word and the next one. -/
def midpoint (n : Nat) : Rat := (wordValue n + wordValue (n + 1)) / 2

/-- Where the finite numbers end: halfway between the greatest of them and the next power of two. -/
def overflow : Rat := 2 ^ 1024 - 2 ^ 970

/-! ## Words and multiples of a unit -/

theorem binade_eq : binade = 4503599627370496 := rfl

theorem infinityWord_eq : infinityWord = 2047 * binade := rfl

theorem unit_pos (n : Nat) : 0 < unit n := zpow_pos (by norm_num) _

theorem two_zpow_succ (e : Int) : (2 : Rat) ^ (e + 1) = 2 * 2 ^ e := by
  rw [zpow_add_one₀ (by norm_num), mul_comm]

/-- A multiple of a unit with a full significand, or of the least unit. The significand may be the
next power of two: then it carries into the exponent. -/
theorem wordValue_eq {j m : Nat} (hm : m ≤ 2 * binade) (hj : binade ≤ m ∨ j = 0) :
    wordValue (j * binade + m) = m * 2 ^ ((j : Int) - 1074) := by
  have hbinade := binade_eq
  have hpositive : 0 < binade := by omega
  have hdiv : (j * binade + m) / binade = j + m / binade := by
    rw [add_comm, Nat.add_mul_div_right _ _ hpositive, add_comm]
  rcases Nat.lt_or_eq_of_le hm with hlt | rfl
  · have hdoublings : doublings (j * binade + m) = j := by
      unfold doublings
      rw [hdiv]
      rcases hj with hfull | rfl
      · rw [Nat.div_eq_of_lt_le (k := 1) (by omega) (by omega)]
        rfl
      · have := Nat.div_lt_of_lt_mul (k := 2) (by rwa [mul_comm] : m < binade * 2)
        omega
    rw [wordValue, unit, hdoublings, Nat.add_sub_cancel_left]
  · have hdoublings : doublings (j * binade + 2 * binade) = j + 1 := by
      unfold doublings
      rw [hdiv, Nat.mul_div_cancel _ hpositive]
      rfl
    have hrest : j * binade + 2 * binade - (j + 1) * binade = binade := by
      rw [add_mul]
      omega
    have hunit : ((j + 1 : Nat) : Int) - 1074 = (j : Int) - 1074 + 1 := by push_cast; ring
    rw [wordValue, unit, hdoublings, hrest, hunit, two_zpow_succ]
    push_cast
    ring

/-- A word is its unit's place in the exponent field and a significand. -/
theorem doublings_le (n : Nat) : doublings n * binade ≤ n ∧
    n - doublings n * binade < 2 * binade ∧
      (binade ≤ n - doublings n * binade ∨ doublings n = 0) := by
  have hbinade := binade_eq
  have hsplit := Nat.div_add_mod n binade
  have hmod : n % binade < binade := Nat.mod_lt n (by omega)
  rw [mul_comm] at hsplit
  unfold doublings
  cases hfield : n / binade with
  | zero =>
    rw [hfield] at hsplit
    refine ⟨by simp, ?_, Or.inr rfl⟩
    rw [Nat.zero_sub, Nat.zero_mul]
    omega
  | succ f =>
    rw [hfield, add_mul] at hsplit
    rw [Nat.add_sub_cancel]
    omega

/-- **The next word is one unit in the last place further.** -/
theorem wordValue_succ (n : Nat) : wordValue (n + 1) = wordValue n + unit n := by
  obtain ⟨hle, hlt, hfull⟩ := doublings_le n
  obtain ⟨m, hm⟩ := Nat.exists_eq_add_of_le hle
  have hrest : n - doublings n * binade = m := by omega
  rw [hrest] at hlt hfull
  have hnext : n + 1 = doublings n * binade + (m + 1) := by omega
  have hfull' : binade ≤ m + 1 ∨ doublings n = 0 := hfull.imp_left fun h => by omega
  have hvalue : wordValue (n + 1) = ((m + 1 : Nat) : Rat) * unit n := by
    rw [hnext]
    exact wordValue_eq (by omega) hfull'
  rw [hvalue, wordValue, hrest]
  push_cast
  ring

theorem wordValue_zero : wordValue 0 = 0 := by
  simp [wordValue]

theorem wordValue_strictMono : StrictMono wordValue := by
  apply strictMono_nat_of_lt_succ
  intro n
  have hunit := unit_pos n
  rw [wordValue_succ]
  linarith

theorem wordValue_nonneg (n : Nat) : 0 ≤ wordValue n := by
  rw [← wordValue_zero]
  exact wordValue_strictMono.monotone (Nat.zero_le n)

theorem midpoint_strictMono : StrictMono midpoint := by
  intro m n h
  have hlow := wordValue_strictMono h
  have hhigh := wordValue_strictMono (Nat.add_lt_add_right h 1)
  unfold midpoint
  linarith

theorem wordValue_lt_midpoint (n : Nat) : wordValue n < midpoint n := by
  have hstep := wordValue_strictMono (Nat.lt_add_one n)
  unfold midpoint
  linarith

theorem midpoint_lt_wordValue {m n : Nat} (h : m < n) : midpoint m < wordValue n := by
  have hstep := wordValue_strictMono (Nat.lt_add_one m)
  have hle := wordValue_strictMono.monotone (Nat.add_one_le_of_lt h)
  unfold midpoint
  linarith

theorem midpoint_last : midpoint (infinityWord - 1) = overflow := by
  have hbinade := binade_eq
  have hword : infinityWord - 1 = 2045 * binade + (2 * binade - 1) := by
    rw [infinityWord_eq]
    omega
  have hnext : infinityWord - 1 + 1 = 2045 * binade + 2 * binade := by
    rw [infinityWord_eq]
    omega
  have hunit : (2 : Rat) ^ (((2045 : Nat) : Int) - 1074) = 2 * 2 ^ 970 := by
    rw [← pow_succ']
    exact zpow_natCast 2 971
  have htop : (2 : Rat) ^ 1024 = 2 ^ 54 * 2 ^ 970 := by rw [← pow_add]
  rw [midpoint, hnext, hword, wordValue_eq (by omega) (Or.inl (by omega)),
    wordValue_eq (Nat.le_refl _) (Or.inl (by omega)), overflow, hbinade, hunit, htop]
  generalize (2 : Rat) ^ 970 = power
  push_cast
  ring

/-! ## Numbers and their words -/

variable {x y : Binary64}

theorem size_eq (x : Binary64) : x.size = wordValue x.magnitude := by
  have hbinade := binade_eq
  have hsplit := Nat.div_add_mod x.magnitude binade
  rw [mul_comm] at hsplit
  unfold size wordValue unit doublings significand exponent exponentField fraction
  cases hfield : x.magnitude / binade with
  | zero =>
    rw [hfield, Nat.zero_mul, Nat.zero_add] at hsplit
    simp [hsplit]
  | succ f =>
    rw [hfield] at hsplit
    have hrest : x.magnitude - (f + 1 - 1) * binade = binade + x.magnitude % binade := by
      rw [Nat.add_sub_cancel]
      rw [add_mul] at hsplit
      omega
    rw [if_neg (Nat.succ_ne_zero f), if_neg (Nat.succ_ne_zero f), hrest]
    congr 2
    push_cast
    ring

theorem abs_signed (negative : Bool) (q : Rat) : |signed negative q| = |q| := by
  cases negative with
  | false => rfl
  | true => exact abs_neg q

theorem signed_sub (negative : Bool) (p q : Rat) :
    signed negative p - signed negative q = signed negative (p - q) := by
  cases negative with
  | false => rfl
  | true => exact neg_sub_neg p q |>.trans (neg_sub p q).symm

/-- A significand is even when its word is. -/
theorem significand_mod_two (x : Binary64) : x.significand % 2 = x.magnitude % 2 := by
  have heven : 2 ∣ binade := ⟨2251799813685248, rfl⟩
  have hfraction : x.fraction % 2 = x.magnitude % 2 := Nat.mod_mod_of_dvd _ heven
  unfold significand
  split
  · exact hfraction
  · omega

theorem isFinite_iff : x.isFinite = true ↔ x.magnitude < infinityWord := decide_eq_true_iff

theorem isNaN_eq_false_iff : x.isNaN = false ↔ x.magnitude ≤ infinityWord := by
  rw [isNaN, decide_eq_false_iff_not, Nat.not_lt]

theorem negative_ofWord {n : Nat} (hn : n ≤ infinityWord) : (ofWord n).negative = false := by
  have hbinade := binade_eq
  rw [infinityWord_eq] at hn
  rw [negative, toNat_ofWord hn, decide_eq_false_iff_not, Nat.not_le]
  exact Nat.lt_of_le_of_lt hn (by decide)

theorem signed_injective (negative : Bool) : Function.Injective (signed negative) := by
  cases negative with
  | false => exact fun _ _ h => h
  | true => exact neg_injective

/-- There is a number of either sign for every word up to infinity's. -/
theorem exists_of_magnitude (sign : Bool) {n : Nat} (hn : n ≤ infinityWord) :
    ∃ x : Binary64, x.negative = sign ∧ x.magnitude = n := by
  have hbound : n < 9223372036854775808 := Nat.lt_of_le_of_lt hn (by decide)
  have hpower : Nat.pow 2 63 = 9223372036854775808 := rfl
  cases sign with
  | false => exact ⟨ofWord n, negative_ofWord hn, magnitude_ofWord hn⟩
  | true =>
    have hbits : (UInt64.ofNat (9223372036854775808 + n)).toNat = 9223372036854775808 + n :=
      UInt64.toNat_ofNat_of_lt' (by simp [UInt64.size]; omega)
    refine ⟨⟨UInt64.ofNat (9223372036854775808 + n)⟩, ?_, ?_⟩
    · rw [negative, hbits, hpower, decide_eq_true_iff]
      omega
    · rw [magnitude, hbits, hpower]
      omega

/-- A number is its sign and its word. -/
theorem eq_of_magnitude_eq (hsign : x.negative = y.negative)
    (hword : x.magnitude = y.magnitude) : x = y := by
  have hx := x.bits.toNat_lt
  have hy := y.bits.toNat_lt
  have hpower : Nat.pow 2 63 = 9223372036854775808 := rfl
  obtain ⟨bits⟩ := x
  obtain ⟨bits'⟩ := y
  simp only [negative, magnitude, hpower, decide_eq_decide] at hsign hword hx hy
  congr 1
  apply UInt64.toNat_inj.mp
  omega

end Binary64
end Lexical
