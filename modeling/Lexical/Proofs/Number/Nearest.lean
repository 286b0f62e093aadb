import Lexical.Proofs.Number.Rounding
import Mathlib.Algebra.Order.Field.Basic
import Mathlib.Tactic.FieldSimp

/-!
# The nearest number is found

`Binary64.ofFraction` fixes the unit of the last place from the size of the quotient, rounds the
quotient to a multiple of it and reads the word off. This file proves that the word it gets is the one
whose midpoints enclose the quotient. The unit is the right one because the quotient has at least
fifty-three binary places above it, or it is the least unit there is (`floorLog_spec`);
and rounding up to the next power of two does no harm, since the next word is one unit further there
as well (`wordValue_eq`).
-/

set_option autoImplicit false

namespace Lexical

/-- The rational that a decimal is. -/
def Decimal.toRat (d : Decimal) : Rat := d.coefficient * 10 ^ d.exponent

theorem Decimal.toRat_nonneg (d : Decimal) : 0 ≤ d.toRat := by
  unfold toRat
  positivity

/-- A power with any exponent, in the powers that are natural numbers. -/
theorem zpow_eq_div {b : Rat} (hb : b ≠ 0) (e : Int) : b ^ e = b ^ e.toNat / b ^ (-e).toNat := by
  rw [← zpow_natCast, ← zpow_natCast, ← zpow_sub₀ hb, Int.toNat_sub_toNat_neg]

theorem Decimal.toRat_eq (d : Decimal) : d.toRat = d.numerator / d.denominator := by
  have hnumerator : (d.numerator : Rat) = d.coefficient * 10 ^ d.exponent.toNat := by
    simp [numerator]
  have hdenominator : (d.denominator : Rat) = 10 ^ (-d.exponent).toNat := by
    simp [denominator]
  rw [toRat, zpow_eq_div (by norm_num), hnumerator, hdenominator, mul_div_assoc]

/-! ## Rounding a quotient -/

/-- A quotient of naturals is the floor of the rational one. -/
theorem floor_bounds {a b : Nat} (hb : 0 < b) : ((a / b : Nat) : Rat) ≤ a / b ∧
    (a / b : Rat) < (a / b : Nat) + 1 := by
  have hb' : (0 : Rat) < b := by exact_mod_cast hb
  rw [le_div_iff₀ hb', div_lt_iff₀ hb']
  constructor
  · exact_mod_cast Nat.div_mul_le_self a b
  · exact_mod_cast (Nat.div_lt_iff_lt_mul hb).mp (Nat.lt_add_one (a / b))

/-- The nearer of the two neighbours, and the even one if the quotient is midway. -/
theorem roundDiv_toEven {a b : Nat} (hb : 0 < b) :
    (a / b : Rat) < (a / b : Nat) + 1 / 2 ∧ roundDiv .toEven a b = a / b ∨
      ((a / b : Nat) : Rat) + 1 / 2 < a / b ∧ roundDiv .toEven a b = a / b + 1 ∨
        (a / b : Rat) = (a / b : Nat) + 1 / 2 ∧ roundDiv .toEven a b % 2 = 0 ∧
          (roundDiv .toEven a b = a / b ∨ roundDiv .toEven a b = a / b + 1) := by
  have hb' : (0 : Rat) < b := by exact_mod_cast hb
  have hsplit : (a : Rat) = b * (a / b : Nat) + (a % b : Nat) := by
    exact_mod_cast (Nat.div_add_mod a b).symm
  have hquotient : (a / b : Rat) = (a / b : Nat) + (a % b : Nat) / b := by
    rw [hsplit]
    field_simp
  rw [hquotient]
  unfold roundDiv
  simp only
  split
  next hless =>
    refine Or.inl ⟨add_lt_add_right ?_ _, rfl⟩
    have hless : (2 * (a % b : Nat) : Rat) < b := by exact_mod_cast hless
    rw [div_lt_div_iff₀ hb' (by norm_num)]
    linarith
  next hnotLess =>
  split
  next hgreater =>
    refine Or.inr (Or.inl ⟨add_lt_add_right ?_ _, rfl⟩)
    have hgreater : (b : Rat) < 2 * (a % b : Nat) := by exact_mod_cast hgreater
    rw [div_lt_div_iff₀ (by norm_num) hb']
    linarith
  next hnotGreater =>
    have htie : (2 * (a % b : Nat) : Rat) = b := by
      exact_mod_cast Nat.le_antisymm (Nat.not_lt.mp hnotGreater) (Nat.not_lt.mp hnotLess)
    refine Or.inr (Or.inr ⟨?_, ?_⟩)
    · rw [add_right_inj, div_eq_div_iff hb'.ne' (by norm_num)]
      linarith
    · split <;> omega

namespace Binary64

variable {q : Rat} {n num den : Nat}

/-! ## The size of a quotient -/

theorem powerLe_iff (hden : 0 < den) (e : Int) :
    powerLe e num den = true ↔ (2 : Rat) ^ e ≤ num / den := by
  have hden' : (0 : Rat) < den := by exact_mod_cast hden
  have hpower : (0 : Rat) < 2 ^ (-e).toNat := by positivity
  rw [zpow_eq_div (by norm_num), div_le_div_iff₀ hpower hden', powerLe, decide_eq_true_iff, mul_comm,
    ← Nat.cast_le (α := Rat)]
  simp

theorem two_zpow_sub (a b : Nat) : (2 : Rat) ^ ((a : Int) - b) = 2 ^ a / 2 ^ b := by
  rw [zpow_sub₀ (by norm_num), zpow_natCast, zpow_natCast]

/-- The logarithm that is found is that of the greatest power of two which is not above the quotient. -/
theorem floorLog_spec (hnum : num ≠ 0) (hden : 0 < den) :
    (2 : Rat) ^ floorLog num den ≤ num / den ∧ (num / den : Rat) < 2 ^ (floorLog num den + 1) := by
  have hden' : (0 : Rat) < den := by exact_mod_cast hden
  have hnumLow : (2 : Rat) ^ num.log2 ≤ num := by exact_mod_cast Nat.log2_self_le hnum
  have hnumHigh : (num : Rat) < 2 ^ (num.log2 + 1) := by exact_mod_cast Nat.lt_log2_self
  have hdenLow : (2 : Rat) ^ den.log2 ≤ den := by
    exact_mod_cast Nat.log2_self_le (Nat.ne_of_gt hden)
  have hdenHigh : (den : Rat) < 2 ^ (den.log2 + 1) := by exact_mod_cast Nat.lt_log2_self
  have hbelow : (num / den : Rat) < 2 ^ ((num.log2 : Int) - den.log2 + 1) := by
    have hexponent : (num.log2 : Int) - den.log2 + 1 = (num.log2 + 1 : Nat) - den.log2 := by omega
    rw [hexponent, two_zpow_sub, div_lt_div_iff₀ hden' (by positivity)]
    calc (num : Rat) * 2 ^ den.log2 < 2 ^ (num.log2 + 1) * 2 ^ den.log2 := by gcongr
      _ ≤ 2 ^ (num.log2 + 1) * den := by gcongr
  have habove : (2 : Rat) ^ ((num.log2 : Int) - den.log2 - 1) ≤ num / den := by
    have hexponent : (num.log2 : Int) - den.log2 - 1 = num.log2 - (den.log2 + 1 : Nat) := by omega
    rw [hexponent, two_zpow_sub, div_le_div_iff₀ (by positivity) hden']
    calc (2 : Rat) ^ num.log2 * den ≤ 2 ^ num.log2 * 2 ^ (den.log2 + 1) := by gcongr
      _ ≤ num * 2 ^ (den.log2 + 1) := by gcongr
  unfold floorLog
  simp only
  split
  next hpower => exact ⟨(powerLe_iff hden _).mp hpower, hbelow⟩
  next hpower =>
    rw [powerLe_iff hden, not_le] at hpower
    refine ⟨habove, ?_⟩
    rwa [sub_add_cancel]

/-! ## Rounding between two words -/

/-- Strictly between the midpoints the word does not have to be even. -/
theorem within_of_lt (habove : ∀ k < n, midpoint k < q) (hbelow : q < midpoint n) : Within q n where
  above k hk := le_of_lt (habove k hk)
  below := le_of_lt hbelow
  even k hk hmid := by
    rcases Nat.lt_or_eq_of_le hk with hlt | rfl
    · exact absurd hmid (ne_of_gt (habove k hlt))
    · exact absurd hmid (ne_of_lt hbelow)

theorem within_of_lt_midpoint (hlow : wordValue n ≤ q) (hhigh : q < midpoint n) : Within q n :=
  within_of_lt (fun _ hk => (midpoint_lt_wordValue hk).trans_le hlow) hhigh

theorem within_wordValue (n : Nat) : Within (wordValue n) n :=
  within_of_lt_midpoint (le_refl _) (wordValue_lt_midpoint n)

theorem within_of_midpoint_lt (hlow : midpoint n < q) (hhigh : q ≤ wordValue (n + 1)) :
    Within q (n + 1) := by
  have habove : ∀ k < n + 1, midpoint k < q := fun k hk =>
    (midpoint_strictMono.monotone (Nat.le_of_lt_succ hk)).trans_lt hlow
  exact within_of_lt habove (hhigh.trans_lt (wordValue_lt_midpoint (n + 1)))

/-- A midpoint goes to the even one of its two words. -/
theorem within_midpoint (m n : Nat) (hm : m % 2 = 0) (hnext : m = n ∨ m = n + 1) :
    Within (midpoint n) m := by
  have hmono := midpoint_strictMono.monotone
  exact ⟨fun k hk => hmono (by omega), hmono (by omega), fun _ _ _ => hm⟩

/-- **A quotient of units is rounded to the word whose midpoints enclose it.** -/
theorem within_roundDiv {j a b : Nat} (hb : 0 < b) (hm : a / b < 2 * binade)
    (hj : binade ≤ a / b ∨ j = 0) (hq : q = a / b * 2 ^ ((j : Int) - 1074)) :
    Within q (j * binade + roundDiv .toEven a b) := by
  have hunit : (0 : Rat) < 2 ^ ((j : Int) - 1074) := zpow_pos (by norm_num) _
  have hlow := wordValue_eq (Nat.le_of_lt hm) hj
  have hhigh := wordValue_eq (j := j) (m := a / b + 1) (by omega) (hj.imp_left (by omega))
  have hmid : midpoint (j * binade + a / b) = ((a / b : Nat) + 1 / 2) * 2 ^ ((j : Int) - 1074) := by
    rw [midpoint, Nat.add_assoc, hlow, hhigh]
    push_cast
    ring
  obtain ⟨hfloor, hceil⟩ := floor_bounds (a := a) hb
  rcases roundDiv_toEven (a := a) hb with ⟨hless, hround⟩ | ⟨hgreater, hround⟩ | ⟨htie, heven, hround⟩
  · rw [hround]
    apply within_of_lt_midpoint
    · rw [hlow, hq]
      gcongr
    · rw [hmid, hq]
      gcongr
  · rw [hround, ← Nat.add_assoc]
    apply within_of_midpoint_lt
    · rw [hmid, hq]
      gcongr
    · rw [Nat.add_assoc, hhigh, hq]
      push_cast
      gcongr
  · rw [htie, ← hmid] at hq
    rw [hq]
    refine within_midpoint _ _ ?_ (by omega)
    have hbinade : binade % 2 = 0 := rfl
    rw [Nat.add_mod, Nat.mul_mod, hbinade, Nat.mul_zero, Nat.zero_mod, Nat.zero_add, heven]

/-! ## The word that is found -/

/-- Counted in its unit a quotient has fifty-three binary places before the point, or fewer if the unit
is the least one. -/
theorem unitExponent_spec (hnum : num ≠ 0) (hden : 0 < den) :
    -1074 ≤ unitExponent num den ∧ (num / den : Rat) < 2 ^ (unitExponent num den + 53) ∧
      ((2 : Rat) ^ (unitExponent num den + 52) ≤ num / den ∨ unitExponent num den = -1074) := by
  obtain ⟨hlow, hhigh⟩ := floorLog_spec hnum hden
  have htwo : (1 : Rat) ≤ 2 := by norm_num
  unfold unitExponent
  refine ⟨le_max_right _ _, hhigh.trans_le (zpow_le_zpow_right₀ htwo (by omega)), ?_⟩
  by_cases hleast : floorLog num den - 52 ≤ -1074
  · exact Or.inr (max_eq_right hleast)
  · refine Or.inl (le_trans (zpow_le_zpow_right₀ htwo ?_) hlow)
    omega

/-- The quotient that is rounded is the given one, counted in a unit. -/
theorem div_scaled (num den : Nat) (e : Int) :
    ((num * Nat.pow 2 (-e).toNat : Nat) : Rat) / (den * Nat.pow 2 e.toNat : Nat) =
      num / den / 2 ^ e := by
  rw [zpow_eq_div (by norm_num) e]
  push_cast [Nat.pow_eq]
  field_simp

theorem within_ofFraction (hnum : num ≠ 0) (hden : 0 < den) :
    Within (num / den) ((unitExponent num den + 1074).toNat * binade +
      roundDiv .toEven (num * Nat.pow 2 (-unitExponent num den).toNat)
        (den * Nat.pow 2 (unitExponent num den).toNat)) := by
  obtain ⟨hleast, hhigh, hlow⟩ := unitExponent_spec hnum hden
  generalize unitExponent num den = e at hleast hhigh hlow ⊢
  have hunit : (0 : Rat) < 2 ^ e := zpow_pos (by norm_num) e
  have hexponent : (((e + 1074).toNat : Nat) : Int) - 1074 = e := by omega
  have hscaled := div_scaled num den e
  have hb : 0 < den * Nat.pow 2 e.toNat := Nat.mul_pos hden (Nat.pow_pos (by decide))
  obtain ⟨hfloor, hceil⟩ := floor_bounds (a := num * Nat.pow 2 (-e).toNat) hb
  rw [hscaled] at hfloor hceil
  refine within_roundDiv hb ?_ ?_ ?_
  · rw [zpow_add₀ (by norm_num), mul_comm, ← div_lt_iff₀ hunit] at hhigh
    have hfits := hfloor.trans_lt hhigh
    rw [binade_eq]
    exact_mod_cast hfits
  · rcases hlow with hlow | hlow
    · rw [zpow_add₀ (by norm_num), mul_comm, ← le_div_iff₀ hunit] at hlow
      have hfull := hlow.trans_lt hceil
      refine Or.inl (Nat.le_of_lt_succ ?_)
      rw [binade_eq]
      exact_mod_cast hfull
    · refine Or.inr ?_
      rw [hlow]
      rfl
  · rw [hscaled, hexponent, div_mul_cancel₀ _ hunit.ne']

/-- **Reading a quotient is rounding it.** -/
theorem ofFraction_rounds (hden : 0 < den) : RoundsTo false (num / den) (ofFraction num den) := by
  by_cases hnum : num = 0
  · have hzero : Within 0 0 := wordValue_zero ▸ within_wordValue 0
    rw [hnum, Nat.cast_zero, zero_div]
    exact roundsTo_of_within (le_refl 0) hzero (negative_ofWord (Nat.zero_le _))
      (magnitude_ofWord (Nat.zero_le _))
  · have hquotient : (0 : Rat) ≤ num / den := div_nonneg (Nat.cast_nonneg num) (Nat.cast_nonneg den)
    have hwithin := within_ofFraction hnum hden
    unfold ofFraction
    rw [if_neg hnum]
    simp only
    generalize (unitExponent num den + 1074).toNat * binade + _ = word at hwithin ⊢
    split
    next hfinite =>
      have hword := Nat.le_of_lt hfinite
      refine roundsTo_of_within hquotient hwithin (negative_ofWord hword) ?_
      rw [magnitude_ofWord hword, Nat.min_eq_left hword]
    next hinfinite =>
      refine roundsTo_of_within hquotient hwithin (negative_ofWord (Nat.le_refl _)) ?_
      rw [infinity, magnitude_ofWord (Nat.le_refl _), Nat.min_eq_right (Nat.not_lt.mp hinfinite)]

theorem nearest_rounds (d : Decimal) : RoundsTo false d.toRat (nearest d) := by
  rw [d.toRat_eq]
  exact ofFraction_rounds (Nat.pow_pos (by decide))

end Binary64
end Lexical
