import Lexical.Proofs.Json.Numeral
import Lexical.Proofs.Number.Nearest

/-!
# The shortest decimal is read back, and no shorter one is

The decimals that are rounded to a number are those between its midpoints, and `RoundingInterval` has
these midpoints as natural numbers over one denominator (`contains_iff`). Between two of them there is no
gap: what lies between two decimals that are read back is read back (`Within.convex`). From this alone it
follows that the search is right. A grid with a point in the interval has it beside the number itself, so
two points of each grid are enough; the finest grid has a point in every interval and a grid above the
number has none, so it is enough to try the grids in between; and a decimal with fewer digits, on
whichever grid, would leave a power of ten between itself and the one that was found, on a coarser grid.
-/

set_option autoImplicit false

namespace Lexical
namespace Binary64

variable {q a b : Rat} {n : Nat} {x : Binary64}

/-! ## Between two midpoints -/

/-- What lies between two rationals with the same nearest word has that word too. -/
theorem Within.convex (ha : Within a n) (hb : Within b n) (haq : a ≤ q) (hqb : q ≤ b) :
    Within q n where
  above k hk := (ha.above k hk).trans haq
  below := hqb.trans hb.below
  even k hk hmid := by
    rcases Nat.lt_or_eq_of_le hk with hlt | rfl
    · exact ha.even k hk (le_antisymm (haq.trans_eq hmid) (ha.above k hlt))
    · exact hb.even k hk (le_antisymm hb.below (hmid.symm.trans_le hqb))

theorem within_succ_iff : Within q (n + 1) ↔
    if (n + 1) % 2 = 0 then midpoint n ≤ q ∧ q ≤ midpoint (n + 1)
    else midpoint n < q ∧ q < midpoint (n + 1) := by
  have hascends := midpoint_strictMono.monotone
  have hlast : ∀ k < n + 1, midpoint k ≤ midpoint n := fun k hk => hascends (Nat.le_of_lt_succ hk)
  constructor
  · intro h
    have habove := h.above n (Nat.lt_succ_self n)
    split
    next => exact ⟨habove, h.below⟩
    next hodd =>
      exact ⟨lt_of_le_of_ne habove fun heq => hodd (h.even n (Nat.le_succ n) heq.symm),
        lt_of_le_of_ne h.below fun heq => hodd (h.even (n + 1) (Nat.le_refl _) heq)⟩
  · intro h
    split at h
    next heven => exact ⟨fun k hk => (hlast k hk).trans h.1, h.2, fun _ _ _ => heven⟩
    next => exact within_of_lt (fun k hk => (hlast k hk).trans_lt h.1) h.2

/-- Zero is rounded to no word but its own. -/
theorem Within.coefficient_ne_zero {c : Nat} {k : Int} (h : Within (c * 10 ^ k) n) (hn : n ≠ 0) :
    c ≠ 0 := by
  rintro rfl
  have habove := h.above 0 (Nat.pos_of_ne_zero hn)
  have hpositive := wordValue_lt_midpoint 0
  rw [Nat.cast_zero, zero_mul] at habove
  rw [wordValue_zero] at hpositive
  exact absurd habove (not_le.mpr hpositive)

/-! ## The interval of a number -/

/-- The exponent of a number is that of its unit in the last place. -/
theorem unit_magnitude (x : Binary64) : unit x.magnitude = 2 ^ x.exponent := by
  unfold unit doublings exponent exponentField
  cases x.magnitude / binade with
  | zero => rfl
  | succ f =>
    rw [if_neg (Nat.succ_ne_zero f)]
    congr 1
    push_cast
    ring

theorem midpoint_eq (n : Nat) : midpoint n = wordValue n + unit n / 2 := by
  rw [midpoint, wordValue_succ]
  ring

/-- Below a power of two the unit in the last place is half of what it is above. -/
theorem unit_before (hx : x.magnitude ≠ 0) : unit (x.magnitude - 1) =
    if x.fraction = 0 ∧ 1 < x.exponentField then unit x.magnitude / 2 else unit x.magnitude := by
  have hpositive := Nat.pos_of_ne_zero hx
  have hdoublings : ∀ m, doublings m = m / 4503599627370496 - 1 := fun m => rfl
  have hfield : x.exponentField = x.magnitude / 4503599627370496 := rfl
  have hfraction : x.fraction = x.magnitude % 4503599627370496 := rfl
  have hthis := hdoublings x.magnitude
  have hbefore := hdoublings (x.magnitude - 1)
  unfold unit
  split
  next hpower =>
    have hhalf : doublings x.magnitude = doublings (x.magnitude - 1) + 1 := by omega
    rw [hhalf, Nat.cast_add_one, add_sub_right_comm, two_zpow_succ]
    ring
  next hinside =>
    have hsame : doublings (x.magnitude - 1) = doublings x.magnitude := by omega
    rw [hsame]

end Binary64

namespace RoundingInterval

open Binary64

variable {x : Binary64} {tie : Tie} {k : Int} {c : Nat}

/-- So many quarters of the unit in the last place, over the common denominator. -/
theorem quarters_div (x : Binary64) (m : Nat) :
    ((m * Nat.pow 2 (x.exponent - 2).toNat : Nat) : Rat) / (ofBinary64 x).denominator =
      m * (unit x.magnitude / 4) := by
  have hquarter : unit x.magnitude / 4 = 2 ^ (x.exponent - 2) := by
    rw [unit_magnitude, zpow_sub₀ (by norm_num)]
    norm_num
  rw [hquarter, zpow_eq_div (by norm_num), neg_sub, ofBinary64]
  push_cast [Nat.pow_eq]
  rw [mul_div_assoc]

theorem value_div (x : Binary64) :
    ((ofBinary64 x).value : Rat) / (ofBinary64 x).denominator = wordValue x.magnitude := by
  have hvalue : (ofBinary64 x).value = 4 * x.significand * Nat.pow 2 (x.exponent - 2).toNat := rfl
  rw [hvalue, quarters_div, ← size_eq, size, ← unit_magnitude]
  push_cast
  ring

theorem upper_div (x : Binary64) :
    ((ofBinary64 x).upper : Rat) / (ofBinary64 x).denominator = midpoint x.magnitude := by
  have hupper : (ofBinary64 x).upper =
    (4 * x.significand + 2) * Nat.pow 2 (x.exponent - 2).toNat := rfl
  rw [hupper, quarters_div, midpoint_eq, ← size_eq, size, ← unit_magnitude]
  push_cast
  ring

theorem lower_div (hx : x.magnitude ≠ 0) :
    ((ofBinary64 x).lower : Rat) / (ofBinary64 x).denominator = midpoint (x.magnitude - 1) := by
  have hsignificand := significand_pos hx
  have hnext := wordValue_succ (x.magnitude - 1)
  rw [Nat.sub_add_cancel (Nat.pos_of_ne_zero hx), unit_before hx] at hnext
  have hlower : (ofBinary64 x).lower = (4 * x.significand -
    if x.fraction = 0 ∧ 1 < x.exponentField then 1 else 2) * Nat.pow 2 (x.exponent - 2).toNat := rfl
  rw [hlower, quarters_div, midpoint_eq, unit_before hx]
  rw [← size_eq, size, ← unit_magnitude] at hnext
  split at hnext
  next hpower =>
    rw [if_pos hpower, if_pos hpower, Nat.cast_sub (by omega)]
    push_cast
    linarith
  next hinside =>
    rw [if_neg hinside, if_neg hinside, Nat.cast_sub (by omega)]
    push_cast
    linarith

theorem denominator_pos (x : Binary64) : 0 < (ofBinary64 x).denominator :=
  Nat.pow_pos (by decide)

/-- **The interval holds what is rounded to the number.** -/
theorem contains_iff (hx : x.magnitude ≠ 0) {parts : Nat} (hparts : 0 < parts) (m : Nat) :
    (ofBinary64 x).contains parts m = true ↔
      Within (m / ((ofBinary64 x).denominator * parts : Nat)) x.magnitude := by
  obtain ⟨n, hn⟩ := Nat.exists_eq_succ_of_ne_zero hx
  have hden := denominator_pos x
  have hcommon : (0 : Rat) < ((ofBinary64 x).denominator * parts : Nat) := by
    exact_mod_cast Nat.mul_pos hden hparts
  have hscaled : ∀ p : Nat, (p : Rat) / (ofBinary64 x).denominator =
      (p * parts : Nat) / ((ofBinary64 x).denominator * parts : Nat) := by
    intro p
    push_cast
    exact (mul_div_mul_right _ _ (by exact_mod_cast hparts.ne')).symm
  have hclosed : (ofBinary64 x).closed = decide (x.magnitude % 2 = 0) :=
    congrArg (fun r => decide (r = 0)) (significand_mod_two x)
  have hlower := lower_div hx
  have hupper := upper_div x
  rw [hn] at hupper hclosed
  rw [hn, Nat.succ_sub_one] at hlower
  rw [hn, within_succ_iff, ← hupper, ← hlower, hscaled, hscaled, div_le_div_iff_of_pos_right hcommon,
    div_le_div_iff_of_pos_right hcommon, div_lt_div_iff_of_pos_right hcommon,
    div_lt_div_iff_of_pos_right hcommon, contains, hclosed]
  norm_cast
  by_cases heven : (n + 1) % 2 = 0
  · simp [heven]
  · simp [heven]

/-! ## Grids -/

theorem contains_grid_iff (hx : x.magnitude ≠ 0) (k : Int) (c : Nat) :
    (ofBinary64 x).contains (Nat.pow 10 (-k).toNat)
        (c * ((ofBinary64 x).denominator * Nat.pow 10 k.toNat)) = true ↔
      Within (c * 10 ^ k) x.magnitude := by
  have hden : ((ofBinary64 x).denominator : Rat) ≠ 0 := by exact_mod_cast (denominator_pos x).ne'
  have hparts : 0 < Nat.pow 10 (-k).toNat := Nat.pow_pos (by decide)
  rw [contains_iff hx hparts, zpow_eq_div (by norm_num) k]
  push_cast [Nat.pow_eq]
  rw [mul_left_comm, mul_div_mul_left _ _ hden, mul_div_assoc]

/-- The two points of a grid that are looked at stand on either side of the number. -/
theorem grid_neighbours (x : Binary64) (k : Int) {below : Nat}
    (hbelow : below = (ofBinary64 x).value * Nat.pow 10 (-k).toNat /
      ((ofBinary64 x).denominator * Nat.pow 10 k.toNat)) :
    below * 10 ^ k ≤ wordValue x.magnitude ∧
      wordValue x.magnitude < (below + 1 : Nat) * 10 ^ k := by
  have hstep : 0 < (ofBinary64 x).denominator * Nat.pow 10 k.toNat :=
    Nat.mul_pos (denominator_pos x) (Nat.pow_pos (by decide))
  have hden : ((ofBinary64 x).denominator : Rat) ≠ 0 := by exact_mod_cast (denominator_pos x).ne'
  have hten : (0 : Rat) < 10 ^ k := zpow_pos (by norm_num) k
  have hquotient : (((ofBinary64 x).value * Nat.pow 10 (-k).toNat : Nat) : Rat) /
      ((ofBinary64 x).denominator * Nat.pow 10 k.toNat : Nat) = wordValue x.magnitude / 10 ^ k := by
    rw [← value_div, zpow_eq_div (by norm_num) k]
    push_cast [Nat.pow_eq]
    field_simp
  obtain ⟨hfloor, hceil⟩ := floor_bounds (a := (ofBinary64 x).value * Nat.pow 10 (-k).toNat) hstep
  rw [hquotient, ← hbelow] at hfloor hceil
  rw [← le_div_iff₀ hten, ← div_lt_iff₀ hten]
  push_cast
  exact ⟨hfloor, hceil⟩

/-- A point that is taken is read back. -/
theorem within_of_gridPoint? (hx : x.magnitude ≠ 0)
    (h : (ofBinary64 x).gridPoint? tie k = some c) : Within (c * 10 ^ k) x.magnitude := by
  rw [← contains_grid_iff hx]
  simp only [gridPoint?] at h
  split at h
  next hlow hhigh =>
    rcases roundDiv_cases tie ((ofBinary64 x).value * Nat.pow 10 (-k).toNat)
      ((ofBinary64 x).denominator * Nat.pow 10 k.toNat) with hround | hround
    · rwa [← Option.some.inj h, hround]
    · rwa [← Option.some.inj h, hround]
  next hlow hhigh => rwa [← Option.some.inj h]
  next hlow hhigh => rwa [← Option.some.inj h]
  next => cases h

/-- **A grid with a point that is read back has one beside the number.** -/
theorem exists_gridPoint? (hx : x.magnitude ≠ 0) (tie : Tie) (h : Within (c * 10 ^ k) x.magnitude) :
    ∃ found, (ofBinary64 x).gridPoint? tie k = some found := by
  obtain ⟨hlow, hhigh⟩ := grid_neighbours x k rfl
  have hten : (0 : Rat) < 10 ^ k := zpow_pos (by norm_num) k
  have hword := within_wordValue x.magnitude
  simp only [gridPoint?]
  generalize hbelow : (ofBinary64 x).value * Nat.pow 10 (-k).toNat /
    ((ofBinary64 x).denominator * Nat.pow 10 k.toNat) = below at hlow hhigh ⊢
  rcases Nat.lt_or_ge below c with hgt | hle
  · have hstep : ((below + 1 : Nat) : Rat) * 10 ^ k ≤ c * 10 ^ k := by
      gcongr
      exact hgt
    have hpoint := hword.convex h (le_of_lt hhigh) hstep
    rw [← contains_grid_iff hx] at hpoint
    rw [hpoint]
    cases (ofBinary64 x).contains (Nat.pow 10 (-k).toNat) _ <;> exact ⟨_, rfl⟩
  · have hstep : (c : Rat) * 10 ^ k ≤ below * 10 ^ k := by gcongr
    have hpoint := h.convex hword hstep hlow
    rw [← contains_grid_iff hx] at hpoint
    rw [hpoint]
    cases (ofBinary64 x).contains (Nat.pow 10 (-k).toNat) _ <;> exact ⟨_, rfl⟩

/-! ## From the finest grid to the coarsest -/

theorem ten_zpow_finest_lt : (10 : Rat) ^ finest < 2 ^ (-1074 : Int) / 2 := by
  have hpowers : (2 : Rat) ^ 1074 * 2 < 10 ^ 324 := by
    have htwo : (2 : Rat) ^ 1074 = (2 ^ 179) ^ 6 := by rw [← pow_mul]
    have hten : (10 : Rat) ^ 324 = (10 ^ 54) ^ 6 := by rw [← pow_mul]
    rw [htwo, hten]
    norm_num
  have hfinest : (10 : Rat) ^ finest = (10 ^ 324)⁻¹ := by
    rw [finest, zpow_neg]
    norm_cast
  have hleast : (2 : Rat) ^ (-1074 : Int) / 2 = (2 ^ 1074 * 2)⁻¹ := by
    rw [zpow_neg, mul_inv, div_eq_mul_inv]
    norm_cast
  rw [hfinest, hleast]
  exact inv_strictAnti₀ (by positivity) hpowers

theorem least_le_unit (n : Nat) : (2 : Rat) ^ (-1074 : Int) ≤ unit n :=
  zpow_le_zpow_right₀ (by norm_num) (by omega)

/-- The finest grid has a point in every interval. -/
theorem exists_gridPoint?_finest (hx : x.magnitude ≠ 0) (tie : Tie) :
    ∃ found, (ofBinary64 x).gridPoint? tie finest = some found := by
  obtain ⟨n, hn⟩ := Nat.exists_eq_succ_of_ne_zero hx
  obtain ⟨hlow, hhigh⟩ := grid_neighbours x finest rfl
  generalize (ofBinary64 x).value * Nat.pow 10 (-finest).toNat /
    ((ofBinary64 x).denominator * Nat.pow 10 finest.toNat) = below at hlow hhigh
  refine exists_gridPoint? hx tie (c := below) ?_
  rw [hn] at hlow hhigh ⊢
  refine within_of_midpoint_lt ?_ hlow
  have hfinest := ten_zpow_finest_lt
  have hunit := least_le_unit n
  have hnext := wordValue_succ n
  have hmid := midpoint_eq n
  push_cast at hhigh
  linarith

/-- On a grid above the interval no point is in it. -/
theorem le_startingStep (hx : x.magnitude ≠ 0) (h : Within (c * 10 ^ k) x.magnitude) :
    k ≤ finest + (ofBinary64 x).startingStep := by
  by_contra hbeyond
  unfold startingStep at hbeyond
  generalize hlength : (Nat.toDigits 10 ((ofBinary64 x).upper / (ofBinary64 x).denominator)).length =
    length at hbeyond
  have hdigits : (ofBinary64 x).upper / (ofBinary64 x).denominator < 10 ^ length :=
    (Nat.length_toDigits_le_iff (by decide) (hlength ▸ Nat.length_toDigits_pos)).mp (le_of_eq hlength)
  have hpower : (10 : Rat) ^ length ≤ 10 ^ k := by
    rw [← zpow_natCast]
    exact zpow_le_zpow_right₀ (by norm_num) (by unfold finest at hbeyond; omega)
  have hcoefficient : (1 : Rat) ≤ c := by
    rw [Nat.one_le_cast, Nat.one_le_iff_ne_zero]
    exact h.coefficient_ne_zero hx
  have hceil := (floor_bounds (a := (ofBinary64 x).upper) (denominator_pos x)).2
  rw [upper_div] at hceil
  refine absurd h.below (not_le.mpr ?_)
  calc midpoint x.magnitude
      < (((ofBinary64 x).upper / (ofBinary64 x).denominator : Nat) : Rat) + 1 := hceil
    _ ≤ 10 ^ length := by exact_mod_cast hdigits
    _ ≤ 10 ^ k := hpower
    _ ≤ c * 10 ^ k := le_mul_of_one_le_left (le_of_lt (zpow_pos (by norm_num) k)) hcoefficient

/-- The grid that is taken is the coarsest one with a point, among those from some steps above the finest
one down to it: on the way down every grid that was passed had none. -/
theorem coarsest_spec (hx : x.magnitude ≠ 0) (tie : Tie) (steps : Nat) :
    Within ((ofBinary64 x).coarsest tie steps).toRat x.magnitude ∧
      ∀ (c : Nat) (k : Int), k ≤ finest + steps → Within (c * 10 ^ k) x.magnitude →
        k ≤ ((ofBinary64 x).coarsest tie steps).exponent := by
  induction steps with
  | zero =>
    obtain ⟨found, hfound⟩ := exists_gridPoint?_finest hx tie
    rw [coarsest, hfound]
    exact ⟨within_of_gridPoint? hx hfound, fun c k hk _ => by simpa using hk⟩
  | succ steps ih =>
    rw [coarsest]
    split
    next found hfound => exact ⟨within_of_gridPoint? hx hfound, fun c k hk _ => hk⟩
    next hnone =>
      refine ⟨ih.1, fun c k hk hpoint => ih.2 c k ?_ hpoint⟩
      by_contra hlast
      obtain rfl : k = finest + (steps + 1 : Nat) := by omega
      obtain ⟨found, hfound⟩ := exists_gridPoint? hx tie hpoint
      exact absurd (hnone.symm.trans hfound) (by simp)

end RoundingInterval

namespace Binary64

open RoundingInterval

variable {x : Binary64} {k : Int} {c m : Nat}

/-- **What a number is written with is read back.** -/
theorem within_shortest (hx : x.magnitude ≠ 0) (tie : Tie) :
    Within (x.shortest tie).toRat x.magnitude := by
  rw [shortest, if_neg hx]
  exact (coarsest_spec hx tie _).1

/-- No coarser grid has a point that is read back. -/
theorem le_shortest_exponent (hx : x.magnitude ≠ 0) (tie : Tie) (h : Within (c * 10 ^ k) x.magnitude) :
    k ≤ (x.shortest tie).exponent := by
  rw [shortest, if_neg hx]
  exact (coarsest_spec hx tie _).2 c k (le_startingStep hx h) h

/-- **Nothing with fewer digits is read back.** -/
theorem shortest_fewest (hx : x.magnitude ≠ 0) (tie : Tie) (h : Within (c * 10 ^ k) x.magnitude)
    (hc : c < 10 ^ m) : (x.shortest tie).coefficient < 10 ^ m := by
  by_contra hmore
  have hexponent := le_shortest_exponent hx tie h
  have hshortest := within_shortest hx tie
  -- A power of ten between the two decimals is a point of a coarser grid.
  have hpower : Within ((1 : Nat) * 10 ^ ((x.shortest tie).exponent + m)) x.magnitude := by
    refine h.convex hshortest ?_ ?_
    · rw [zpow_add₀ (by norm_num), zpow_natCast, Nat.cast_one, one_mul, mul_comm]
      gcongr
      · norm_num
      · exact_mod_cast Nat.le_of_lt hc
    · rw [zpow_add₀ (by norm_num), zpow_natCast, Nat.cast_one, one_mul, mul_comm, Decimal.toRat]
      gcongr
      exact_mod_cast Nat.not_lt.mp hmore
  have hsame := le_shortest_exponent hx tie hpower
  obtain rfl : m = 0 := by omega
  exact h.coefficient_ne_zero hx (Nat.lt_one_iff.mp hc)

theorem rounds_shortest (hx : x.isFinite = true) (tie : Tie) :
    RoundsTo x.negative (x.shortest tie).toRat x := by
  rw [roundsTo_iff_within hx (Decimal.toRat_nonneg _)]
  refine ⟨rfl, ?_⟩
  by_cases hzero : x.magnitude = 0
  · rw [shortest, if_pos hzero, Decimal.toRat, Nat.cast_zero, zero_mul, hzero, ← wordValue_zero]
    exact within_wordValue 0
  · exact within_shortest hzero tie

theorem shortest_coefficient_ne_zero (hx : x.magnitude ≠ 0) (tie : Tie) :
    (x.shortest tie).coefficient ≠ 0 :=
  (within_shortest hx tie).coefficient_ne_zero hx

end Binary64
end Lexical
