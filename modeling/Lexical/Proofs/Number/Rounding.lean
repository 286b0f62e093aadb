import Lexical.Proofs.Number.Value

/-!
# Rounding to the nearest number

IEEE 754 rounds a rational to the nearest number there is, and of two equally near ones to the one
with the even significand. `RoundsTo` says that of a number without saying how to find it. Finding it
is a comparison with midpoints: `Within q n` says that `q` lies between the midpoints on either side of
the word `n`, and may be such a midpoint itself if the word is even. The two come to the same
(`roundsTo_iff_within`), so what is known of midpoints, which ascend, is known of rounding: it is
unambiguous, and a greater rational is not rounded to a smaller number.
-/

set_option autoImplicit false

namespace Lexical
namespace Binary64

/-- A rational of the given sign and size is rounded to a number: to the nearest finite one, and if two
are nearest to the even one of them, unless the size is not below `overflow`. The sign is kept, by a
zero and by an infinity too. -/
structure RoundsTo (sign : Bool) (q : Rat) (x : Binary64) : Prop where
  negative_eq : x.negative = sign
  isNaN_eq : x.isNaN = false
  finite_iff : x.isFinite = true ↔ q < overflow
  nearest : x.isFinite = true → ∀ y : Binary64, y.isFinite = true →
    |x.toRat - signed sign q| ≤ |y.toRat - signed sign q|
  even : x.isFinite = true → ∀ y : Binary64, y.isFinite = true → y.toRat ≠ x.toRat →
    |y.toRat - signed sign q| = |x.toRat - signed sign q| → x.significand % 2 = 0

/-- The order of the numbers that are not negative: infinity is above all others. -/
def AtMost (x y : Binary64) : Prop := y.isFinite = true → x.isFinite = true ∧ x.toRat ≤ y.toRat

/-- A rational lies between the midpoints next to a word, and on one of them only if the word is
even. -/
structure Within (q : Rat) (n : Nat) : Prop where
  above : ∀ k < n, midpoint k ≤ q
  below : q ≤ midpoint n
  even : ∀ k ≤ n, q = midpoint k → n % 2 = 0

variable {q q' : Rat} {m n : Nat} {sign : Bool} {x y : Binary64}

/-! ## Distances -/

theorem dist_right_le_iff {u v : Rat} (h : u < v) : |v - q| ≤ |u - q| ↔ u + v ≤ 2 * q := by
  rw [← sq_le_sq]
  constructor
  · intro hle
    nlinarith
  · intro hle
    nlinarith

theorem dist_left_le_iff {u v : Rat} (h : u < v) : |u - q| ≤ |v - q| ↔ 2 * q ≤ u + v := by
  rw [← sq_le_sq]
  constructor
  · intro hle
    nlinarith
  · intro hle
    nlinarith

theorem dist_eq_dist_iff {u v : Rat} (h : u < v) : |u - q| = |v - q| ↔ 2 * q = u + v := by
  rw [le_antisymm_iff, dist_left_le_iff h, dist_right_le_iff h, ← le_antisymm_iff]

/-! ## Between midpoints -/

/-- No word is nearer than the one whose midpoints enclose a rational. -/
theorem Within.dist_le (h : Within q n) (k : Nat) : |wordValue n - q| ≤ |wordValue k - q| := by
  rcases lt_trichotomy k n with hlt | rfl | hgt
  · obtain ⟨p, rfl⟩ := Nat.exists_eq_add_of_lt hlt
    have habove := h.above (k + p) (by omega)
    have hle := wordValue_strictMono.monotone (Nat.le_add_right k p)
    rw [dist_right_le_iff (wordValue_strictMono hlt)]
    unfold midpoint at habove
    linarith
  · exact le_refl _
  · have hbelow := h.below
    have hle := wordValue_strictMono.monotone (Nat.add_one_le_of_lt hgt)
    rw [dist_left_le_iff (wordValue_strictMono hgt)]
    unfold midpoint at hbelow
    linarith

/-- Where another word is as near, the rational is a midpoint. -/
theorem Within.even_of_dist_eq (h : Within q n) {k : Nat} (hne : k ≠ n)
    (htie : |wordValue k - q| = |wordValue n - q|) : n % 2 = 0 := by
  rcases Nat.lt_or_gt_of_ne hne with hlt | hgt
  · obtain ⟨p, rfl⟩ := Nat.exists_eq_add_of_lt hlt
    have habove := h.above (k + p) (by omega)
    have hle := wordValue_strictMono.monotone (Nat.le_add_right k p)
    rw [dist_eq_dist_iff (wordValue_strictMono hlt)] at htie
    refine h.even (k + p) (by omega) ?_
    unfold midpoint at habove ⊢
    linarith
  · have hbelow := h.below
    have hle := wordValue_strictMono.monotone (Nat.add_one_le_of_lt hgt)
    rw [eq_comm, dist_eq_dist_iff (wordValue_strictMono hgt)] at htie
    refine h.even n (Nat.le_refl n) ?_
    unfold midpoint at hbelow ⊢
    linarith

/-- The midpoints enclose a rational if no word is nearer, and an even one where another is as near.
The word after the last one is not looked at. -/
theorem within_of_nearest {last : Nat} (hn : n ≤ last) (hlast : n = last → q < midpoint last)
    (hnearest : ∀ k ≤ last, |wordValue n - q| ≤ |wordValue k - q|)
    (heven : ∀ k ≤ last, k ≠ n → |wordValue k - q| = |wordValue n - q| → n % 2 = 0) :
    Within q n := by
  constructor
  case above =>
    intro k hk
    have hdist := hnearest k (by omega)
    have hle := wordValue_strictMono.monotone (Nat.add_one_le_of_lt hk)
    rw [dist_right_le_iff (wordValue_strictMono hk)] at hdist
    unfold midpoint
    linarith
  case below =>
    rcases Nat.lt_or_eq_of_le hn with hlt | rfl
    · have hdist := hnearest (n + 1) hlt
      rw [dist_left_le_iff (wordValue_strictMono (Nat.lt_add_one n))] at hdist
      unfold midpoint
      linarith
    · exact le_of_lt (hlast rfl)
  case even =>
    intro k hk hmid
    rcases Nat.lt_or_eq_of_le hk with hlt | rfl
    · -- Only the word before is as far as its midpoint is.
      have hdist := hnearest k (by omega)
      rw [dist_right_le_iff (wordValue_strictMono hlt), hmid] at hdist
      unfold midpoint at hdist
      have hnext : n ≤ k + 1 := wordValue_strictMono.le_iff_le.mp (by linarith)
      obtain rfl : n = k + 1 := by omega
      refine heven k (by omega) (by omega) ?_
      rw [dist_eq_dist_iff (wordValue_strictMono hlt), hmid, midpoint]
      ring
    · rcases Nat.lt_or_eq_of_le hn with hlt | rfl
      · refine heven (k + 1) hlt (by omega) ?_
        rw [eq_comm, dist_eq_dist_iff (wordValue_strictMono (Nat.lt_add_one k)), hmid, midpoint]
        ring
      · exact absurd hmid (ne_of_lt (hlast rfl))

/-- **A greater rational is not within the midpoints of a smaller word.** -/
theorem Within.le_of_le (h : Within q n) (h' : Within q' m) (hle : q ≤ q') : n ≤ m := by
  by_contra hlt
  have hlt : m < n := Nat.not_le.mp hlt
  have habove := h.above m hlt
  have hbelow := h'.below
  have hq : q = midpoint m := by linarith
  have hq' : q' = midpoint m := by linarith
  have heven := h.even m (Nat.le_of_lt hlt) hq
  have heven' := h'.even m (Nat.le_refl m) hq'
  -- Both words are even, so there is one between them, and its midpoint is passed as well.
  have hnext := h.above (m + 1) (by omega)
  have hascends := midpoint_strictMono (Nat.lt_add_one m)
  linarith

theorem Within.lt_infinityWord_iff (h : Within q n) : n < infinityWord ↔ q < overflow := by
  rw [← midpoint_last]
  constructor
  · intro hn
    have hle := midpoint_strictMono.monotone (Nat.le_sub_one_of_lt hn)
    refine lt_of_le_of_ne (h.below.trans hle) fun heq => ?_
    -- The greatest finite word is odd, so its upper midpoint is not rounded to it.
    obtain rfl : n = infinityWord - 1 :=
      midpoint_strictMono.injective (le_antisymm hle (heq ▸ h.below))
    exact absurd (h.even _ (Nat.le_refl _) heq) (by decide)
  · intro hq
    by_contra hn
    exact absurd (h.above (infinityWord - 1) (Nat.sub_one_lt_of_le (by decide) (Nat.not_lt.mp hn)))
      (not_le.mpr hq)

/-! ## Rounding is a comparison with midpoints -/

theorem dist_eq (hx : x.negative = sign) :
    |x.toRat - signed sign q| = |wordValue x.magnitude - q| := by
  rw [toRat, hx, signed_sub, abs_signed, size_eq]

theorem dist_le_dist (hq : 0 ≤ q) (y : Binary64) :
    |wordValue y.magnitude - q| ≤ |y.toRat - signed sign q| := by
  have habs : |y.toRat| = wordValue y.magnitude := by
    rw [toRat, abs_signed, size_eq, abs_of_nonneg (wordValue_nonneg _)]
  have hle := abs_abs_sub_abs_le y.toRat (signed sign q)
  rwa [habs, abs_signed, abs_of_nonneg hq] at hle

/-- A number of the other sign is as near only if both are zero. -/
theorem toRat_eq_of_dist_eq (hq : 0 ≤ q) (h : Within q x.magnitude) (hx : x.negative = sign)
    (hword : y.magnitude = x.magnitude)
    (htie : |y.toRat - signed sign q| = |x.toRat - signed sign q|) : y.toRat = x.toRat := by
  by_cases hy : y.negative = sign
  · rw [toRat, toRat, hx, hy, size_eq, size_eq, hword]
  · have hnear := h.dist_le 0
    have hvalue := wordValue_nonneg x.magnitude
    have hother : y.toRat = signed sign (-wordValue x.magnitude) := by
      rw [toRat, size_eq, hword, Bool.eq_not.mpr hy]
      cases sign <;> simp [signed]
    have hthis : x.toRat = signed sign (wordValue x.magnitude) := by rw [toRat, hx, size_eq]
    rw [dist_eq hx, hother, signed_sub, abs_signed, abs_of_nonpos (by linarith)] at htie
    rw [wordValue_zero, zero_sub, abs_neg, abs_of_nonneg hq] at hnear
    have hzero : wordValue x.magnitude = 0 := by
      rcases abs_choice (wordValue x.magnitude - q) with hdist | hdist <;> rw [hdist] at htie hnear <;>
        linarith
    rw [hother, hthis, hzero, neg_zero]

/-- **A finite number is what a rational is rounded to exactly if the midpoints next to it enclose the
rational.** -/
theorem roundsTo_iff_within (hx : x.isFinite = true) (hq : 0 ≤ q) :
    RoundsTo sign q x ↔ x.negative = sign ∧ Within q x.magnitude := by
  have hword := isFinite_iff.mp hx
  constructor
  · intro h
    -- The words compared with are those of finite numbers, taken with the sign of the number.
    have hfinite : ∀ k ≤ infinityWord - 1, ∃ y : Binary64, y.isFinite = true ∧
        y.toRat = signed sign (wordValue k) ∧
        |y.toRat - signed sign q| = |wordValue k - q| := by
      intro k hk
      have hk : k < infinityWord := Nat.lt_of_le_of_lt hk (by decide)
      obtain ⟨y, hy, rfl⟩ := exists_of_magnitude sign (Nat.le_of_lt hk)
      exact ⟨y, isFinite_iff.mpr hk, by rw [toRat, hy, size_eq], dist_eq hy⟩
    have hthis : x.toRat = signed sign (wordValue x.magnitude) := by
      rw [toRat, h.negative_eq, size_eq]
    refine ⟨h.negative_eq, within_of_nearest (Nat.le_sub_one_of_lt hword) ?_ ?_ ?_⟩
    · intro _
      rw [midpoint_last]
      exact h.finite_iff.mp hx
    · intro k hk
      obtain ⟨y, hy, -, hdist⟩ := hfinite k hk
      rw [← hdist, ← dist_eq h.negative_eq]
      exact h.nearest hx y hy
    · intro k hk hne htie
      obtain ⟨y, hy, hyvalue, hdist⟩ := hfinite k hk
      rw [← significand_mod_two]
      refine h.even hx y hy ?_ (by rw [hdist, htie, dist_eq h.negative_eq])
      rw [hyvalue, hthis]
      exact fun heq => hne (wordValue_strictMono.injective (signed_injective sign heq))
  · rintro ⟨hsign, h⟩
    have hdist := dist_eq hsign (q := q)
    constructor
    case negative_eq => exact hsign
    case isNaN_eq => exact isNaN_eq_false_iff.mpr (Nat.le_of_lt hword)
    case finite_iff => exact ⟨fun _ => h.lt_infinityWord_iff.mp hword, fun _ => hx⟩
    case nearest =>
      intro _ y _
      rw [hdist]
      exact (h.dist_le y.magnitude).trans (dist_le_dist hq y)
    case even =>
      intro _ y _ hne htie
      rw [significand_mod_two]
      have hle : |wordValue y.magnitude - q| ≤ |y.toRat - signed sign q| := dist_le_dist hq y
      refine h.even_of_dist_eq (k := y.magnitude) ?_ (le_antisymm ?_ (h.dist_le _))
      · intro hsame
        exact hne (toRat_eq_of_dist_eq hq h hsign hsame htie)
      · rwa [htie, hdist] at hle

/-- What is too large for the finite numbers is rounded to infinity. -/
theorem roundsTo_of_overflow (hsign : x.negative = sign) (hx : x.magnitude = infinityWord)
    (hq : overflow ≤ q) : RoundsTo sign q x := by
  have hinfinite : ¬ x.isFinite = true := by
    rw [isFinite_iff, hx]
    exact lt_irrefl _
  constructor
  case negative_eq => exact hsign
  case isNaN_eq => exact isNaN_eq_false_iff.mpr (Nat.le_of_eq hx)
  case finite_iff => exact ⟨fun h => absurd h hinfinite, fun h => absurd hq (not_le.mpr h)⟩
  case nearest => exact fun h => absurd h hinfinite
  case even => exact fun h => absurd h hinfinite

theorem roundsTo_of_within (hq : 0 ≤ q) (h : Within q n) (hsign : x.negative = sign)
    (hx : x.magnitude = min n infinityWord) : RoundsTo sign q x := by
  by_cases hn : n < infinityWord
  · rw [Nat.min_eq_left (Nat.le_of_lt hn)] at hx
    rw [roundsTo_iff_within (isFinite_iff.mpr (hx ▸ hn)) hq, hx]
    exact ⟨hsign, h⟩
  · rw [Nat.min_eq_right (Nat.not_lt.mp hn)] at hx
    exact roundsTo_of_overflow hsign hx (not_lt.mp (mt h.lt_infinityWord_iff.mpr hn))

/-! ## Rounding is a function, and it ascends -/

/-- **A greater rational is not rounded to a smaller word.** -/
theorem RoundsTo.magnitude_le (h : RoundsTo sign q x) (h' : RoundsTo sign q' y) (hq : 0 ≤ q)
    (hle : q ≤ q') : x.magnitude ≤ y.magnitude := by
  by_cases hy : y.isFinite = true
  · have hx : x.isFinite = true := h.finite_iff.mpr (lt_of_le_of_lt hle (h'.finite_iff.mp hy))
    have hwithin := ((roundsTo_iff_within hx hq).mp h).2
    have hwithin' := ((roundsTo_iff_within hy (hq.trans hle)).mp h').2
    exact hwithin.le_of_le hwithin' hle
  · rw [isFinite_iff, Nat.not_lt] at hy
    exact (isNaN_eq_false_iff.mp h.isNaN_eq).trans hy

theorem RoundsTo.unique (h : RoundsTo sign q x) (h' : RoundsTo sign q y) (hq : 0 ≤ q) : x = y := by
  have hle := h.magnitude_le h' hq (le_refl q)
  have hge := h'.magnitude_le h hq (le_refl q)
  exact eq_of_magnitude_eq (h.negative_eq.trans h'.negative_eq.symm) (Nat.le_antisymm hle hge)

theorem RoundsTo.atMost (h : RoundsTo false q x) (h' : RoundsTo false q' y) (hq : 0 ≤ q)
    (hle : q ≤ q') : x.AtMost y := by
  intro hy
  have hmagnitude := h.magnitude_le h' hq hle
  refine ⟨h.finite_iff.mpr (lt_of_le_of_lt hle (h'.finite_iff.mp hy)), ?_⟩
  rw [toRat, toRat, h.negative_eq, h'.negative_eq, size_eq, size_eq]
  exact wordValue_strictMono.monotone hmagnitude

end Binary64
end Lexical
