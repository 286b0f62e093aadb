import Lexical.Json.Encoding
import Lexical.Proofs.Json.Writing

/-!
# Every finite number is written as JSON writes numbers

A numeral of JSON has no zero in front of other digits of its whole part. Both forms of a decimal
keep to that as long as the coefficient does, and a coefficient is a natural number in digits, so
zero is the only one with a zero in front. Zero itself is where the argument could fail: it is
always written plain, and with a positive exponent that would be `00.0`. No number is written
from such a decimal (`Binary64.shortest_exponent`), because a grid whose point is zero is never
taken before the finest.
-/

set_option autoImplicit false

namespace Lexical

/-! ## Digits -/

namespace Style

theorem isDigits_digits (n : Nat) : IsDigits (digits n) :=
  ⟨Nat.toDigits_ne_nil, fun _ => Nat.isDigit_of_mem_toDigits (by decide) (by decide)⟩

/-- A number that is not zero has no zero in front. -/
theorem head_digits {n : Nat} (hn : n ≠ 0) : (digits n).head? ≠ some '0' := by
  induction n using Nat.strongRecOn with
  | ind n ih =>
    rw [digits, Nat.toDigits_eq_if (by decide)]
    split
    next => simpa using hn
    next hlarge =>
      rw [List.head?_append, Option.or_of_isSome (List.isSome_head?.mpr Nat.toDigits_ne_nil)]
      exact ih (n / 10) (by omega) (by omega)

end Style

theorem IsDigits.subset {ds ds' : List Char} (hds : IsDigits ds) (hsubset : ds' ⊆ ds)
    (hne : ds' ≠ []) : IsDigits ds' :=
  ⟨hne, fun c hc => hds.2 c (hsubset hc)⟩

theorem IsDigits.append_zeros {ds : List Char} (hds : IsDigits ds) (n : Nat) :
    IsDigits (ds ++ List.replicate n '0') := by
  refine ⟨by simp [hds.1], fun c hc => ?_⟩
  rcases List.mem_append.mp hc with hc | hc
  · exact hds.2 c hc
  · rw [List.eq_of_mem_replicate hc]
    decide

theorem IsDigits.zeros_append {ds : List Char} (hds : IsDigits ds) (n : Nat) :
    IsDigits (List.replicate n '0' ++ ds) :=
  (hds.append_zeros n).subset (by simp) (by simp [hds.1])

namespace Json

/-! ## Forms -/

theorem isWhole_digits (n : Nat) : IsWhole (Style.digits n) := by
  refine ⟨Style.isDigits_digits n, fun hhead => ?_⟩
  by_cases hn : n = 0
  · rw [hn]
    exact Nat.toDigits_zero 10
  · exact absurd hhead (Style.head_digits hn)

theorem isWhole_singleton {c : Char} (hc : c.isDigit = true) : IsWhole [c] := by
  refine ⟨⟨List.cons_ne_nil c [], by simpa using hc⟩, fun hhead => ?_⟩
  rw [Option.some.inj hhead]

theorem isNumeral_nat (n : Nat) : IsNumeral n.repr.toList := by
  have hparts : IsNumeral ([] ++ Style.digits n ++ [] ++ []) :=
    .parts (by simp) (isWhole_digits n) (.inl rfl) (.inl rfl)
  rw [List.nil_append, List.append_nil, List.append_nil] at hparts
  rwa [Nat.toList_repr]

theorem isNumeral_point {sign whole fraction : List Char} (hsign : sign ∈ [[], ['-']])
    (hwhole : IsWhole whole) (hfraction : IsDigits fraction) :
    IsNumeral (sign ++ (whole ++ '.' :: fraction)) := by
  simpa using IsNumeral.parts hsign hwhole (.inr ⟨fraction, rfl, hfraction⟩) (.inl rfl)

end Json

namespace Style

open Json

variable {sign : List Char}

theorem isExponent_exponentPart (s : Style) (e : Int) : IsExponent (s.exponentPart e) := by
  refine .inr ⟨'e', _, digits e.natAbs, rfl, by simp, ?_, isDigits_digits _⟩
  split
  · simp
  · split <;> simp

theorem isNumeral_scientific (s : Style) (hsign : sign ∈ [[], ['-']]) {ds : List Char}
    (hds : IsDigits ds) (e : Int) : IsNumeral (sign ++ s.scientific ds e) := by
  have hexponent := isExponent_exponentPart s e
  obtain ⟨d, rest, rfl⟩ := List.exists_cons_of_ne_nil hds.1
  have hwhole := isWhole_singleton (hds.2 d List.mem_cons_self)
  cases rest with
  | nil => simpa [scientific] using IsNumeral.parts hsign hwhole (.inl rfl) hexponent
  | cons c rest =>
    have hrest : IsDigits (c :: rest) := hds.subset (by simp) (List.cons_ne_nil c rest)
    simpa [scientific] using IsNumeral.parts hsign hwhole (.inr ⟨c :: rest, rfl, hrest⟩) hexponent

/-- The plain form of digits with no zero in front, or of a single zero with the point beside
it. -/
theorem isNumeral_plain (hsign : sign ∈ [[], ['-']]) {ds : List Char} {point : Int}
    (hds : IsDigits ds) (hhead : ds.head? = some '0' → ds = ['0'] ∧ point ≤ 1) :
    IsNumeral (sign ++ plain ds point) := by
  unfold plain
  split
  next => exact isNumeral_point hsign (isWhole_singleton (by decide)) (hds.zeros_append _)
  next hpositive =>
  split
  next hlong =>
    -- Zeros are put behind a single zero only if the point is beyond it, which `hhead` rules out.
    have hwhole : IsWhole (ds ++ List.replicate (point - ds.length).toNat '0') := by
      refine ⟨hds.append_zeros _, fun hzero => ?_⟩
      rw [List.head?_append, Option.or_of_isSome (List.isSome_head?.mpr hds.1)] at hzero
      obtain ⟨rfl, hone⟩ := hhead hzero
      have hnone : (point - (['0'] : List Char).length).toNat = 0 := by simp; omega
      rw [hnone]
      rfl
    exact isNumeral_point hsign hwhole (by decide)
  next hshort =>
    have htake : IsWhole (ds.take point.toNat) := by
      refine ⟨hds.subset (List.take_subset _ _) (by simp [hds.1]; omega), fun hzero => ?_⟩
      rw [List.head?_take, if_neg (by omega)] at hzero
      obtain ⟨rfl, -⟩ := hhead hzero
      exact absurd hshort (by simp; omega)
    have hdrop : IsDigits (ds.drop point.toNat) :=
      hds.subset (List.drop_subset _ _) (by simp; omega)
    exact isNumeral_point hsign htake hdrop

theorem isNumeral_decimal (s : Style) (hsign : sign ∈ [[], ['-']]) {d : Decimal}
    (hzero : d.coefficient = 0 → d.exponent ≤ 0) : IsNumeral (sign ++ s.decimal d) := by
  have hds := isDigits_digits d.coefficient
  simp only [decimal]
  split
  next =>
    refine isNumeral_plain hsign hds fun hhead => ?_
    by_cases hcoefficient : d.coefficient = 0
    · have hexponent := hzero hcoefficient
      rw [hcoefficient]
      exact ⟨Nat.toDigits_zero 10, by simp [digits, Nat.toDigits_zero]; omega⟩
    · exact absurd hhead (head_digits hcoefficient)
  next => exact isNumeral_scientific s hsign hds _

end Style

/-! ## Zero is written from no large power of ten -/

namespace RoundingInterval

theorem roundDiv_cases (tie : Tie) (num den : Nat) :
    roundDiv tie num den = num / den ∨ roundDiv tie num den = num / den + 1 := by
  unfold roundDiv
  simp only
  repeat' split
  all_goals simp

theorem le_roundDiv (tie : Tie) (num den : Nat) : num / den ≤ roundDiv tie num den := by
  rcases roundDiv_cases tie num den with hround | hround <;> omega

variable {r : RoundingInterval} {tie : Tie}

theorem contains_zero (hlower : 0 < r.lower) {parts : Nat} (hparts : 0 < parts) :
    r.contains parts 0 = false := by
  have hpositive : r.lower * parts ≠ 0 := Nat.mul_ne_zero (by omega) (by omega)
  unfold contains
  split <;> simp [hpositive]

/-- Zero is not in the interval, so it is not the point of a grid in it. -/
theorem gridPoint?_ne_zero (hlower : 0 < r.lower) {k : Int} {c : Nat}
    (h : r.gridPoint? tie k = some c) : c ≠ 0 := by
  have hzero : r.contains (Nat.pow 10 (-k).toNat) 0 = false :=
    contains_zero hlower (Nat.pow_pos (by decide))
  have hbelow : ∀ n step, r.contains (Nat.pow 10 (-k).toNat) (n * step) = true → n ≠ 0 := by
    rintro n step hin rfl
    rw [Nat.zero_mul, hzero] at hin
    exact Bool.false_ne_true hin
  simp only [gridPoint?] at h
  split at h
  next hin _ =>
    -- Both neighbours are in the interval; the nearer one is not below the lower neighbour.
    have hle := le_roundDiv tie (r.value * Nat.pow 10 (-k).toNat)
      (r.denominator * Nat.pow 10 k.toNat)
    rw [← Option.some.inj h]
    exact Nat.ne_of_gt (Nat.lt_of_lt_of_le (Nat.pos_of_ne_zero (hbelow _ _ hin)) hle)
  next hin _ =>
    rw [← Option.some.inj h]
    exact hbelow _ _ hin
  next => exact (Option.some.inj h).symm ▸ Nat.succ_ne_zero _
  next => cases h

theorem coarsest_exponent (hlower : 0 < r.lower) {n : Nat}
    (hzero : (r.coarsest tie n).coefficient = 0) : (r.coarsest tie n).exponent ≤ 0 := by
  induction n with
  | zero => exact (by decide : finest ≤ 0)
  | succ n ih =>
    simp only [coarsest] at hzero ⊢
    split at hzero
    next c hc => exact absurd hzero (gridPoint?_ne_zero hlower hc)
    next => exact ih hzero

end RoundingInterval

namespace Binary64

theorem significand_pos {x : Binary64} (hx : x.magnitude ≠ 0) : 0 < x.significand := by
  unfold significand
  split
  next hfield =>
    have hsmall : x.magnitude < binade :=
      (Nat.div_eq_zero_iff_lt (Nat.pow_pos (by decide))).mp hfield
    rw [fraction, Nat.mod_eq_of_lt hsmall]
    exact Nat.pos_of_ne_zero hx
  next => exact Nat.add_pos_left (Nat.pow_pos (by decide)) _

theorem lower_pos {x : Binary64} (hx : x.magnitude ≠ 0) :
    0 < (RoundingInterval.ofBinary64 x).lower := by
  have hsignificand := significand_pos hx
  refine Nat.mul_pos ?_ (Nat.pow_pos (by decide))
  split <;> omega

theorem shortest_exponent {x : Binary64} {tie : Tie}
    (hzero : (x.shortest tie).coefficient = 0) : (x.shortest tie).exponent ≤ 0 := by
  unfold shortest at hzero ⊢
  split
  next => exact Int.le_refl 0
  next hx =>
    rw [if_neg hx] at hzero
    exact RoundingInterval.coarsest_exponent (lower_pos hx) hzero

end Binary64

/-- **A finite number is written as a numeral of JSON**, in every style. -/
theorem Style.isNumeral_finite (s : Style) (x : Binary64) :
    Json.IsNumeral (s.finite x).toList := by
  have hsign : (if x.negative then ['-'] else []) ∈ [[], ['-']] := by
    split <;> simp
  rw [finite, String.toList_ofList]
  exact isNumeral_decimal s hsign Binary64.shortest_exponent

end Lexical
