import Lexical.Proofs.Grammar.Literal
import Lexical.Proofs.Number.Grid
import Lexical.Proofs.Number.Written

/-!
# A number that is written is read back

Listings and JSON write a number in two styles, which part over ties and over when there is an exponent.
In both of them the text denotes a decimal that is rounded to the number again, with its sign, and no
decimal with fewer digits is (`ReadsBack`). Where a listing writes no exponent and no sign the text is
also a source, and scanning it gives the number as the value of one token.
-/

set_option autoImplicit false

namespace Lexical

open Binary64 Text

/-- A text denotes a decimal that is rounded to a number, a zero with its sign. If the number is not zero,
no decimal `c * 10 ^ k` with fewer digits than count in the text is rounded to it. -/
structure ReadsBack (text : List Char) (x : Binary64) : Prop where
  shape : Json.IsNumeral text
  rounds : RoundsTo (isNegated text) (decimalValue text) x
  fewest : x.magnitude ≠ 0 → ∀ (c n : Nat) (k : Int), c < 10 ^ n →
    RoundsTo x.negative (c * 10 ^ k) x → (significantDigits text).length ≤ n

variable {x : Binary64}

/-! ## Both styles -/

/-- **A finite number is read back from what it is written as**, in every style. -/
theorem Style.readsBack_finite (s : Style) (hx : x.isFinite = true) :
    ReadsBack (s.finite x).toList x := by
  have hwrites := s.writes_finite x
  constructor
  case shape => exact s.isNumeral_finite x
  case rounds =>
    rw [hwrites.isNegated_eq, hwrites.decimalValue_eq]
    exact rounds_shortest hx s.tie
  case fewest =>
    intro hzero c n k hc hrounds
    have hpoint := ((roundsTo_iff_within hx (by positivity)).mp hrounds).2
    exact hwrites.length_significantDigits_le (shortest_coefficient_ne_zero hzero s.tie)
      (shortest_fewest hzero s.tie hpoint hc)

/-! ## Without an exponent -/

/-- Ten to the sixteenth is a number itself. -/
theorem exists_wordValue_eq : ∃ n, wordValue n = 10 ^ 16 := by
  have hbinade := binade_eq
  refine ⟨1075 * binade + 5000000000000000, ?_⟩
  rw [wordValue_eq (by omega) (Or.inl (by omega))]
  norm_num

/-- **From `1 / 10 ^ 4` up to `10 ^ 16` the point is not far from the digits.** Both powers are read back
by themselves if the decimal lies on their other side, so the decimal would be one of them. -/
theorem point_shortest (hlow : 1 / 10 ^ 4 ≤ wordValue x.magnitude)
    (hhigh : wordValue x.magnitude < 10 ^ 16) (tie : Tie) {point : Int} (hpoint : point =
      (Style.digits (x.shortest tie).coefficient).length + (x.shortest tie).exponent) :
    -4 < point ∧ point ≤ 16 := by
  have hx : x.magnitude ≠ 0 := by
    intro hzero
    rw [hzero, wordValue_zero] at hlow
    norm_num at hlow
  obtain ⟨hfirst, hnext⟩ := Decimal.toRat_bounds (shortest_coefficient_ne_zero hx tie) hpoint
  have hshortest := within_shortest hx tie
  have hword := within_wordValue x.magnitude
  have hone : (1 : Rat) ≤ 10 := by norm_num
  constructor
  · by_contra hfar
    have hle : (10 : Rat) ^ point ≤ 10 ^ (-4 : Int) := zpow_le_zpow_right₀ hone (by omega)
    have hpower : Within ((1 : Nat) * 10 ^ (-4 : Int)) x.magnitude := by
      refine hshortest.convex hword ?_ ?_
      · rw [Nat.cast_one, one_mul]
        exact (le_of_lt hnext).trans hle
      · norm_num at hlow ⊢
        exact hlow
    have hexponent := le_shortest_exponent hx tie hpower
    have hpositive : 0 < (Style.digits (x.shortest tie).coefficient).length :=
      Nat.length_toDigits_pos
    omega
  · by_contra hfar
    obtain ⟨n, hn⟩ := exists_wordValue_eq
    have hle : (10 : Rat) ^ (16 : Int) ≤ 10 ^ (point - 1) := zpow_le_zpow_right₀ hone (by omega)
    have hpower : Within (10 ^ 16) x.magnitude :=
      hword.convex hshortest (le_of_lt hhigh) (hle.trans hfirst)
    have hitself : Within (10 ^ 16) n := hn ▸ within_wordValue n
    have hsame : x.magnitude = n :=
      Nat.le_antisymm (hpower.le_of_le hitself (le_refl _)) (hitself.le_of_le hpower (le_refl _))
    rw [hsame, hn] at hhigh
    exact lt_irrefl _ hhigh

/-! ## As a source -/

/-- **A numeral is a source with one token**, which has the number that its text is rounded to. -/
theorem tokenize_of_isNumber {text : List Char} (h : IsNumber text)
    (hx : RoundsTo false (numeralValue text) x) : tokenize (String.ofList text) = .ok
      { tokens := [.ofLexeme .number (String.ofList text) (some (.number x)) ⟨0, width text, 1⟩,
          .endOfSource (width text) 1]
        diagnostics := [] } := by
  have hbreak : text.count '\n' = 0 := by
    rw [List.count_eq_zero]
    intro hmem
    exact absurd (isDigit_or_point_of_mem h hmem) (by decide)
  have hfit : Cursor.LinesFit text := by
    rw [Cursor.LinesFit, hbreak]
    decide
  obtain ⟨y, hy, hrounds⟩ := rounds_numberLiteral h
  obtain rfl := hrounds.unique hx (numeralValue_nonneg text)
  have htoken := tokenize_of_rule (.number h) hfit
  rw [literalOf, hy, Cursor.lineAt, hbreak] at htoken
  exact htoken

/-- A number that is not negative, and neither very small nor very large unless it is zero, is listed as a
numeral. -/
theorem shown_numeral (hsign : x.negative = false)
    (hx : x.magnitude = 0 ∨ 1 / 10 ^ 4 ≤ wordValue x.magnitude ∧ wordValue x.magnitude < 10 ^ 16)
    (hfinite : x.isFinite = true) : ∃ text, IsNumber text ∧
      Style.shown x = String.ofList text ∧ RoundsTo false (numeralValue text) x := by
  have hnan : x.isNaN = false := isNaN_eq_false_iff.mpr (Nat.le_of_lt (isFinite_iff.mp hfinite))
  have hrounds := rounds_shortest hfinite .upward
  generalize hd : x.shortest .upward = d at hrounds
  generalize hpoint : ((Style.digits d.coefficient).length : Int) + d.exponent = point
  have hspells := Style.spells_plain (Style.isDigits_digits d.coefficient) point
  have hplain : d.coefficient = 0 ∨ (-4 < point ∧ point ≤ 16) := by
    rcases hx with hzero | ⟨hlow, hhigh⟩
    · rw [shortest, if_pos hzero] at hd
      exact .inl (hd ▸ rfl)
    · exact .inr (point_shortest hlow hhigh .upward (by rw [hd, hpoint]))
  refine ⟨Style.plain (Style.digits d.coefficient) point, hspells.shape, ?_, ?_⟩
  · have hdecimal : Style.listed.decimal d = Style.plain (Style.digits d.coefficient) point := by
      simp only [Style.decimal, hpoint]
      exact if_pos hplain
    rw [Style.shown, hnan, hfinite, Style.finite, hsign]
    simp only [Bool.false_eq_true, if_false, if_true, List.nil_append]
    rw [← hdecimal, ← hd]
    rfl
  · have hexponent : point - (Style.digits d.coefficient).length = d.exponent := by omega
    rw [hspells.value, rowValue_digits, hexponent, ← Decimal.toRat, ← hsign]
    exact hrounds

/-- The range in terms of sign and size. -/
theorem plain_of_range (h : x = .ofWord 0 ∨ 1 / 10 ^ 4 ≤ x.toRat ∧ x.toRat < 10 ^ 16) :
    x.negative = false ∧ (x.magnitude = 0 ∨
      1 / 10 ^ 4 ≤ wordValue x.magnitude ∧ wordValue x.magnitude < 10 ^ 16) := by
  rcases h with rfl | hbounds
  · exact ⟨negative_ofWord (Nat.zero_le _), .inl (magnitude_ofWord (Nat.zero_le _))⟩
  · have hsize := wordValue_nonneg x.magnitude
    rw [toRat, size_eq] at hbounds
    cases hsign : x.negative with
    | false =>
      rw [hsign] at hbounds
      exact ⟨rfl, .inr hbounds⟩
    | true =>
      rw [hsign, signed, if_pos rfl] at hbounds
      have hpositive : (0 : Rat) < 1 / 10 ^ 4 := by norm_num
      linarith [hbounds.1]

/-- **A finite number is read back from its listing and from its JSON**, and the listing of a number that
is not negative and neither very small nor very large is a source for it. -/
theorem finite_reads_back (hx : x.isFinite = true) :
    ReadsBack (Literal.number x).text.toList x ∧ ReadsBack (Literal.number x).toJson.text.toList x ∧
      (x = .ofWord 0 ∨ 1 / 10 ^ 4 ≤ x.toRat ∧ x.toRat < 10 ^ 16 →
        tokenize (Literal.number x).text = .ok
          { tokens := [.ofLexeme .number (Literal.number x).text (some (.number x))
                ⟨0, (Literal.number x).text.utf8ByteSize, 1⟩,
              .endOfSource (Literal.number x).text.utf8ByteSize 1]
            diagnostics := [] }) := by
  have hnan : x.isNaN = false := isNaN_eq_false_iff.mpr (Nat.le_of_lt (isFinite_iff.mp hx))
  refine ⟨?_, ?_, ?_⟩
  · have htext : (Literal.number x).text = Style.listed.finite x := by
      simp [Literal.text, Style.shown, hnan, hx]
    rw [htext]
    exact Style.listed.readsBack_finite hx
  · have htext : (Literal.number x).toJson.text = Style.serialized.finite x := by
      simp [Literal.toJson, toJson, hx, Json.text, Json.write]
    rw [htext]
    exact Style.serialized.readsBack_finite hx
  · intro hrange
    obtain ⟨hsign, hword⟩ := plain_of_range hrange
    obtain ⟨text, hnumeral, htext, hrounds⟩ := shown_numeral hsign hword hx
    have hshown : (Literal.number x).text = String.ofList text := htext
    rw [hshown, utf8ByteSize_ofList]
    exact tokenize_of_isNumber hnumeral hrounds

/-- A power of two, below which the numbers lie closer than above it. -/
theorem finite_reads_back_power_of_two :
    (⟨0x4340000000000000⟩ : Binary64).isFinite = true ∧
      ReadsBack "9007199254740992.0".toList ⟨0x4340000000000000⟩ ∧
      tokenize "9007199254740992.0" = .ok
        { tokens := [.ofLexeme .number "9007199254740992.0" (some (.number ⟨0x4340000000000000⟩))
              ⟨0, 18, 1⟩, .endOfSource 18 1]
          diagnostics := [] } := by
  have hfinite : (⟨0x4340000000000000⟩ : Binary64).isFinite = true := by decide +kernel
  have htext : (Literal.number ⟨0x4340000000000000⟩).text = "9007199254740992.0" := by decide +kernel
  have hvalue : (⟨0x4340000000000000⟩ : Binary64).toRat = 9007199254740992 := by
    have hsign : (⟨0x4340000000000000⟩ : Binary64).negative = false := by decide +kernel
    have hsignificand : (⟨0x4340000000000000⟩ : Binary64).significand = 4503599627370496 := by
      decide +kernel
    have hexponent : (⟨0x4340000000000000⟩ : Binary64).exponent = 1 := by decide +kernel
    rw [toRat, size, hsign, hsignificand, hexponent, signed]
    norm_num
  obtain ⟨hlisting, -, hsource⟩ := finite_reads_back hfinite
  rw [htext] at hlisting hsource
  refine ⟨hfinite, hlisting, hsource (.inr ?_)⟩
  rw [hvalue]
  norm_num

end Lexical
