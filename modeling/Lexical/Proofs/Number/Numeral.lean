import Lexical.Proofs.Grammar.Rules
import Lexical.Proofs.Number.Nearest
import Lexical.Proofs.Scan.Piece
import Mathlib.Tactic.FieldSimp

/-!
# What a numeral denotes

A digit counts by its place: before the point for as many tens as there are digits behind it, and
behind the point for a tenth of what it would count one place further to the left. `numeralValue` is
the rational that a numeral denotes, said in that way. Nothing of it is taken from the reader of the
library, which computes the value of a digit from its code point, goes through all digits from left to
right and counts the places behind the point apart (`Decimal.read?`). That it comes to the same
rational is `read?_of_isNumber`, and with it the value of a number token is the rounded value of its
text (`rounds_numberLiteral`).
-/

set_option autoImplicit false

namespace Lexical

open CharClass Text

def tenDigits : List Char := ['0', '1', '2', '3', '4', '5', '6', '7', '8', '9']

/-- What a digit counts by itself: its place among the ten. -/
def unitsOf (d : Char) : Nat := tenDigits.idxOf d

/-- What a row of digits counts before the point. -/
def rowValue : List Char → Nat
  | [] => 0
  | d :: ds => unitsOf d * 10 ^ ds.length + rowValue ds

/-- What a row of digits counts behind the point. -/
def fractionValue : List Char → Rat
  | [] => 0
  | d :: ds => (unitsOf d + fractionValue ds) / 10

/-- The rational that a numeral denotes. -/
def numeralValue (text : List Char) : Rat :=
  rowValue (text.takeWhile (· ≠ '.')) + fractionValue (text.dropWhile (· ≠ '.')).tail

variable {text whole fraction ds : List Char}

/-! ## Rows of digits -/

/-- A digit's place among the ten is how far its code point is from that of zero. -/
theorem digitValue_eq {d : Char} (hd : d.isDigit = true) : Decimal.digitValue d = unitsOf d := by
  have hall : ∀ n ∈ List.range 10, n = unitsOf (Char.ofNat ('0'.toNat + n)) := by decide
  have hnine : '9'.toNat = '0'.toNat + 9 := rfl
  obtain ⟨hzero, hle⟩ := Char.isDigit_iff_toNat.mp hd
  have hplace := hall (d.toNat - '0'.toNat) (List.mem_range.mpr (by omega))
  rwa [Nat.add_sub_cancel' hzero, Char.ofNat_toNat] at hplace

theorem rowValue_append (ds ds' : List Char) :
    rowValue (ds ++ ds') = rowValue ds * 10 ^ ds'.length + rowValue ds' := by
  induction ds with
  | nil => simp [rowValue]
  | cons d ds ih =>
    rw [List.cons_append, rowValue, rowValue, ih, List.length_append]
    ring

/-- Reading from the left comes to the same number. -/
theorem ofDigits_eq (hds : ∀ d ∈ ds, d.isDigit = true) : Decimal.ofDigits ds = rowValue ds := by
  have hfrom : ∀ n, ds.foldl (fun n c => 10 * n + Decimal.digitValue c) n =
      n * 10 ^ ds.length + rowValue ds := by
    induction ds with
    | nil => simp [rowValue]
    | cons d ds ih =>
      obtain ⟨hd, hds⟩ := List.forall_mem_cons.mp hds
      intro n
      rw [List.foldl_cons, ih hds, digitValue_eq hd, rowValue, List.length_cons]
      ring
  rw [Decimal.ofDigits, hfrom, Nat.zero_mul, Nat.zero_add]

theorem fractionValue_eq (ds : List Char) : fractionValue ds = rowValue ds / 10 ^ ds.length := by
  induction ds with
  | nil => simp [fractionValue, rowValue]
  | cons d ds ih =>
    rw [fractionValue, ih, rowValue, List.length_cons, pow_succ]
    push_cast
    field_simp

/-! ## Numerals -/

theorem IsDigits.ne_point (hds : IsDigits ds) : ∀ c ∈ ds, decide (c ≠ '.') = true := by
  intro c hc
  rw [decide_eq_true_iff]
  rintro rfl
  exact absurd (hds.2 '.' hc) (by decide)

theorem numeralValue_digits (hds : IsDigits ds) : numeralValue ds = rowValue ds := by
  have htake := takeWhile_run hds.ne_point stops_nil
  have hdrop := dropWhile_run hds.ne_point stops_nil
  rw [List.append_nil] at htake hdrop
  rw [numeralValue, htake, hdrop, List.tail_nil, fractionValue, add_zero]

theorem numeralValue_point (hwhole : IsDigits whole) (fraction : List Char) :
    numeralValue (whole ++ '.' :: fraction) =
      rowValue (whole ++ fraction) / 10 ^ fraction.length := by
  have hstop := stops_ne_cons '.' fraction
  rw [numeralValue, takeWhile_run hwhole.ne_point hstop, dropWhile_run hwhole.ne_point hstop,
    List.tail_cons, fractionValue_eq, rowValue_append]
  push_cast
  field_simp

theorem numeralValue_nonneg (text : List Char) : 0 ≤ numeralValue text := by
  rw [numeralValue, fractionValue_eq]
  positivity

/-- **A numeral is read as the rational that it denotes.** -/
theorem read?_of_isNumber (h : IsNumber text) :
    ∃ d, Decimal.read? text = some d ∧ d.toRat = numeralValue text := by
  unfold Decimal.read?
  rcases h with hdigits | ⟨whole, fraction, rfl, hwhole, hfraction⟩
  · have hrun : ∀ c ∈ text, isDigit c = true := hdigits.2
    have htake := takeWhile_run hrun stops_nil
    have hdrop := dropWhile_run hrun stops_nil
    rw [List.append_nil] at htake hdrop
    rw [htake, hdrop]
    refine ⟨⟨Decimal.ofDigits text, 0⟩, if_neg (by simpa using hdigits.1), ?_⟩
    rw [numeralValue_digits hdigits, Decimal.toRat, ofDigits_eq hdigits.2, zpow_zero, mul_one]
  · have hrun : ∀ c ∈ whole, isDigit c = true := hwhole.2
    have hstop : Stops isDigit ('.' :: fraction) := stops_cons.mpr (by decide)
    have hall : ∀ d ∈ whole ++ fraction, d.isDigit = true :=
      List.forall_mem_append.mpr ⟨hwhole.2, hfraction.2⟩
    have hrow : (!fraction.isEmpty && fraction.all isDigit) = true := by
      rw [Bool.and_eq_true, Bool.not_eq_true', List.isEmpty_eq_false_iff, List.all_eq_true]
      exact hfraction
    rw [takeWhile_run hrun hstop, dropWhile_run hrun hstop]
    refine ⟨⟨Decimal.ofDigits (whole ++ fraction), -fraction.length⟩, ?_, ?_⟩
    · show (if whole.isEmpty then none else if _ then _ else none) = _
      rw [if_neg (by simpa using hwhole.1), if_pos hrow]
    · rw [numeralValue_point hwhole, Decimal.toRat, ofDigits_eq hall, zpow_neg, zpow_natCast,
        div_eq_mul_inv]

/-- **The value of a numeral as a token is what it denotes, rounded.** -/
theorem rounds_numberLiteral (h : IsNumber text) : ∃ x, Piece.numberLiteral text = some (.number x) ∧
    Binary64.RoundsTo false (numeralValue text) x := by
  obtain ⟨d, hread, hvalue⟩ := read?_of_isNumber h
  refine ⟨.nearest d, ?_, hvalue ▸ Binary64.nearest_rounds d⟩
  rw [Piece.numberLiteral, hread]
  rfl

end Lexical
