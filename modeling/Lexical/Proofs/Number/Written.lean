import Lexical.Proofs.Json.Numeral
import Lexical.Proofs.Number.Numeral
import Mathlib.Data.List.DropRight

/-!
# What a written number denotes

A number is written with a sign, a numeral and an exponent, of which only the numeral is always there.
`decimalValue` is the rational that such a text denotes without its sign, and `significantDigits` are
the digits it takes: those of the numeral from the first that is not zero to the last. Neither knows how
the text was made.

A decimal is written plain or with an exponent. Either way its numeral is the row of the decimal's
digits, with zeros around it and a point somewhere in it (`Spells`), so the text denotes the decimal and
takes no other digits than the decimal's own (`Writes`).
-/

set_option autoImplicit false

namespace Lexical

open Text

/-! ## Reading -/

def isExponentMark (c : Char) : Bool := c = 'e' || c = 'E'

def isNegated (text : List Char) : Bool := text.head? = some '-'

/-- A text without its minus sign. -/
def unsigned : List Char → List Char
  | '-' :: text => text
  | text => text

/-- The numeral of a text: what stands before the exponent. -/
def mantissa (text : List Char) : List Char := (unsigned text).takeWhile fun c => !isExponentMark c

/-- The number behind an exponent's mark. -/
def exponentValue : List Char → Int
  | '-' :: ds => -(rowValue ds : Int)
  | '+' :: ds => rowValue ds
  | ds => rowValue ds

/-- The rational that a text denotes, its sign aside. -/
def decimalValue (text : List Char) : Rat :=
  numeralValue (mantissa text) *
    10 ^ exponentValue ((unsigned text).dropWhile fun c => !isExponentMark c).tail

/-- The digits of a text without the zeros before the first other digit and after the last one. -/
def significantDigits (text : List Char) : List Char :=
  (((mantissa text).filter Char.isDigit).dropWhile (· = '0')).rdropWhile (· = '0')

/-- A numeral is a row of digits with zeros around it, and counts what the row does with its point moved
so many places to the right. -/
structure Spells (text ds : List Char) (shift : Int) : Prop where
  shape : IsNumber text
  row : ∃ a b, text.filter Char.isDigit = List.replicate a '0' ++ ds ++ List.replicate b '0'
  value : numeralValue text = rowValue ds * 10 ^ shift

/-- A text is a decimal with a sign, in no other digits than its own. -/
structure Writes (text : List Char) (negative : Bool) (d : Decimal) : Prop where
  isNegated_eq : isNegated text = negative
  decimalValue_eq : decimalValue text = d.toRat
  row : ∃ a b, (mantissa text).filter Char.isDigit =
    List.replicate a '0' ++ Style.digits d.coefficient ++ List.replicate b '0'

variable {text ds whole fraction sign exponent : List Char} {negative : Bool} {d : Decimal}
  {shift : Int} {a b n : Nat}

/-! ## The parts of a text -/

theorem not_isExponentMark (h : IsNumber text) : ∀ c ∈ text, (!isExponentMark c) = true := by
  intro c hc
  rw [Bool.not_eq_true', isExponentMark, ← Bool.not_eq_true, Bool.or_eq_true, decide_eq_true_iff,
    decide_eq_true_iff]
  rintro (rfl | rfl)
  · exact absurd (isDigit_or_point_of_mem h hc) (by decide)
  · exact absurd (isDigit_or_point_of_mem h hc) (by decide)

/-- A minus sign is not part of the text behind it. -/
theorem unsigned_append (hsign : sign ∈ [[], ['-']]) (htext : IsNumber text) (exponent : List Char) :
    unsigned (sign ++ (text ++ exponent)) = text ++ exponent ∧
      isNegated (sign ++ (text ++ exponent)) = decide (sign = ['-']) := by
  obtain ⟨c, rest, rfl, hc⟩ := exists_cons_of_isNumber htext
  have hne : c ≠ '-' := by
    rintro rfl
    exact absurd hc (by decide)
  rcases List.mem_pair.mp hsign with rfl | rfl
  · constructor
    · rw [List.nil_append, List.cons_append, unsigned]
      exact fun _ heq => hne (List.cons.inj heq).1
    · simpa [isNegated] using hne
  · exact ⟨rfl, rfl⟩

/-- The numeral and the exponent of a text are found where they are. -/
theorem decimalValue_append (hsign : sign ∈ [[], ['-']]) (htext : IsNumber text)
    (hexponent : Stops (fun c => !isExponentMark c) exponent) :
    mantissa (sign ++ (text ++ exponent)) = text ∧
      decimalValue (sign ++ (text ++ exponent)) =
        numeralValue text * 10 ^ exponentValue exponent.tail := by
  have hunsigned := (unsigned_append hsign htext exponent).1
  have hmantissa : mantissa (sign ++ (text ++ exponent)) = text := by
    rw [mantissa, hunsigned, takeWhile_run (not_isExponentMark htext) hexponent]
  refine ⟨hmantissa, ?_⟩
  rw [decimalValue, hmantissa, hunsigned, dropWhile_run (not_isExponentMark htext) hexponent]

/-! ## Rows of digits -/

theorem rowValue_digits (n : Nat) : rowValue (Style.digits n) = n := by
  rw [← ofDigits_eq (Style.isDigits_digits n).2]
  exact Nat.ofDigitChars_toDigits (by decide) (by decide)

theorem rowValue_zeros (n : Nat) : rowValue (List.replicate n '0') = 0 := by
  induction n with
  | zero => rfl
  | succ n ih =>
    have hzero : unitsOf '0' = 0 := rfl
    rw [List.replicate_succ, rowValue, ih, hzero, Nat.zero_mul]

theorem filter_isDigit (h : IsDigits ds) : ds.filter Char.isDigit = ds :=
  List.filter_eq_self.mpr h.2

theorem spells_digits (h : IsDigits ds) : Spells ds ds 0 where
  shape := .inl h
  row := ⟨0, 0, by simp [filter_isDigit h]⟩
  value := by rw [numeralValue_digits h, zpow_zero, mul_one]

/-- A point somewhere in a row of digits, which may have zeros around it. -/
theorem spells_point (hwhole : IsDigits whole) (hfraction : IsDigits fraction)
    (hrow : whole ++ fraction = List.replicate a '0' ++ ds ++ List.replicate b '0')
    (hshift : shift = b - fraction.length) : Spells (whole ++ '.' :: fraction) ds shift where
  shape := .inr ⟨whole, fraction, rfl, hwhole, hfraction⟩
  row := by
    refine ⟨a, b, ?_⟩
    rw [List.filter_append, List.filter_cons_of_neg (by decide), filter_isDigit hwhole,
      filter_isDigit hfraction, hrow]
  value := by
    rw [numeralValue_point hwhole, hrow, rowValue_append, rowValue_append, rowValue_zeros,
      rowValue_zeros, List.length_replicate, hshift, zpow_sub₀ (by norm_num), zpow_natCast, zpow_natCast]
    push_cast
    ring

theorem exponentValue_digits (h : IsDigits ds) : exponentValue ds = rowValue ds := by
  unfold exponentValue
  split
  next => exact absurd (h.2 '-' List.mem_cons_self) (by decide)
  next => exact absurd (h.2 '+' List.mem_cons_self) (by decide)
  next => rfl

/-! ## The two forms -/

namespace Style

theorem spells_plain (hds : IsDigits ds) (point : Int) :
    Spells (plain ds point) ds (point - ds.length) := by
  have hzero : IsDigits ['0'] := by decide
  unfold plain
  split
  next hsmall =>
    have hfraction := hds.zeros_append (-point).toNat
    have hshift : point - ds.length =
        ((0 : Nat) : Int) - (List.replicate (-point).toNat '0' ++ ds).length := by
      rw [List.length_append, List.length_replicate]
      omega
    exact spells_point (a := (-point).toNat + 1) hzero hfraction (by simp [List.replicate_succ]) hshift
  next hpositive =>
  split
  next hlong =>
    have hwhole := hds.append_zeros (point - ds.length).toNat
    refine spells_point (a := 0) (b := (point - ds.length).toNat + 1) hwhole hzero ?_ ?_
    · simp [List.replicate_succ']
    · rw [List.length_singleton]
      omega
  next hshort =>
    have htake : IsDigits (ds.take point.toNat) :=
      hds.subset (List.take_subset _ _) (by simp [hds.1]; omega)
    have hdrop : IsDigits (ds.drop point.toNat) :=
      hds.subset (List.drop_subset _ _) (by simp; omega)
    refine spells_point (a := 0) (b := 0) htake hdrop ?_ ?_
    · simp
    · rw [List.length_drop]
      omega

theorem spells_scientific (s : Style) (hds : IsDigits ds) (e : Int) :
    ∃ numeral, s.scientific ds e = numeral ++ s.exponentPart e ∧
      Spells numeral ds (1 - ds.length) := by
  obtain ⟨d, rest, rfl⟩ := List.exists_cons_of_ne_nil hds.1
  cases rest with
  | nil => exact ⟨[d], rfl, spells_digits hds⟩
  | cons c rest =>
    have hhead : IsDigits [d] := hds.subset (by simp) (List.cons_ne_nil d [])
    have hrest : IsDigits (c :: rest) := hds.subset (by simp) (List.cons_ne_nil c rest)
    refine ⟨[d] ++ '.' :: c :: rest, by simp [scientific], ?_⟩
    refine spells_point (a := 0) (b := 0) hhead hrest ?_ ?_
    · simp
    · simp

theorem exponentValue_exponentPart (s : Style) (e : Int) : exponentValue (s.exponentPart e).tail = e := by
  have hvalue := rowValue_digits e.natAbs
  have htail : (s.exponentPart e).tail =
    (if e < 0 then ['-'] else if s.plusSign then ['+'] else []) ++ digits e.natAbs := rfl
  rw [htail]
  split
  next hnegative =>
    rw [List.singleton_append, exponentValue, hvalue]
    omega
  next hpositive =>
  split
  next =>
    rw [List.singleton_append, exponentValue, hvalue]
    omega
  next =>
    rw [List.nil_append, exponentValue_digits (isDigits_digits _), hvalue]
    omega

/-! ## A decimal -/

/-- A numeral in a decimal's digits denotes the decimal if its point and the exponent are right. -/
theorem writes_of_spells (hsign : sign ∈ [[], ['-']]) {numeral : List Char}
    (hspells : Spells numeral (digits d.coefficient) shift)
    (hexponent : Stops (fun c => !isExponentMark c) exponent)
    (hshift : shift + exponentValue exponent.tail = d.exponent) :
    Writes (sign ++ (numeral ++ exponent)) (decide (sign = ['-'])) d where
  isNegated_eq := (unsigned_append hsign hspells.shape exponent).2
  decimalValue_eq := by
    rw [(decimalValue_append hsign hspells.shape hexponent).2, hspells.value, rowValue_digits, mul_assoc,
      ← zpow_add₀ (by norm_num), hshift, Decimal.toRat]
  row := by
    rw [(decimalValue_append hsign hspells.shape hexponent).1]
    exact hspells.row

/-- **A decimal is written as a text that denotes it**, after a sign. -/
theorem writes_decimal (s : Style) (hsign : sign ∈ [[], ['-']]) (d : Decimal) :
    Writes (sign ++ s.decimal d) (decide (sign = ['-'])) d := by
  have hds := isDigits_digits d.coefficient
  simp only [decimal]
  generalize hpoint : ((digits d.coefficient).length : Int) + d.exponent = point
  split
  next =>
    have hnone : exponentValue ([] : List Char).tail = 0 := rfl
    have hwrites := writes_of_spells hsign (spells_plain hds point) stops_nil (d := d) (by omega)
    rwa [List.append_nil] at hwrites
  next =>
    obtain ⟨numeral, htext, hspells⟩ := s.spells_scientific hds (point - 1)
    rw [htext]
    refine writes_of_spells hsign hspells (stops_cons.mpr rfl) ?_
    rw [exponentValue_exponentPart]
    omega

theorem writes_finite (s : Style) (x : Binary64) :
    Writes (s.finite x).toList x.negative (x.shortest s.tie) := by
  rw [finite, String.toList_ofList]
  cases x.negative with
  | false =>
    have hsign : ([] : List Char) ∈ [[], ['-']] := by simp
    exact s.writes_decimal hsign _
  | true =>
    have hsign : ['-'] ∈ [[], ['-']] := by simp
    exact s.writes_decimal hsign _

end Style

/-! ## How many digits -/

theorem Style.digits_bounds {n : Nat} (hn : n ≠ 0) :
    10 ^ ((digits n).length - 1) ≤ n ∧ n < 10 ^ (digits n).length := by
  have hlength : ∀ k, 0 < k → ((digits n).length ≤ k ↔ n < 10 ^ k) := fun k hk =>
    Nat.length_toDigits_le_iff (by decide) hk
  have hpositive : 0 < (digits n).length := Nat.length_toDigits_pos
  refine ⟨?_, (hlength _ hpositive).mp (Nat.le_refl _)⟩
  by_cases hone : (digits n).length = 1
  · rw [hone]
    exact Nat.pos_of_ne_zero hn
  · rw [← Nat.not_lt, ← hlength _ (by omega)]
    omega

/-- A decimal lies between the powers of ten on either side of its first digit. -/
theorem Decimal.toRat_bounds (hd : d.coefficient ≠ 0) {point : Int}
    (hpoint : point = (Style.digits d.coefficient).length + d.exponent) :
    10 ^ (point - 1) ≤ d.toRat ∧ d.toRat < 10 ^ point := by
  obtain ⟨hlow, hhigh⟩ := Style.digits_bounds hd
  have hpositive : 0 < (Style.digits d.coefficient).length := Nat.length_toDigits_pos
  have hten : (10 : Rat) ≠ 0 := by norm_num
  generalize (Style.digits d.coefficient).length = length at hlow hhigh hpositive hpoint
  have hbefore : (10 : Rat) ^ (point - 1) = 10 ^ (length - 1) * 10 ^ d.exponent := by
    rw [← zpow_natCast, ← zpow_add₀ hten]
    congr 1
    omega
  have hbehind : (10 : Rat) ^ point = 10 ^ length * 10 ^ d.exponent := by
    rw [← zpow_natCast, ← zpow_add₀ hten, hpoint]
  rw [hbefore, hbehind, toRat]
  constructor
  · gcongr
    exact_mod_cast hlow
  · gcongr
    exact_mod_cast hhigh

/-- What a decimal is written with has no more digits that count than the decimal. -/
theorem Writes.length_significantDigits_le (h : Writes text negative d) (hd : d.coefficient ≠ 0)
    (hn : d.coefficient < 10 ^ n) : (significantDigits text).length ≤ n := by
  obtain ⟨a, b, hrow⟩ := h.row
  have hzeros : ∀ k, ∀ c ∈ List.replicate k '0', decide (c = '0') = true := fun k c hc =>
    decide_eq_true (List.eq_of_mem_replicate hc)
  have hhead : Stops (fun c => decide (c = '0'))
      (Style.digits d.coefficient ++ List.replicate b '0') := by
    intro c hc
    rw [List.head?_append, Option.or_of_isSome
      (List.isSome_head?.mpr (Style.isDigits_digits d.coefficient).1)] at hc
    exact decide_eq_false fun heq => Style.head_digits hd (heq ▸ hc)
  have hsignificant : significantDigits text =
      ((Style.digits d.coefficient).reverse.dropWhile (· = '0')).reverse := by
    rw [significantDigits, hrow, List.append_assoc, dropWhile_run (hzeros a) hhead, List.rdropWhile,
      List.reverse_append, List.reverse_replicate, List.dropWhile_append_of_pos (hzeros b)]
  have hlength : (Style.digits d.coefficient).length ≤ n := by
    cases n with
    | zero => exact absurd (Nat.lt_one_iff.mp hn) hd
    | succ n => exact (Nat.length_toDigits_le_iff (by decide) (Nat.succ_pos n)).mpr hn
  rw [hsignificant, List.length_reverse]
  refine ((List.dropWhile_sublist _).length_le).trans ?_
  rwa [List.length_reverse]

example : significantDigits "-0.0506e+20".toList = ['5', '0', '6'] ∧
    significantDigits "1500.0".toList = ['1', '5'] := by
  decide

end Lexical
