import Lexical.Number.Nearest

/-!
# The words of numbers that were read

Whatever a numeral is, its value is the word of a number from zero up to infinity. Such a word has
no sign bit and is not above infinity's, so it is no NaN, and numbers that were read can be compared
as data.
-/

set_option autoImplicit false

namespace Lexical
namespace Binary64

theorem toNat_ofWord {n : Nat} (hn : n ≤ infinityWord) : (ofWord n).bits.toNat = n := by
  have hlt : n < 2 ^ 64 := Nat.lt_of_le_of_lt hn (by decide)
  exact UInt64.toNat_ofNat_of_lt' hlt

theorem magnitude_ofWord {n : Nat} (hn : n ≤ infinityWord) : (ofWord n).magnitude = n := by
  rw [magnitude, toNat_ofWord hn]
  exact Nat.mod_eq_of_lt (Nat.lt_of_le_of_lt hn (by decide))

theorem isNaN_ofWord {n : Nat} (hn : n ≤ infinityWord) : (ofWord n).isNaN = false := by
  rw [isNaN, magnitude_ofWord hn]
  exact decide_eq_false (Nat.not_lt.mpr hn)

theorem exists_word_nearest (d : Decimal) : ∃ n, n ≤ infinityWord ∧ nearest d = ofWord n := by
  unfold nearest ofFraction
  split
  · exact ⟨0, Nat.zero_le _, rfl⟩
  · simp only
    split
    next hfinite => exact ⟨_, Nat.le_of_lt hfinite, rfl⟩
    next => exact ⟨infinityWord, Nat.le_refl _, rfl⟩

theorem isNaN_nearest (d : Decimal) : (nearest d).isNaN = false := by
  obtain ⟨n, hn, hword⟩ := exists_word_nearest d
  rw [hword, isNaN_ofWord hn]

theorem equal_self {x : Binary64} (hx : x.isNaN = false) : x.equal x = true := by
  simp [equal, hx]

end Binary64
end Lexical
