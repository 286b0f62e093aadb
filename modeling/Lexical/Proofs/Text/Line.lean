import Lexical.Proofs.Cursor.Cut

/-!
# The line of a byte offset

Whoever has the bytes of a source and an offset can count lines without a scanner. `lineOf` is
that count, over bytes and for any offset. A cursor counts something else: it looks at the
characters it reads. The two counts agree wherever a cursor can stand (`lineOf_width`), because
the byte of a line break is not a byte of any other character.
-/

set_option autoImplicit false

namespace Lexical
namespace Text

open Cursor

/-- The UTF-8 form of a text. -/
def bytes (s : String) : List UInt8 := s.toByteArray.data.toList

/-- The line of a byte offset: one more than the line breaks in the bytes before it. -/
def lineOf (source : String) (offset : Nat) : Nat :=
  1 + ((bytes source).take offset).count 0x0a

theorem bytes_ofList (cs : List Char) :
    bytes (String.ofList cs) = cs.flatMap String.utf8EncodeChar := by
  rw [bytes, String.toByteArray_ofList, List.utf8Encode, List.data_toByteArray]

theorem bytes_cons (c : Char) (cs : List Char) :
    bytes (String.ofList (c :: cs)) = String.utf8EncodeChar c ++ bytes (String.ofList cs) := by
  rw [bytes_ofList, List.flatMap_cons, bytes_ofList]

theorem length_bytes (s : String) : (bytes s).length = s.utf8ByteSize := rfl

theorem bytes_append (s t : String) : bytes (s ++ t) = bytes s ++ bytes t := by
  rw [bytes, String.toByteArray_append, ByteArray.data_append, Array.toList_append, bytes, bytes]

/-- A character other than a line break has no byte of a line break in its encoding: a first byte
below 128 is the character itself, and no tail is below 128. -/
theorem not_mem_encoding {c : Char} (hc : c ≠ '\n') : 0x0a ∉ String.utf8EncodeChar c := by
  obtain ⟨tail, hencoding, -, htail⟩ := encoding_eq_cons c
  rw [hencoding, List.mem_cons]
  rintro (hfirst | hmem)
  · have hascii : c.toNat < 128 := by
      rw [← firstByte_lt_iff, ← hfirst]
      decide
    have hbreak := firstByte_ascii hascii
    rw [← hfirst] at hbreak
    exact hc hbreak.symm
  · have hbreak := htail _ hmem
    revert hbreak
    decide

theorem count_bytes (cs : List Char) :
    (bytes (String.ofList cs)).count 0x0a = cs.count '\n' := by
  induction cs with
  | nil => rfl
  | cons c cs ih =>
    rw [bytes_cons, List.count_append, ih]
    by_cases hc : c = '\n'
    · subst hc
      rw [List.count_cons_self, Nat.add_comm]
      rfl
    · rw [List.count_eq_zero.mpr (not_mem_encoding hc), List.count_cons_of_ne hc, Nat.zero_add]

/-- **A cursor counts the lines of its offset.** -/
theorem lineOf_width (before after : List Char) :
    lineOf (String.ofList (before ++ after)) (width before) = lineAt before := by
  rw [lineOf, lineAt, String.ofList_append, bytes_append, ← utf8ByteSize_ofList before,
    ← length_bytes, List.take_left, count_bytes]

end Text
end Lexical
