import Lexical.Proofs.Text.Line

/-!
# Places between characters, told by the bytes

For the readers of a text an offset is a boundary where the text comes apart into two texts. Whoever
has nothing but the bytes needs another test, and UTF-8 is made so that one byte is enough for it: a
character is one byte that starts it and tails behind that, so an offset lies inside a character
exactly where a tail stands (`BetweenCharacters`). A character of two, three or four bytes makes no
difference, and neither does what stands around it.

The two tests agree on every text and every offset (`isBoundary_iff_betweenCharacters`). With that, what
is cut out of a text is a row of its bytes (`bytes_of_slice?`), and whether anything is cut out can be
told without cutting (`isSome_slice?_iff_encloses`).
-/

set_option autoImplicit false

namespace Lexical
namespace Text

/-- An offset at which a text can be cut: it is not past the end, and the byte that stands there, if
there is one, goes on with no character. -/
structure BetweenCharacters (text : List UInt8) (p : Nat) : Prop where
  within : p ≤ text.length
  not_tail : ∀ b ∈ text[p]?, isTail b = false

/-- Two offsets that take a part out of a text. -/
structure Encloses (source : String) (start stop : Nat) : Prop where
  ordered : start ≤ stop
  within : stop ≤ source.utf8ByteSize
  opens : BetweenCharacters (bytes source) start
  closes : BetweenCharacters (bytes source) stop

/-! ## Where characters start -/

theorem betweenCharacters_start (s : String) : BetweenCharacters (bytes s) 0 := by
  refine ⟨Nat.zero_le _, ?_⟩
  rw [← String.ofList_toList (s := s)]
  cases s.toList with
  | nil =>
    intro b hb
    cases hb
  | cons c rest =>
    obtain ⟨tail, hencoding, hfirst, -⟩ := encoding_eq_cons c
    rw [bytes_cons, hencoding]
    simpa using hfirst

theorem betweenCharacters_end (s : String) : BetweenCharacters (bytes s) s.utf8ByteSize := by
  refine ⟨Nat.le_refl _, ?_⟩
  rw [← length_bytes, List.getElem?_eq_none (Nat.le_refl _)]
  intro b hb
  cases hb

/-- What stands in front of a text moves its offsets and changes nothing else. -/
theorem betweenCharacters_behind {front back : List UInt8} {p : Nat} :
    BetweenCharacters (front ++ back) (front.length + p) ↔ BetweenCharacters back p := by
  have hbyte : (front ++ back)[front.length + p]? = back[p]? := by
    rw [List.getElem?_append_right (Nat.le_add_right _ _), Nat.add_sub_cancel_left]
  constructor
  · rintro ⟨hle, htail⟩
    rw [List.length_append] at hle
    rw [hbyte] at htail
    exact ⟨Nat.le_of_add_le_add_left hle, htail⟩
  · rintro ⟨hle, htail⟩
    refine ⟨?_, by rwa [hbyte]⟩
    rw [List.length_append]
    exact Nat.add_le_add_left hle _

/-- Behind the first byte of a character and before the next character there are only tails. -/
theorem not_betweenCharacters_inside {c : Char} {rest : List UInt8} {p : Nat} (hpos : p ≠ 0)
    (hlt : p < c.utf8Size) : ¬ BetweenCharacters (String.utf8EncodeChar c ++ rest) p := by
  intro h
  obtain ⟨tail, hencoding, -, htail⟩ := encoding_eq_cons c
  rw [← String.length_utf8EncodeChar, hencoding, List.length_cons] at hlt
  obtain ⟨k, rfl⟩ := Nat.exists_eq_succ_of_ne_zero hpos
  have hk : k < tail.length := Nat.lt_of_succ_lt_succ hlt
  have hbyte : (String.utf8EncodeChar c ++ rest)[k + 1]? = some tail[k] := by
    rw [hencoding, List.cons_append, List.getElem?_cons_succ, List.getElem?_append_left hk,
      List.getElem?_eq_getElem hk]
  have hstarts := h.not_tail _ hbyte
  rw [htail _ (List.getElem_mem hk)] at hstarts
  cases hstarts

/-- **Where the bytes can be cut, the characters can.** -/
theorem exists_of_betweenCharacters {cs : List Char} {p : Nat}
    (h : BetweenCharacters (bytes (String.ofList cs)) p) :
    ∃ before after, cs = before ++ after ∧ width before = p := by
  induction cs generalizing p with
  | nil => exact ⟨[], [], rfl, (Nat.le_zero.mp h.within).symm⟩
  | cons c cs ih =>
    by_cases hp : p = 0
    · exact ⟨[], c :: cs, rfl, hp.symm⟩
    · rw [bytes_cons] at h
      have hbehind : c.utf8Size ≤ p :=
        Nat.le_of_not_lt fun hlt => not_betweenCharacters_inside hp hlt h
      obtain ⟨q, rfl⟩ := Nat.exists_eq_add_of_le hbehind
      rw [← String.length_utf8EncodeChar, betweenCharacters_behind] at h
      obtain ⟨before, after, rfl, rfl⟩ := ih h
      exact ⟨c :: before, after, rfl, rfl⟩

theorem isBoundary_iff_betweenCharacters {s : String} {p : Nat} :
    isBoundary s p = true ↔ BetweenCharacters (bytes s) p := by
  constructor
  · intro h
    obtain ⟨before, after, rfl, rfl⟩ := isBoundary_iff.mp h
    rw [bytes_append, ← length_bytes]
    exact betweenCharacters_behind.mpr (betweenCharacters_start after)
  · intro h
    rw [← String.ofList_toList (s := s)] at h ⊢
    obtain ⟨before, after, hsource, rfl⟩ := exists_of_betweenCharacters h
    rw [hsource]
    exact isBoundary_width before after

/-! ## What is cut out -/

theorem isSome_slice?_iff_encloses {s : String} {start stop : Nat} :
    (slice? s start stop).isSome ↔ Encloses s start stop := by
  rw [isSome_slice?_iff, isBoundary_iff_betweenCharacters, isBoundary_iff_betweenCharacters]
  constructor
  · rintro ⟨hle, hstart, hstop⟩
    exact ⟨hle, hstop.within, hstart, hstop⟩
  · rintro ⟨hle, -, hstart, hstop⟩
    exact ⟨hle, hstart, hstop⟩

theorem Encloses.exists_slice? {s : String} {start stop : Nat} (h : Encloses s start stop) :
    ∃ text, slice? s start stop = some text :=
  Option.isSome_iff_exists.mp (isSome_slice?_iff_encloses.mpr h)

theorem slice?_eq_none_iff {s : String} {start stop : Nat} :
    slice? s start stop = none ↔ ¬ Encloses s start stop := by
  rw [← isSome_slice?_iff_encloses, Bool.not_eq_true, Option.isSome_eq_false_iff,
    Option.isNone_iff_eq_none]

theorem bytes_of_slice? {s text : String} {start stop : Nat} (h : slice? s start stop = some text) :
    bytes text = (bytes s).extract start stop := by
  obtain ⟨before, after, rfl, rfl, rfl⟩ := slice?_eq_some_iff.mp h
  rw [← length_bytes, ← length_bytes, bytes_append, bytes_append, List.append_assoc,
    List.length_append, List.extract_eq_take_drop, List.drop_left, Nat.add_sub_cancel_left,
    List.take_left]

/-- What is cut out, and behind it what stands behind its end, are all that stands from its start on. -/
theorem bytes_append_of_slice? {s text : String} {start stop : Nat}
    (h : slice? s start stop = some text) :
    bytes text ++ (bytes s).drop stop = (bytes s).drop start := by
  obtain ⟨before, after, rfl, rfl, rfl⟩ := slice?_eq_some_iff.mp h
  have hstop : (bytes (before ++ text ++ after)).drop (before ++ text).utf8ByteSize =
      bytes after := by
    rw [bytes_append, ← length_bytes, List.drop_left]
  have hstart : (bytes (before ++ text ++ after)).drop before.utf8ByteSize =
      bytes text ++ bytes after := by
    rw [String.append_assoc, bytes_append, ← length_bytes, List.drop_left, bytes_append]
  rw [hstop, hstart]

theorem size_of_slice? {s text : String} {start stop : Nat} (h : slice? s start stop = some text) :
    text.utf8ByteSize = stop - start := by
  obtain ⟨before, after, -, rfl, rfl⟩ := slice?_eq_some_iff.mp h
  rw [String.utf8ByteSize_append, Nat.add_sub_cancel_left]

end Text
end Lexical
