/-!
# Places in a text, counted in bytes

Every position this library reports is an offset into the UTF-8 form of a text, because that
is what an editor or a file can seek to. Such an offset may fall inside a character or past
the end, so each reader below answers with an `Option`: a place is used only after it has
been found to lie between two characters.
-/

set_option autoImplicit false

namespace Lexical
namespace Text

/-- Whether byte offset `p` of `s` lies between two characters, or at either end. -/
def isBoundary (s : String) (p : Nat) : Bool := (⟨p⟩ : String.Pos.Raw).isValid s

/-- The character that starts at byte offset `p`, or nothing where no character starts. -/
def charAt? (s : String) (p : Nat) : Option Char :=
  if h : (⟨p⟩ : String.Pos.Raw).IsValid s then (s.pos ⟨p⟩ h).get? else none

/-- The byte at offset `p`, or nothing past the end. -/
def byteAt? (s : String) (p : Nat) : Option UInt8 :=
  if h : (⟨p⟩ : String.Pos.Raw) < s.rawEndPos then some (s.getUTF8Byte ⟨p⟩ h) else none

/-- Whether the `n` bytes from offset `p` on all exist and are all ASCII. -/
def asciiRun (s : String) (p : Nat) : Nat → Bool
  | 0 => true
  | n + 1 => (byteAt? s p).any (· < 128) && asciiRun s (p + 1) n

/-- The character `n` characters past byte offset `p`, counted by reading the ones between. -/
def nthChar? (s : String) (p : Nat) : Nat → Option Char
  | 0 => charAt? s p
  | n + 1 => (charAt? s p).bind fun c => nthChar? s (p + c.utf8Size) n

/-- The text between two byte offsets. Both have to be boundaries of `s` and in order; a
text is never cut inside a character. -/
def slice? (s : String) (start stop : Nat) : Option String :=
  if h : start ≤ stop ∧ (⟨start⟩ : String.Pos.Raw).IsValid s ∧
      (⟨stop⟩ : String.Pos.Raw).IsValid s then
    some (s.extract (s.pos ⟨start⟩ h.2.1) (s.pos ⟨stop⟩ h.2.2))
  else none

/-! ## The readers, said without bytes

An offset that lies between two characters splits the text in two, and the two parts are what
a reader sees. From here on nothing needs to look at the encoding again. -/

theorem isValid_append (before after : String) :
    (⟨before.utf8ByteSize⟩ : String.Pos.Raw).IsValid (before ++ after) := by
  rw [String.Pos.Raw.isValid_iff_exists_append]
  exact ⟨before, after, rfl, rfl⟩

theorem isBoundary_iff {s : String} {p : Nat} :
    isBoundary s p = true ↔ ∃ before after, s = before ++ after ∧ before.utf8ByteSize = p := by
  unfold isBoundary
  rw [String.Pos.Raw.isValid_eq_true_iff, String.Pos.Raw.isValid_iff_exists_append]
  constructor
  · rintro ⟨before, after, h, hp⟩
    exact ⟨before, after, h, congrArg String.Pos.Raw.byteIdx hp.symm⟩
  · rintro ⟨before, after, h, rfl⟩
    exact ⟨before, after, h, rfl⟩

theorem charAt?_append (before after : String) :
    charAt? (before ++ after) before.utf8ByteSize = after.toList.head? := by
  unfold charAt?
  rw [dif_pos (isValid_append before after)]
  generalize hp : (before ++ after).pos ⟨before.utf8ByteSize⟩ (isValid_append before after) = p
  have hs : p.Splits before after := ⟨rfl, by rw [← hp]; rfl⟩
  by_cases hend : p = (before ++ after).endPos
  · have hempty : after = "" := hs.eq_endPos_iff.1 hend
    rw [String.Pos.get?_eq_none hend, hempty]
    rfl
  · have hhead := congrArg (fun t => t.toList.head?) (hs.eq_right (p.splits_next_right hend))
    rw [String.Pos.get?_eq_some_get hend]
    simpa using hhead.symm

/-- Between two characters there is always a next one, except at the end. -/
theorem charAt?_eq_none_iff {s : String} {p : Nat} (h : isBoundary s p = true) :
    charAt? s p = none ↔ p = s.utf8ByteSize := by
  obtain ⟨before, after, rfl, rfl⟩ := isBoundary_iff.1 h
  rw [charAt?_append, List.head?_eq_none_iff, String.toList_eq_nil_iff,
    String.utf8ByteSize_append, ← String.utf8ByteSize_eq_zero_iff]
  omega

theorem slice?_append (a b c : String) :
    slice? (a ++ b ++ c) a.utf8ByteSize (a ++ b).utf8ByteSize = some b := by
  have ha : (⟨a.utf8ByteSize⟩ : String.Pos.Raw).IsValid (a ++ b ++ c) := by
    rw [String.append_assoc]
    exact isValid_append a (b ++ c)
  have hb : (⟨(a ++ b).utf8ByteSize⟩ : String.Pos.Raw).IsValid (a ++ b ++ c) :=
    isValid_append (a ++ b) c
  unfold slice?
  rw [dif_pos ⟨by simp, ha, hb⟩]
  congr 1
  apply String.toByteArray_inj.1
  rw [String.toByteArray_extract]
  show (a ++ b ++ c).toByteArray.extract a.utf8ByteSize (a ++ b).utf8ByteSize = b.toByteArray
  have hpast :=
    @ByteArray.extract_append_size_add a.toByteArray (b ++ c).toByteArray 0 b.utf8ByteSize
  have hfirst := @ByteArray.extract_append_size_left b.toByteArray c.toByteArray 0
  rw [String.append_assoc, String.toByteArray_append, String.utf8ByteSize_append]
  refine hpast.trans ?_
  rw [String.toByteArray_append]
  exact hfirst.trans ByteArray.extract_zero_size

theorem exists_between {s : String} {start stop : Nat} (hle : start ≤ stop)
    (hs : (⟨start⟩ : String.Pos.Raw).IsValid s) (he : (⟨stop⟩ : String.Pos.Raw).IsValid s) :
    ∃ before t after, s = before ++ t ++ after ∧ before.utf8ByteSize = start ∧
      (before ++ t).utf8ByteSize = stop := by
  obtain ⟨before, rest, hb, hstart⟩ := String.Pos.Raw.isValid_iff_exists_append.1 hs
  obtain ⟨upTo, after, ha, hstop⟩ := String.Pos.Raw.isValid_iff_exists_append.1 he
  have hp : (s.pos ⟨start⟩ hs).Splits before rest := ⟨hb, hstart⟩
  have hq : (s.pos ⟨stop⟩ he).Splits upTo after := ⟨ha, hstop⟩
  obtain ⟨t, rfl, -⟩ := (hp.le_iff_exists_eq_append hq).1 hle
  exact ⟨before, t, after, ha, congrArg String.Pos.Raw.byteIdx hstart.symm,
    congrArg String.Pos.Raw.byteIdx hstop.symm⟩

/-- A text is found between two offsets exactly if it stands there. -/
theorem slice?_eq_some_iff {s t : String} {start stop : Nat} :
    slice? s start stop = some t ↔
      ∃ before after, s = before ++ t ++ after ∧ before.utf8ByteSize = start ∧
        (before ++ t).utf8ByteSize = stop := by
  constructor
  · intro h
    have hsome := h
    unfold slice? at hsome
    split at hsome
    case isFalse => cases hsome
    case isTrue hplace =>
      obtain ⟨before, u, after, rfl, rfl, rfl⟩ := exists_between hplace.1 hplace.2.1 hplace.2.2
      rw [slice?_append, Option.some.injEq] at h
      exact ⟨before, after, by rw [h], rfl, by rw [h]⟩
  · rintro ⟨before, after, rfl, rfl, rfl⟩
    exact slice?_append before t after

/-- Nothing is found only where an offset is not a boundary or the two are out of order. -/
theorem isSome_slice?_iff {s : String} {start stop : Nat} :
    (slice? s start stop).isSome ↔
      start ≤ stop ∧ isBoundary s start = true ∧ isBoundary s stop = true := by
  unfold isBoundary
  rw [String.Pos.Raw.isValid_eq_true_iff, String.Pos.Raw.isValid_eq_true_iff]
  unfold slice?
  split
  case isTrue h => simp [h]
  case isFalse h => simp [h]

end Text
end Lexical
