import Lexical.Text.Offset

/-!
# The readers of a text, at a seam

`Text/Offset.lean` says what the readers find between two *strings*. A scan is reasoned about
character by character, so here the same is said between two rows of characters: the source is
`String.ofList (before ++ after)`, the offset is `width before`, and what a reader sees is
`after`.

The one reader that has to open bytes is looking ahead. It has a fast path that indexes
bytes, and the path is right for one reason only: a character below 128 is one byte, and the
first byte of any other character is not below 128 (`firstByte_lt_iff`).
-/

set_option autoImplicit false

namespace Lexical
namespace Text

/-! ## How many bytes a row of characters takes -/

/-- The length of a row of characters in UTF-8. -/
def width : List Char → Nat
  | [] => 0
  | c :: cs => c.utf8Size + width cs

@[simp] theorem width_nil : width [] = 0 := rfl

@[simp] theorem width_cons (c : Char) (cs : List Char) :
    width (c :: cs) = c.utf8Size + width cs := rfl

@[simp] theorem width_append (cs ds : List Char) : width (cs ++ ds) = width cs + width ds := by
  induction cs with
  | nil => simp
  | cons c cs ih => rw [List.cons_append, width_cons, ih, width_cons, Nat.add_assoc]

theorem width_pos {cs : List Char} (h : cs ≠ []) : 0 < width cs := by
  cases cs with
  | nil => exact absurd rfl h
  | cons c cs =>
    have hc := c.utf8Size_pos
    rw [width_cons]
    omega

@[simp] theorem utf8ByteSize_ofList (cs : List Char) :
    (String.ofList cs).utf8ByteSize = width cs := by
  induction cs with
  | nil => rfl
  | cons c cs ih =>
    rw [String.ofList_cons, String.utf8ByteSize_append, ih, String.utf8ByteSize_singleton,
      width_cons]

/-- The width of the whole text is its length in bytes. -/
theorem width_toList (s : String) : width s.toList = s.utf8ByteSize := by
  rw [← utf8ByteSize_ofList, String.ofList_toList]

/-! ## Reading characters and cutting -/

theorem isBoundary_width (before after : List Char) :
    isBoundary (String.ofList (before ++ after)) (width before) = true := by
  rw [isBoundary_iff]
  exact ⟨String.ofList before, String.ofList after, String.ofList_append,
    utf8ByteSize_ofList before⟩

theorem charAt?_width (before after : List Char) :
    charAt? (String.ofList (before ++ after)) (width before) = after.head? := by
  have h := charAt?_append (String.ofList before) (String.ofList after)
  rwa [← String.ofList_append, utf8ByteSize_ofList, String.toList_ofList] at h

theorem slice?_width (a b c : List Char) :
    slice? (String.ofList (a ++ b ++ c)) (width a) (width (a ++ b)) = some (String.ofList b) := by
  have h := slice?_append (String.ofList a) (String.ofList b) (String.ofList c)
  rwa [← String.ofList_append, ← String.ofList_append, utf8ByteSize_ofList,
    utf8ByteSize_ofList] at h

/-- What is left from an offset on. -/
theorem slice?_width_end (a b : List Char) :
    slice? (String.ofList (a ++ b)) (width a) (width (a ++ b)) = some (String.ofList b) := by
  have h := slice?_width a b []
  rwa [List.append_nil] at h

theorem nthChar?_width (before after : List Char) (n : Nat) :
    nthChar? (String.ofList (before ++ after)) (width before) n = after[n]? := by
  induction n generalizing before after with
  | zero => rw [nthChar?, charAt?_width, List.head?_eq_getElem?]
  | succ n ih =>
    rw [nthChar?, charAt?_width]
    cases after with
    | nil => rfl
    | cons c rest =>
      have h := ih (before ++ [c]) rest
      simp only [List.append_assoc, List.singleton_append, width_append, width_cons, width_nil,
        Nat.add_zero] at h
      simpa using h

/-! ## The bytes of a character -/

theorem toNat_le (c : Char) : c.toNat ≤ 0x10ffff := by
  have hval : c.val.toNat = c.toNat := rfl
  have hvalid := c.valid
  simp only [UInt32.isValidChar, Nat.isValidChar] at hvalid
  omega

/-- The first byte of a character's UTF-8 form. -/
def firstByte (c : Char) : UInt8 := (String.utf8EncodeChar c).head (by simp)

/-- A byte that goes on with a character and starts none: of its bits the first is set and the
second is not. -/
def isTail (b : UInt8) : Bool := 0x80 ≤ b && b < 0xc0

theorem isTail_iff {b : UInt8} : isTail b = true ↔ 128 ≤ b.toNat ∧ b.toNat < 192 := by
  simp [isTail, UInt8.le_iff_toNat_le, UInt8.lt_iff_toNat_lt]

/-- A character is one byte that starts it and, behind that, tails. -/
theorem encoding_eq_cons (c : Char) : ∃ tail, String.utf8EncodeChar c = firstByte c :: tail ∧
    isTail (firstByte c) = false ∧ ∀ b ∈ tail, isTail b = true := by
  have hval : c.val.toNat = c.toNat := rfl
  have hle := toNat_le c
  simp only [firstByte, ← Bool.not_eq_true, isTail_iff, String.utf8EncodeChar]
  -- One case for each of the four lengths.
  split
  · refine ⟨_, rfl, ?_, ?_⟩ <;> simp; omega
  · split
    · refine ⟨_, rfl, ?_, ?_⟩ <;> simp <;> omega
    · split <;> refine ⟨_, rfl, ?_, ?_⟩ <;> simp <;> omega

theorem firstByte_lt_iff (c : Char) : firstByte c < 128 ↔ c.toNat < 128 := by
  have hc : c.val.toNat = c.toNat := rfl
  have hle := toNat_le c
  simp only [firstByte, String.utf8EncodeChar, UInt8.lt_iff_toNat_lt]
  split
  · simp; omega
  · split
    · simp; omega
    · split <;> simp <;> omega

theorem firstByte_ascii {c : Char} (h : c.toNat < 128) :
    Char.ofNat (firstByte c).toNat = c := by
  have hc : c.val.toNat = c.toNat := rfl
  have hb : (firstByte c).toNat = c.toNat := by
    simp only [firstByte, String.utf8EncodeChar]
    rw [List.head_eq_getElem]
    split
    · simp; omega
    · omega
  rw [hb, Char.ofNat_toNat]

theorem utf8Size_ascii {c : Char} (h : c.toNat < 128) : c.utf8Size = 1 := by
  rw [Char.utf8Size_eq_one_iff, UInt32.le_iff_toNat_le]
  exact Nat.le_of_lt_succ h

/-! ## The fast path of looking ahead -/

theorem byteAt?_cons (before : List Char) (c : Char) (rest : List Char) :
    byteAt? (String.ofList (before ++ c :: rest)) (width before) = some (firstByte c) := by
  have hsize : (⟨width before⟩ : String.Pos.Raw) <
      (String.ofList (before ++ c :: rest)).rawEndPos := by
    have hc := c.utf8Size_pos
    show width before < (String.ofList (before ++ c :: rest)).utf8ByteSize
    rw [utf8ByteSize_ofList, width_append, width_cons]
    omega
  have hbytes : (String.ofList (before ++ c :: rest)).toByteArray =
      before.utf8Encode ++ ((String.utf8EncodeChar c).toByteArray ++ rest.utf8Encode) := by
    rw [String.toByteArray_ofList, List.utf8Encode_append, List.utf8Encode_cons,
      List.utf8Encode_singleton]
  have hbefore : before.utf8Encode.size = width before := by
    rw [← String.toByteArray_ofList]
    exact utf8ByteSize_ofList before
  unfold byteAt?
  rw [dif_pos hsize, String.getUTF8Byte_eq_getElem]
  congr 1
  simp only [hbytes, firstByte, List.head_eq_getElem]
  rw [ByteArray.getElem_append_right (Nat.le_of_eq hbefore)]
  rw [ByteArray.getElem_append_left (by simp [hbefore, c.utf8Size_pos])]
  rw [List.getElem_toByteArray]
  simp [hbefore]

theorem byteAt?_end (before : List Char) :
    byteAt? (String.ofList before) (width before) = none := by
  unfold byteAt?
  rw [dif_neg]
  intro h
  have hlt : width before < (String.ofList before).utf8ByteSize := h
  rw [utf8ByteSize_ofList] at hlt
  omega

/-- A run of ASCII bytes is a run of ASCII characters, so the byte that ends it is the
character the decoder would find. -/
theorem byteAt?_of_asciiRun {before after : List Char} {n : Nat}
    (h : asciiRun (String.ofList (before ++ after)) (width before) (n + 1) = true) :
    (byteAt? (String.ofList (before ++ after)) (width before + n)).map
      (fun b => Char.ofNat b.toNat) = after[n]? := by
  induction n generalizing before after with
  | zero =>
    cases after with
    | nil => rw [List.append_nil, Nat.add_zero, byteAt?_end]; rfl
    | cons c rest =>
      rw [asciiRun, byteAt?_cons, Bool.and_eq_true] at h
      have hc : c.toNat < 128 := (firstByte_lt_iff c).mp (by simpa using h.1)
      rw [Nat.add_zero, byteAt?_cons]
      simp [firstByte_ascii hc]
  | succ n ih =>
    cases after with
    | nil =>
      rw [asciiRun, List.append_nil, byteAt?_end] at h
      simp at h
    | cons c rest =>
      rw [asciiRun, byteAt?_cons, Bool.and_eq_true] at h
      have hc : c.toNat < 128 := (firstByte_lt_iff c).mp (by simpa using h.1)
      have hw : width (before ++ [c]) = width before + 1 := by
        simp [utf8Size_ascii hc]
      have hs : before ++ c :: rest = (before ++ [c]) ++ rest := by simp
      rw [hs, ← hw] at h
      rw [hs, show width before + (n + 1) = width (before ++ [c]) + n by omega, ih h.2]
      rfl

end Text
end Lexical
