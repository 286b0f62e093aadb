import Lexical.Fault
import Lexical.Text.Offset

/-!
# Cursors

A cursor is a place in a source from which it is read forward, one character at a time. It
knows the byte offset of the next unread character and the line that character is on.

Nothing in the type says that the offset lies between two characters, or that the line is the
right one. Both are true of every cursor that the operations below can reach from the start of
a source, and neither is assumed by them: each looks at the source first. Where the offset does
not lie between two characters, whatever reads, looks ahead or cuts answers with a fault.

At the end of the source the readers answer NUL, which is also a character a source may hold.
Whoever has to tell the two apart asks `isAtEnd`.
-/

set_option autoImplicit false

namespace Lexical

/-- A place in a source. -/
structure Cursor where
  source : String
  /-- Byte offset of the next unread character. -/
  position : Nat
  /-- Line of the next unread character, counted from one. -/
  line : Nat
  deriving DecidableEq

namespace Cursor

/-- The greatest line number. -/
def lastLine : Nat := Nat.pow 2 32 - 1

/-- What a reader answers at the end of the source. -/
def endMark : Char := '\x00'

def ofSource (source : String) : Cursor := { source, position := 0, line := 1 }

/-- Whether every character has been read. -/
def isAtEnd (c : Cursor) : Bool := c.source.utf8ByteSize ≤ c.position

def unread (c : Cursor) : Nat := c.source.utf8ByteSize - c.position

/-- The character `n` characters past the next one. Where all bytes up to the wanted one are
ASCII it is that byte; only otherwise are characters decoded to find it. -/
def ahead? (c : Cursor) (n : Nat) : Option Char :=
  if c.position + n < c.source.utf8ByteSize ∧ Text.asciiRun c.source c.position (n + 1) then
    (Text.byteAt? c.source (c.position + n)).map fun b => Char.ofNat b.toNat
  else Text.nthChar? c.source c.position n

/-- Looks at the character `n` characters past the next one and reads nothing. -/
def peek (c : Cursor) (n : Nat) : Except Fault Char :=
  if Text.isBoundary c.source c.position then .ok ((c.ahead? n).getD endMark)
  else .error .offBoundary

def current (c : Cursor) : Except Fault Char := c.peek 0

def lineAfter (c : Cursor) (ch : Char) : Except Fault Nat :=
  if ch = '\n' then
    if c.line < lastLine then .ok (c.line + 1) else .error .lineOverflow
  else .ok c.line

/-- Reads the next character. At the end of the source nothing moves. -/
def advance (c : Cursor) : Except Fault (Char × Cursor) :=
  if Text.isBoundary c.source c.position then
    match Text.charAt? c.source c.position with
    | none => .ok (endMark, c)
    | some ch => (c.lineAfter ch).map fun line =>
        (ch, { c with position := c.position + ch.utf8Size, line })
  else .error .offBoundary

/-- Reads the next character if it is the expected one, and says whether it was. -/
def accept (c : Cursor) (expected : Char) : Except Fault (Bool × Cursor) :=
  if c.isAtEnd then .ok (false, c)
  else do
    let ch ← c.current
    if ch = expected then
      let (_, next) ← c.advance
      return (true, next)
    else return (false, c)

/-- The source from a byte offset to here. -/
def sliceFrom (c : Cursor) (start : Nat) : Except Fault String :=
  match Text.slice? c.source start c.position with
  | some text => .ok text
  | none => .error .offBoundary

def remaining (c : Cursor) : Except Fault String :=
  match Text.slice? c.source c.position c.source.utf8ByteSize with
  | some text => .ok text
  | none => .error .offBoundary

/-! ## Reading moves forward

Every loop over a source ends because reading a character leaves fewer bytes unread. -/

theorem advance_unread_lt {c next : Cursor} {ch : Char} (hend : c.isAtEnd = false)
    (h : c.advance = .ok (ch, next)) : next.unread < c.unread := by
  have hlt : c.position < c.source.utf8ByteSize := by simpa [isAtEnd] using hend
  unfold advance at h
  split at h
  case isFalse => cases h
  case isTrue hplace =>
    cases hc : Text.charAt? c.source c.position with
    | none => exact absurd ((Text.charAt?_eq_none_iff hplace).1 hc) (Nat.ne_of_lt hlt)
    | some d =>
      rw [hc] at h
      obtain ⟨line, -, h⟩ := Fault.map_eq_ok_iff.1 h
      obtain rfl : _ = next := congrArg Prod.snd h
      have := d.utf8Size_pos
      simp only [unread]
      omega

/-- At the end of the source nothing moves. -/
theorem eq_of_advance_isAtEnd {c next : Cursor} {ch : Char} (hend : c.isAtEnd = true)
    (h : c.advance = .ok (ch, next)) : c = next := by
  have hle : c.source.utf8ByteSize ≤ c.position := by simpa [isAtEnd] using hend
  unfold advance at h
  split at h
  case isFalse => cases h
  case isTrue hplace =>
    obtain ⟨before, after, hsource, hsize⟩ := Text.isBoundary_iff.1 hplace
    have hposition : c.position = c.source.utf8ByteSize := by
      rw [hsource, String.utf8ByteSize_append, hsize] at hle ⊢
      omega
    rw [(Text.charAt?_eq_none_iff hplace).2 hposition] at h
    cases h
    rfl

/-- A cursor is reached from another by reading characters one after the other. -/
inductive ReadsTo (start : Cursor) : Cursor → Prop
  | here : ReadsTo start start
  | next {c after : Cursor} {ch : Char} : ReadsTo start c → c.isAtEnd = false →
      c.advance = .ok (ch, after) → ReadsTo start after

theorem ReadsTo.trans {start c last : Cursor} (h : ReadsTo start c) (h' : ReadsTo c last) :
    ReadsTo start last := by
  induction h' with
  | here => exact h
  | next _ hmore hadv ih => exact .next ih hmore hadv

theorem ReadsTo.unread_le {start c : Cursor} (h : ReadsTo start c) : c.unread ≤ start.unread := by
  induction h with
  | here => exact Nat.le_refl _
  | next _ hmore hadv ih => exact Nat.le_trans (Nat.le_of_lt (advance_unread_lt hmore hadv)) ih

theorem advance_readsTo {c next : Cursor} {ch : Char} (h : c.advance = .ok (ch, next)) :
    ReadsTo c next := by
  cases hend : c.isAtEnd with
  | false => exact .next .here hend h
  | true =>
    obtain rfl := eq_of_advance_isAtEnd hend h
    exact .here

theorem accept_readsTo {c next : Cursor} {expected : Char} {found : Bool}
    (h : c.accept expected = .ok (found, next)) : ReadsTo c next := by
  unfold accept at h
  split at h
  · cases h
    exact .here
  · obtain ⟨ch, -, h⟩ := Fault.bind_eq_ok_iff.1 h
    split at h
    · obtain ⟨⟨_, after⟩, ha, h⟩ := Fault.bind_eq_ok_iff.1 h
      obtain rfl : after = next := congrArg Prod.snd (Fault.pure_eq_ok_iff.1 h)
      exact advance_readsTo ha
    · obtain rfl : c = next := congrArg Prod.snd (Fault.pure_eq_ok_iff.1 h)
      exact .here

/-! ## Reading while a test holds -/

/-- Reads characters as long as a test accepts the next one. The test may remember: it is
given its own state and answers with the next one. It is never asked about the end. -/
def eatWith {σ : Type} (test : σ → Char → Bool × σ) (state : σ) (c : Cursor) :
    Except Fault (Cursor × σ) :=
  if _hend : c.isAtEnd then .ok (c, state)
  else
    match c.current with
    | .error fault => .error fault
    | .ok ch =>
      match test state ch with
      | (false, after) => .ok (c, after)
      | (true, after) =>
        match _hadv : c.advance with
        | .error fault => .error fault
        | .ok (_, next) => eatWith test after next
termination_by c.unread
decreasing_by exact advance_unread_lt (by simpa using _hend) _hadv

/-- Reads characters as long as the next one is in a class. -/
def eatWhile (c : Cursor) (accepts : Char → Bool) : Except Fault Cursor :=
  (eatWith (fun _ ch => (accepts ch, ())) () c).map Prod.fst

theorem eatWith_readsTo {σ : Type} {test : σ → Char → Bool × σ} {state after : σ}
    {c next : Cursor} (h : eatWith test state c = .ok (next, after)) : ReadsTo c next := by
  fun_induction eatWith test state c with
  | case1 state c hend =>
    obtain ⟨rfl, -⟩ : c = next ∧ state = after := by simpa using h
    exact .here
  | case2 state c hend fault hch => simp at h
  | case3 state c hend ch hch st htest =>
    obtain ⟨rfl, -⟩ : c = next ∧ st = after := by simpa using h
    exact .here
  | case4 state c hend ch hch st htest fault hadv => simp at h
  | case5 state c hend ch hch st htest read mid hadv ih =>
    exact (advance_readsTo hadv).trans (ih h)

theorem eatWhile_readsTo {accepts : Char → Bool} {c next : Cursor}
    (h : c.eatWhile accepts = .ok next) : ReadsTo c next := by
  unfold eatWhile at h
  obtain ⟨⟨after, state⟩, he, rfl⟩ := Fault.map_eq_ok_iff.1 h
  exact eatWith_readsTo he

end Cursor
end Lexical
