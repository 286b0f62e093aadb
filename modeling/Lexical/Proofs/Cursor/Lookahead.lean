import Lexical.Proofs.Cursor.Reading

/-!
# Looking ahead is reading ahead

A cursor can look at a character any number of places further on, and it has two ways to find it: as a
byte, where all bytes up to there are ASCII, and by decoding one character after the other. Neither of
them moves, and neither counts lines. What they find is what the same number of reads would find
(`Foretells`), past the end of the source too, where a read answers NUL as often as it is asked. The
one thing that reads can meet and looking does not is a line that has no number.
-/

set_option autoImplicit false

namespace Lexical
namespace Cursor

open Text

/-- The character so many places further on, or NUL where the text is over before it. -/
def charAhead (ahead : List Char) (n : Nat) : Char := ahead[n]?.getD '\x00'

/-- Reads so many times, and gives what was read with the cursor that is left. -/
def readTimes : Nat → Cursor → Except Fault (List Char × Cursor)
  | 0, c => .ok ([], c)
  | n + 1, c => do
    let (ch, next) ← c.advance
    let (rest, last) ← readTimes n next
    return (ch :: rest, last)

/-- Looking `n` characters ahead and reading `n + 1` characters come to the same, where `ahead` is the
text in front of the cursor. -/
structure Foretells (source : String) (c : Cursor) (ahead : List Char) (n : Nat) : Prop where
  remaining : c.remaining = .ok (String.ofList ahead)
  looks : c.peek n = .ok (charAhead ahead n)
  decodes : c.peek n = .ok ((nthChar? c.source c.position n).getD '\x00')
  reads : c.readTimes (n + 1) =
    if c.line + (ahead.take (n + 1)).count '\n' ≤ lastLine then
      .ok ((List.range (n + 1)).map (charAhead ahead),
        { c with
          position := c.position + width (ahead.take (n + 1))
          line := c.line + (ahead.take (n + 1)).count '\n' })
    else .error .lineOverflow
  agrees : ∀ read last, c.readTimes (n + 1) = .ok (read, last) →
    ∃ ch, read[n]? = some ch ∧ c.peek n = .ok ch
  fits : LinesFit source.toList → c.line + (ahead.take (n + 1)).count '\n' ≤ lastLine

variable {before after : List Char}

theorem map_charAhead_range (ahead : List Char) (n : Nat) :
    (List.range (n + 1)).map (charAhead ahead) =
      ahead.head?.getD '\x00' :: (List.range n).map (charAhead ahead.tail) := by
  rw [List.range_succ_eq_map, List.map_cons, List.map_map, charAhead, List.head?_eq_getElem?]
  congr 1
  apply List.map_congr_left
  intro i _
  rw [Function.comp_apply, charAhead, charAhead, List.getElem?_tail]

theorem readTimes_of_advance {c next : Cursor} {ch : Char} (h : c.advance = .ok (ch, next))
    (n : Nat) : c.readTimes (n + 1) = (next.readTimes n).map fun read => (ch :: read.1, read.2) := by
  rw [readTimes, h]
  rfl

/-- **Reading so many times** passes over as many characters, unless the lines run out before. -/
theorem readTimes_cut (hline : lineAt before ≤ lastLine) (n : Nat) (after : List Char) :
    (cut before after).readTimes n =
      if lineAt (before ++ after.take n) ≤ lastLine then
        .ok ((List.range n).map (charAhead after), cut (before ++ after.take n) (after.drop n))
      else .error .lineOverflow := by
  induction n generalizing before after with
  | zero => simp [readTimes, hline]
  | succ n ih =>
    rw [map_charAhead_range]
    cases after with
    | nil =>
      have hrest := ih hline []
      rw [List.take_nil, List.append_nil, if_pos hline] at hrest ⊢
      rw [readTimes_of_advance (advance_cut_nil before), hrest, List.drop_nil, List.drop_nil]
      rfl
    | cons c rest =>
      have hadvance := advance_cut_cons hline c rest
      have hsplit : before ++ (c :: rest).take (n + 1) = before ++ [c] ++ rest.take n := by simp
      rw [hsplit]
      by_cases hnext : lineAt (before ++ [c]) ≤ lastLine
      · rw [if_pos hnext] at hadvance
        rw [readTimes_of_advance hadvance, ih hnext]
        split <;> rfl
      · -- The line that is too far for the first character is too far for all of them.
        have hfar := lineAt_extend (before ++ [c]) (rest.take n)
        rw [if_neg hnext] at hadvance
        rw [readTimes, hadvance, if_neg (by omega)]
        rfl

theorem foretells_cut (hline : lineAt before ≤ lastLine) (after : List Char) (n : Nat) :
    Foretells (String.ofList (before ++ after)) (cut before after) after n := by
  have hreads := readTimes_cut hline (n + 1) after
  have hlines := lineAt_extend before (after.take (n + 1))
  constructor
  case remaining => exact remaining_cut before after
  case looks => exact peek_cut before after n
  case decodes =>
    rw [peek_cut, cut_source, cut_position, nthChar?_width]
    rfl
  case reads =>
    rw [hreads, hlines]
    simp only [cut, List.append_assoc, List.take_append_drop, width_append, hlines]
    rfl
  case agrees =>
    intro read last hread
    rw [hreads] at hread
    split at hread
    next =>
      cases hread
      exact ⟨charAhead after n, by simp, peek_cut before after n⟩
    next => cases hread
  case fits =>
    intro hfit
    rw [String.toList_ofList, ← List.take_append_drop (n + 1) after, ← List.append_assoc] at hfit
    rw [cut_line, ← hlines]
    exact lineAt_le_lastLine hfit

/-- **Looking ahead agrees with reading**, wherever a script leads. -/
theorem performAll_foretells {σ : Type} (source : String) (script : List (Op σ)) (n : Nat) :
    ∃ ahead, Foretells source (Bookmarked.performAll (.ofSource source) script).cursor ahead n := by
  obtain ⟨before, after, hsource, hcut, hline⟩ := Bookmarked.exists_cut_performAll source script
  have htext : source = String.ofList (before ++ after) := by rw [hsource, String.ofList_toList]
  rw [hcut, htext]
  exact ⟨after, foretells_cut hline after n⟩

end Cursor
end Lexical
