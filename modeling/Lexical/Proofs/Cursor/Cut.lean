import Lexical.Cursor.Basic
import Lexical.Proofs.Text.Width

/-!
# Cursors, as a source cut in two

A cursor holds an offset and a line number, and both could be anything. `cut before after` is
the cursor that stands between `before` and `after` with the offset and the line that belong
there. Every operation is described once by what it does to the two parts, and from here on a
run of the scanner is a run over lists of characters: no offset, no boundary and no line
counter appears in a later proof.

`LinesFit` is the one thing asked of a source. Its lines have to be numbered without running
out of numbers, which 2 ^ 32 - 1 line breaks would do.
-/

set_option autoImplicit false

namespace Lexical
namespace Cursor

open Text

/-- The line counter can number every line of the source. -/
def LinesFit (source : List Char) : Prop := source.count '\n' < lastLine

instance (source : List Char) : Decidable (LinesFit source) :=
  inferInstanceAs (Decidable (source.count '\n' < lastLine))

theorem LinesFit.left {a b : List Char} (h : LinesFit (a ++ b)) : LinesFit a := by
  rw [LinesFit, List.count_append] at h
  exact Nat.lt_of_le_of_lt (Nat.le_add_right _ _) h

theorem LinesFit.right {a b : List Char} (h : LinesFit (a ++ b)) : LinesFit b := by
  rw [LinesFit, List.count_append] at h
  exact Nat.lt_of_le_of_lt (Nat.le_add_left _ _) h

/-- The line that follows the characters already read. -/
def lineAt (before : List Char) : Nat := 1 + before.count '\n'

/-- The cursor between two parts of a source. -/
def cut (before after : List Char) : Cursor :=
  { source := String.ofList (before ++ after), position := width before, line := lineAt before }

theorem ofSource_eq_cut (source : String) : ofSource source = cut [] source.toList := by
  simp [ofSource, cut, lineAt]

@[simp] theorem cut_position (before after : List Char) :
    (cut before after).position = width before := rfl

@[simp] theorem cut_line (before after : List Char) :
    (cut before after).line = lineAt before := rfl

@[simp] theorem cut_source (before after : List Char) :
    (cut before after).source = String.ofList (before ++ after) := rfl

/-! ## Looking -/

@[simp] theorem isAtEnd_cut (before after : List Char) :
    (cut before after).isAtEnd = after.isEmpty := by
  unfold isAtEnd
  cases after with
  | nil => simp
  | cons c rest =>
    have hc := c.utf8Size_pos
    simp
    omega

theorem ahead?_cut (before after : List Char) (n : Nat) :
    (cut before after).ahead? n = after[n]? := by
  unfold ahead?
  rw [cut_source, cut_position]
  by_cases h : width before + n < (String.ofList (before ++ after)).utf8ByteSize ∧
      asciiRun (String.ofList (before ++ after)) (width before) (n + 1) = true
  · rw [if_pos h, byteAt?_of_asciiRun h.2]
  · rw [if_neg h, nthChar?_width]

/-- **Looking ahead is counting characters**, whichever of its two paths is taken. -/
theorem peek_cut (before after : List Char) (n : Nat) :
    (cut before after).peek n = .ok (after[n]?.getD endMark) := by
  unfold peek
  rw [cut_source, cut_position, if_pos (isBoundary_width before after), ahead?_cut]

@[simp] theorem current_cut (before after : List Char) :
    (cut before after).current = .ok (after.head?.getD endMark) := by
  rw [current, peek_cut, List.head?_eq_getElem?]

/-! ## Reading one character -/

theorem lineAt_le_lastLine {before after : List Char} (hfit : LinesFit (before ++ after)) :
    lineAt before ≤ lastLine := by
  unfold LinesFit at hfit
  rw [List.count_append] at hfit
  unfold lineAt
  omega

/-- Moving characters across the cut does not change the source. -/
theorem LinesFit.move {before after : List Char} {c : Char}
    (hfit : LinesFit (before ++ c :: after)) : LinesFit ((before ++ [c]) ++ after) := by
  rwa [List.append_assoc, List.singleton_append]

theorem lineAt_extend (before text : List Char) :
    lineAt (before ++ text) = lineAt before + text.count '\n' := by
  rw [lineAt, lineAt, List.count_append, Nat.add_assoc]

/-- The line counter follows, unless a line break stands behind the last line there is. -/
theorem lineAfter_cut {before : List Char} (hline : lineAt before ≤ lastLine) (c : Char)
    (after : List Char) :
    (cut before (c :: after)).lineAfter c =
      if lineAt (before ++ [c]) ≤ lastLine then .ok (lineAt (before ++ [c]))
      else .error .lineOverflow := by
  have hnext := lineAt_extend before [c]
  unfold lineAfter
  by_cases hc : c = '\n'
  · subst hc
    rw [List.count_singleton_self] at hnext
    simp only [if_true, cut_line, hnext]
    rfl
  · rw [if_neg hc, cut_line]
    rw [List.count_eq_zero_of_not_mem (by simpa using Ne.symm hc), Nat.add_zero] at hnext
    rw [hnext, if_pos hline]

theorem advance_cut_cons {before : List Char} (hline : lineAt before ≤ lastLine) (c : Char)
    (after : List Char) :
    (cut before (c :: after)).advance =
      if lineAt (before ++ [c]) ≤ lastLine then .ok (c, cut (before ++ [c]) after)
      else .error .lineOverflow := by
  unfold advance
  rw [cut_source, cut_position, if_pos (isBoundary_width before (c :: after)), charAt?_width]
  simp only [List.head?_cons, lineAfter_cut hline]
  split
  · simp [cut, Except.map]
  · rfl

theorem advance_cut {before after : List Char} {c : Char}
    (hfit : LinesFit (before ++ c :: after)) :
    (cut before (c :: after)).advance = .ok (c, cut (before ++ [c]) after) := by
  rw [advance_cut_cons (lineAt_le_lastLine hfit), if_pos (lineAt_le_lastLine hfit.move)]

theorem advance_cut_nil (before : List Char) :
    (cut before []).advance = .ok (endMark, cut before []) := by
  unfold advance
  rw [cut_source, cut_position, if_pos (isBoundary_width before []), charAt?_width]
  rfl

theorem accept_cut_cons {before after : List Char} {c : Char}
    (hfit : LinesFit (before ++ c :: after)) (expected : Char) :
    (cut before (c :: after)).accept expected =
      if c = expected then .ok (true, cut (before ++ [c]) after)
      else .ok (false, cut before (c :: after)) := by
  unfold accept
  rw [isAtEnd_cut, current_cut, advance_cut hfit]
  rfl

theorem accept_cut_nil (before : List Char) (expected : Char) :
    (cut before []).accept expected = .ok (false, cut before []) := by
  simp [accept]

/-! ## Reading while a test holds -/

/-- What a test that remembers takes from the front of a text, what it leaves, and what it
remembers in the end. -/
def eaten {σ : Type} (test : σ → Char → Bool × σ) (state : σ) :
    List Char → List Char × List Char × σ
  | [] => ([], [], state)
  | c :: rest =>
    match test state c with
    | (false, after) => ([], c :: rest, after)
    | (true, after) =>
      let (taken, left, last) := eaten test after rest
      (c :: taken, left, last)

section Eating

variable {σ : Type} {before after : List Char}

theorem eaten_append (test : σ → Char → Bool × σ) (state : σ) (text : List Char) :
    (eaten test state text).1 ++ (eaten test state text).2.1 = text := by
  induction text generalizing state with
  | nil => rfl
  | cons c rest ih =>
    rcases htest : test state c with ⟨accepted, next⟩
    cases accepted with
    | false => simp only [eaten, htest, List.nil_append]
    | true => simp only [eaten, htest, List.cons_append, ih]

/-- A test reads what it takes, unless there are more lines in it than there are numbers for. -/
theorem eatWith_cut_eq (hline : lineAt before ≤ lastLine) (test : σ → Char → Bool × σ) (state : σ)
    (after : List Char) :
    (cut before after).eatWith test state =
      if lineAt (before ++ (eaten test state after).1) ≤ lastLine then
        .ok (cut (before ++ (eaten test state after).1) (eaten test state after).2.1,
          (eaten test state after).2.2)
      else .error .lineOverflow := by
  induction after generalizing before state with
  | nil =>
    rw [eatWith]
    simp [eaten, hline]
  | cons c rest ih =>
    rw [eatWith]
    simp only [isAtEnd_cut, List.isEmpty_cons, Bool.false_eq_true, dite_false, current_cut,
      List.head?_cons, Option.getD_some]
    rcases htest : test state c with ⟨accepted, next⟩
    cases accepted with
    | false => simp [eaten, htest, hline]
    | true =>
      have hsplit : before ++ c :: (eaten test next rest).1 =
          before ++ [c] ++ (eaten test next rest).1 := by simp
      have hadvance := advance_cut_cons hline c rest
      simp only [eaten, htest, hsplit]
      by_cases hnext : lineAt (before ++ [c]) ≤ lastLine
      · rw [if_pos hnext] at hadvance
        split
        · next fault hadv => cases hadvance.symm.trans hadv
        · next ch moved hadv =>
          cases hadvance.symm.trans hadv
          exact ih hnext next
      · -- The line that is too far for the first character is too far for all of them.
        have hfar := lineAt_extend (before ++ [c]) (eaten test next rest).1
        rw [if_neg hnext] at hadvance
        rw [if_neg (by omega)]
        split
        · next fault hadv => cases hadvance.symm.trans hadv; rfl
        · next ch moved hadv => cases hadvance.symm.trans hadv

theorem eatWith_cut (hfit : LinesFit (before ++ after)) (test : σ → Char → Bool × σ)
    (state : σ) :
    (cut before after).eatWith test state =
      .ok (cut (before ++ (eaten test state after).1) (eaten test state after).2.1,
        (eaten test state after).2.2) := by
  have htaken := hfit
  rw [← eaten_append test state after, ← List.append_assoc] at htaken
  rw [eatWith_cut_eq (lineAt_le_lastLine hfit), if_pos (lineAt_le_lastLine htaken)]

/-- A test that remembers nothing takes the longest row of characters it accepts. -/
theorem eaten_of_class (accepts : Char → Bool) (text : List Char) :
    eaten (fun _ ch => (accepts ch, ())) () text =
      (text.takeWhile accepts, text.dropWhile accepts, ()) := by
  induction text with
  | nil => rfl
  | cons c rest ih =>
    cases hc : accepts c with
    | false => simp [eaten, hc]
    | true => simp [eaten, hc, ih]

/-- Reading a class of characters takes the longest row of them. -/
theorem eatWhile_cut (hfit : LinesFit (before ++ after)) (accepts : Char → Bool) :
    (cut before after).eatWhile accepts =
      .ok (cut (before ++ after.takeWhile accepts) (after.dropWhile accepts)) := by
  unfold eatWhile
  rw [eatWith_cut hfit, eaten_of_class]
  rfl

end Eating

/-! ## Cutting -/

theorem sliceFrom_cut (before text after : List Char) :
    (cut (before ++ text) after).sliceFrom (width before) = .ok (String.ofList text) := by
  unfold sliceFrom
  rw [cut_source, cut_position, slice?_width]

end Cursor
end Lexical
