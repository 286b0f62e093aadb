import Lexical.Cursor.Script
import Lexical.Proofs.Cursor.Cut

/-!
# Where a cursor can get to

A cursor is moved in one way only: it reads the next character (`ReadsTo`). Everything that is
reached so from a cut is another cut of the same source, on a line that can be numbered. A script
that saves and restores gets no further than that (`exists_cut_performAll`), and what the partial
operations ask of a cursor (`InPlace`) holds of all that is reached.
-/

set_option autoImplicit false

namespace Lexical
namespace Cursor

open Text

/-- What is left can be looked at from a cursor, and what it has read since `start` can be cut
out. -/
structure InPlace (source : String) (start c : Cursor) : Prop where
  behind : start.position ≤ c.position
  boundary : isBoundary source c.position = true
  remaining : ∃ text, c.remaining = .ok text
  slice : ∃ text, c.sliceFrom start.position = .ok text
  line : c.line ≤ lastLine

variable {before after text : List Char}

theorem readsTo_cut (hfit : LinesFit (before ++ (text ++ after))) :
    ReadsTo (cut before (text ++ after)) (cut (before ++ text) after) := by
  induction text generalizing before with
  | nil =>
    rw [List.nil_append, List.append_nil]
    exact .here
  | cons c text ih =>
    have hrest := ih hfit.move
    rw [List.append_assoc, List.singleton_append] at hrest
    exact (advance_readsTo (advance_cut hfit)).trans hrest

/-- Reading moves the cut over some of the characters ahead, as far as there are lines. -/
theorem ReadsTo.exists_cut {c : Cursor} (h : ReadsTo (cut before after) c)
    (hline : lineAt before ≤ lastLine) : ∃ text rest, after = text ++ rest ∧
      c = cut (before ++ text) rest ∧ lineAt (before ++ text) ≤ lastLine := by
  induction h with
  | here => exact ⟨[], after, rfl, by rw [List.append_nil], by rwa [List.append_nil]⟩
  | @next c last ch _ hmore hadv ih =>
    obtain ⟨text, rest, rfl, rfl, hreached⟩ := ih
    cases rest with
    | nil => simp at hmore
    | cons d rest =>
      rw [advance_cut_cons hreached] at hadv
      split at hadv
      next hnext =>
        cases hadv
        rw [List.append_assoc] at hnext ⊢
        exact ⟨text ++ [ch], rest, by simp, rfl, hnext⟩
      next => cases hadv

theorem remaining_cut (before after : List Char) :
    (cut before after).remaining = .ok (String.ofList after) := by
  unfold remaining
  rw [cut_source, cut_position, utf8ByteSize_ofList, slice?_width_end]

/-- **Wherever reading gets to, the cursor is in place.** -/
theorem ReadsTo.inPlace {c : Cursor} (h : ReadsTo (cut before after) c)
    (hfit : LinesFit (before ++ after)) :
    InPlace (String.ofList (before ++ after)) (cut before after) c := by
  obtain ⟨text, rest, rfl, rfl, hline⟩ := h.exists_cut (lineAt_le_lastLine hfit)
  rw [← List.append_assoc] at hfit ⊢
  exact {
    behind := by simp
    boundary := isBoundary_width (before ++ text) rest
    remaining := ⟨_, remaining_cut (before ++ text) rest⟩
    slice := ⟨_, sliceFrom_cut before text rest⟩
    line := hline }

/-! ## Scripts -/

namespace Bookmarked

variable {σ : Type} {start : Cursor} {b : Bookmarked}

/-- What an operation leaves has been reached by reading, with the bookmark. -/
theorem perform_readsTo (hcursor : ReadsTo start b.cursor) (hmark : ReadsTo start b.bookmark)
    (op : Op σ) : ReadsTo start (b.perform op).2.cursor ∧ ReadsTo start (b.perform op).2.bookmark := by
  unfold perform
  cases op with
  | advance =>
    dsimp only
    split
    next ch next hadv => exact ⟨hcursor.trans (advance_readsTo hadv), hmark⟩
    next => exact ⟨hcursor, hmark⟩
  | accept expected =>
    dsimp only
    split
    next found next haccept => exact ⟨hcursor.trans (accept_readsTo haccept), hmark⟩
    next => exact ⟨hcursor, hmark⟩
  | eatWith test state =>
    dsimp only
    split
    next next after heat => exact ⟨hcursor.trans (eatWith_readsTo heat), hmark⟩
    next => exact ⟨hcursor, hmark⟩
  | save => exact ⟨hcursor, hcursor⟩
  | restore => exact ⟨hmark, hmark⟩
  | source => exact ⟨hcursor, hmark⟩
  | _ =>
    dsimp only
    split <;> exact ⟨hcursor, hmark⟩

theorem performAll_readsTo (hcursor : ReadsTo start b.cursor) (hmark : ReadsTo start b.bookmark)
    (script : List (Op σ)) : ReadsTo start (b.performAll script).cursor := by
  induction script generalizing b with
  | nil => exact hcursor
  | cons op script ih =>
    obtain ⟨hcursor, hmark⟩ := perform_readsTo hcursor hmark op
    exact ih hcursor hmark

/-- **A script leaves the cursor between two parts of its source.** -/
theorem exists_cut_performAll (source : String) (script : List (Op σ)) :
    ∃ before after, before ++ after = source.toList ∧
      (performAll (.ofSource source) script).cursor = cut before after ∧
        lineAt before ≤ lastLine := by
  have hreads : ReadsTo (.ofSource source) (performAll (.ofSource source) script).cursor :=
    performAll_readsTo (b := .ofSource source) .here .here script
  generalize (performAll (.ofSource source) script).cursor = c at hreads ⊢
  rw [ofSource_eq_cut] at hreads
  obtain ⟨text, rest, hsource, hcut, hline⟩ := hreads.exists_cut (by decide)
  exact ⟨text, rest, hsource.symm, hcut, hline⟩

end Bookmarked

end Cursor
end Lexical
