import Lexical.Cursor.Script
import Lexical.Proofs.Cursor.Reading
import Lexical.Proofs.Text.Line

/-!
# Where a cursor stands after any script

A cursor is an offset and a line number, and its operations may come in any order, with the place
saved at one moment and restored at another. `Stands` is what holds of a cursor throughout: the
offset lies between two characters, the line is the line of that offset, and the text behind the
cursor and the text ahead of it are the source. `Moves` is what the operations do there.

Both come from one invariant, `At`: the cursor is a cut of the source. Each operation has one
equation at a cut, a script keeps the invariant because every operation does, and the rest is read
off the cut. The bookmark is under the same invariant, which is why restoring it does no harm.
-/

set_option autoImplicit false

namespace Lexical
namespace Cursor

open Text

/-- A cursor over a source is where its offset, its line and its text belong together. -/
structure Stands (source : String) (c : Cursor) : Prop where
  source_eq : c.source = source
  boundary : isBoundary source c.position = true
  within : c.position ≤ source.utf8ByteSize
  line_eq : c.line = lineOf source c.position
  split : ∃ behind ahead, slice? source 0 c.position = some behind ∧
    c.remaining = .ok ahead ∧ behind ++ ahead = source ∧ c.line = 1 + behind.toList.count '\n'
  isAtEnd_iff : c.isAtEnd = true ↔ c.remaining = .ok ""

/-- What the operations do where a cursor is, its bookmark aside. -/
structure Moves (σ : Type) (b : Bookmarked) : Prop where
  forward : ∀ op : Op σ, op ≠ .restore → b.cursor.position ≤ (b.perform op).2.cursor.position
  advance_next : ∀ c ahead, b.cursor.remaining = .ok (String.ofList (c :: ahead)) →
    ∃ next, b.perform (.advance : Op σ) = (.char c, b.moveTo next) ∧
      next.position = b.cursor.position + c.utf8Size ∧
      next.remaining = .ok (String.ofList ahead)
  advance_end : b.cursor.remaining = .ok "" →
    b.perform (.advance : Op σ) = (.char '\x00', b)
  accept_next : ∀ c ahead, b.cursor.remaining = .ok (String.ofList (c :: ahead)) →
    b.perform (.accept c : Op σ) = (.bool true, (b.perform (.advance : Op σ)).2)
  accept_other : ∀ expected ahead, b.cursor.remaining = .ok (String.ofList ahead) →
    ahead.head? ≠ some expected → b.perform (.accept expected : Op σ) = (.bool false, b)
  eats : ∀ test (state : σ), ∃ after next,
    b.perform (.eatWith test state) = (.state after, b.moveTo next)
  looks : ∀ n, ∃ c, b.perform (.peek n : Op σ) = (.char c, b)
  slices : ∀ start, (b.perform (.sliceFrom start : Op σ)).2 = b
  shows_remaining : ∃ text, b.perform (.remaining : Op σ) = (.text text, b)
  shows_source : b.perform (.source : Op σ) = (.text b.cursor.source, b)

/-- A cursor is a cut of a source. -/
def At (source : List Char) (c : Cursor) : Prop :=
  ∃ before after, before ++ after = source ∧ c = cut before after

theorem At.stands {source : String} {c : Cursor} (h : At source.toList c) : Stands source c := by
  obtain ⟨before, after, hsource, rfl⟩ := h
  have hs : source = String.ofList (before ++ after) := by rw [hsource, String.ofList_toList]
  subst hs
  constructor
  case source_eq => rfl
  case boundary => exact isBoundary_width before after
  case within => simp
  case line_eq => exact (lineOf_width before after).symm
  case split =>
    refine ⟨String.ofList before, String.ofList after, ?_, remaining_cut before after,
      String.ofList_append.symm, ?_⟩
    · exact slice?_width [] before after
    · rw [String.toList_ofList]
      rfl
  case isAtEnd_iff =>
    rw [isAtEnd_cut, remaining_cut]
    cases after with
    | nil => simp
    | cons c rest => simp [← String.toList_inj]

namespace Bookmarked

variable {σ : Type} {before after : List Char} {mark : Cursor} {c : Char}

/-! ## One operation at a cut -/

theorem perform_peek (n : Nat) :
    perform ⟨cut before after, mark⟩ (.peek n : Op σ) =
      (.char (after[n]?.getD endMark), ⟨cut before after, mark⟩) := by
  simp only [perform, peek_cut]

theorem perform_advance_cons (hfit : LinesFit (before ++ c :: after)) :
    perform ⟨cut before (c :: after), mark⟩ (.advance : Op σ) =
      (.char c, ⟨cut (before ++ [c]) after, mark⟩) := by
  simp only [perform, advance_cut hfit, moveTo]

theorem perform_advance_nil (before : List Char) (mark : Cursor) :
    perform ⟨cut before [], mark⟩ (.advance : Op σ) = (.char endMark, ⟨cut before [], mark⟩) := by
  simp only [perform, advance_cut_nil, moveTo]

theorem perform_accept_cons (hfit : LinesFit (before ++ c :: after)) :
    perform ⟨cut before (c :: after), mark⟩ (.accept c : Op σ) =
      (.bool true, ⟨cut (before ++ [c]) after, mark⟩) := by
  simp only [perform, accept_cut_cons hfit, if_pos, moveTo]

theorem perform_accept_other (hfit : LinesFit (before ++ after)) {expected : Char}
    (hother : after.head? ≠ some expected) :
    perform ⟨cut before after, mark⟩ (.accept expected : Op σ) =
      (.bool false, ⟨cut before after, mark⟩) := by
  cases after with
  | nil => simp only [perform, accept_cut_nil, moveTo]
  | cons c rest =>
    have hne : c ≠ expected := by simpa using hother
    simp only [perform, accept_cut_cons hfit, if_neg hne, moveTo]

theorem perform_eatWith (hfit : LinesFit (before ++ after)) (test : σ → Char → Bool × σ)
    (state : σ) :
    perform ⟨cut before after, mark⟩ (.eatWith test state) =
      (.state (eaten test state after).2.2,
        ⟨cut (before ++ (eaten test state after).1) (eaten test state after).2.1, mark⟩) := by
  simp only [perform, eatWith_cut hfit, moveTo]

theorem perform_sliceFrom (b : Bookmarked) (start : Nat) :
    (b.perform (.sliceFrom start : Op σ)).2 = b := by
  unfold perform
  dsimp only
  split <;> rfl

theorem perform_remaining (before after : List Char) (mark : Cursor) :
    perform ⟨cut before after, mark⟩ (.remaining : Op σ) =
      (.text (String.ofList after), ⟨cut before after, mark⟩) := by
  simp only [perform, remaining_cut]

/-! ## Any operation -/

/-- **One operation** other than restoring moves the cursor over some of the characters ahead. -/
theorem exists_moved (mark : Cursor) (hfit : LinesFit (before ++ after)) {op : Op σ}
    (hop : op ≠ .restore) :
    ∃ text rest, text ++ rest = after ∧
      (perform ⟨cut before after, mark⟩ op).2.cursor = cut (before ++ text) rest := by
  have hstays : ∀ b : Bookmarked, b.cursor = cut before after →
      ∃ text rest, text ++ rest = after ∧ b.cursor = cut (before ++ text) rest :=
    fun b hb => ⟨[], after, rfl, by rw [hb, List.append_nil]⟩
  cases op with
  | peek n => exact hstays _ (by rw [perform_peek])
  | advance =>
    cases after with
    | nil => exact hstays _ (by rw [perform_advance_nil])
    | cons c rest => exact ⟨[c], rest, rfl, by rw [perform_advance_cons hfit]⟩
  | accept expected =>
    by_cases hnext : after.head? = some expected
    · obtain ⟨rest, rfl⟩ := List.head?_eq_some_iff.mp hnext
      exact ⟨[expected], rest, rfl, by rw [perform_accept_cons hfit]⟩
    · exact hstays _ (by rw [perform_accept_other hfit hnext])
  | eatWith test state =>
    exact ⟨_, _, eaten_append test state after, by rw [perform_eatWith hfit]⟩
  | sliceFrom start => exact hstays _ (by rw [perform_sliceFrom])
  | remaining => exact hstays _ (by rw [perform_remaining])
  | source => exact hstays _ rfl
  | save => exact hstays _ rfl
  | restore => exact absurd rfl hop

/-- The bookmark stays, or it is put where the cursor is. -/
theorem bookmark_perform (b : Bookmarked) (op : Op σ) :
    (b.perform op).2.bookmark = b.bookmark ∨ (b.perform op).2.bookmark = b.cursor := by
  cases op with
  | save => exact Or.inr rfl
  | source => exact Or.inl rfl
  | restore => exact Or.inl rfl
  | _ =>
    refine Or.inl ?_
    unfold perform
    dsimp only
    split <;> rfl

/-- The cursor and its bookmark are cuts of one source. -/
def Within (source : List Char) (b : Bookmarked) : Prop :=
  At source b.cursor ∧ At source b.bookmark

theorem Within.perform {source : List Char} {b : Bookmarked} (h : Within source b)
    (hfit : LinesFit source) (op : Op σ) : Within source (b.perform op).2 := by
  obtain ⟨hcursor, hmark⟩ := h
  constructor
  · by_cases hop : op = .restore
    · subst hop
      exact hmark
    · obtain ⟨cursor, mark⟩ := b
      obtain ⟨before, after, rfl, rfl⟩ := hcursor
      obtain ⟨text, rest, rfl, hmoved⟩ := exists_moved mark hfit hop
      exact ⟨before ++ text, rest, by rw [List.append_assoc], hmoved⟩
  · rcases bookmark_perform b op with hstays | hsaved
    · rw [hstays]
      exact hmark
    · rw [hsaved]
      exact hcursor

/-! ## Any script -/

theorem Within.performAll {source : List Char} {b : Bookmarked} (h : Within source b)
    (hfit : LinesFit source) (script : List (Op σ)) : Within source (b.performAll script) := by
  induction script generalizing b with
  | nil => exact h
  | cons op script ih => exact ih (h.perform hfit op)

theorem within_ofSource (source : String) : Within source.toList (.ofSource source) :=
  ⟨⟨[], source.toList, rfl, ofSource_eq_cut source⟩,
    ⟨[], source.toList, rfl, ofSource_eq_cut source⟩⟩

theorem Within.moves {source : List Char} {b : Bookmarked} (h : Within source b)
    (hfit : LinesFit source) : Moves σ b := by
  obtain ⟨cursor, mark⟩ := b
  obtain ⟨before, after, rfl, rfl⟩ := h.1
  have hahead : ∀ ahead, (cut before after).remaining = .ok (String.ofList ahead) →
      after = ahead := by
    intro ahead hremaining
    rw [remaining_cut, Except.ok.injEq] at hremaining
    exact String.ofList_injective hremaining
  constructor
  case forward =>
    intro op hop
    obtain ⟨text, rest, -, hmoved⟩ := exists_moved mark hfit hop
    rw [hmoved]
    simp
  case advance_next =>
    intro c ahead hremaining
    obtain rfl := hahead _ hremaining
    exact ⟨cut (before ++ [c]) ahead, perform_advance_cons hfit, by simp, remaining_cut _ _⟩
  case advance_end =>
    intro hremaining
    obtain rfl := hahead [] hremaining
    exact perform_advance_nil before mark
  case accept_next =>
    intro c ahead hremaining
    obtain rfl := hahead _ hremaining
    rw [perform_accept_cons hfit, perform_advance_cons hfit]
  case accept_other =>
    intro expected ahead hremaining hother
    obtain rfl := hahead _ hremaining
    exact perform_accept_other hfit hother
  case eats => exact fun test state => ⟨_, _, perform_eatWith hfit test state⟩
  case looks => exact fun n => ⟨_, perform_peek n⟩
  case slices => exact perform_sliceFrom _
  case shows_remaining => exact ⟨_, perform_remaining before after mark⟩
  case shows_source => rfl

/-- **Wherever a script leads, the cursor stands in its source**, and the operations do there what
they are to do. -/
theorem performAll_stands {source : String} (hfit : LinesFit source.toList)
    (script : List (Op σ)) :
    Stands source (performAll (.ofSource source) script).cursor ∧
      Moves σ (performAll (.ofSource source) script) := by
  have hwithin := (within_ofSource source).performAll hfit script
  exact ⟨hwithin.1.stands, hwithin.moves hfit⟩

theorem performAll_stands_at_nul :
    LinesFit "é\x00\n1".toList ∧
      Stands "é\x00\n1" (performAll (.ofSource "é\x00\n1")
        [.save, .advance, .accept '\x00', .eatWith (fun n _ => (n < 1, n + 1)) 0, .restore]).cursor ∧
      Moves Nat (performAll (.ofSource "é\x00\n1")
        [.save, .advance, .accept '\x00', .eatWith (fun n _ => (n < 1, n + 1)) 0, .restore]) :=
  ⟨by decide, performAll_stands (by decide) _⟩

end Bookmarked

end Cursor
end Lexical
