import Lexical.Proofs.Cursor.Reading

/-!
# Reading while a test holds

Comments, strings, numbers and words are all read by asking a test about one character after the other.
A test may remember, so how often it is asked, about what and in which order is part of what reading
does. `Accepts` says in terms of the text alone how far a test says yes, and `Eats` that this is how far
the cursor moves, with the test asked about these characters and the one that it refuses. The end of the
source is nothing to ask about; a NUL that stands in the source is.

What a test was asked is seen with a test that writes it down (`recording`). It is read with as any other
test, so nothing has to be said about the reader that is not said of the tests it is given.
-/

set_option autoImplicit false

namespace Lexical
namespace Cursor

open Text

section Tests

variable {σ : Type}

/-- What a test remembers after it was asked about the characters of a text in order. -/
def remembered (test : σ → Char → Bool × σ) (state : σ) (asked : List Char) : σ :=
  asked.foldl (fun state ch => (test state ch).2) state

/-- The test that answers as another one does and writes down what it is asked about. -/
def recording (test : σ → Char → Bool × σ) (memory : σ × List Char) (ch : Char) :
    Bool × σ × List Char :=
  ((test memory.1 ch).1, (test memory.1 ch).2, memory.2 ++ [ch])

/-- A test that is asked about the characters of a text in order says yes `k` times, and then no unless
the text is over. -/
structure Accepts (test : σ → Char → Bool × σ) (state : σ) (text : List Char) (k : Nat) : Prop where
  length_le : k ≤ text.length
  yes : ∀ i (hi : i < text.length), i < k →
    (test (remembered test state (text.take i)) text[i]).1 = true
  no : ∀ hk : k < text.length, (test (remembered test state (text.take k)) text[k]).1 = false

/-- What a cursor does with a test, where `ahead` is the text in front of it and the test says yes to
`k` characters of that. -/
structure Eats (source : String) (c : Cursor) (test : σ → Char → Bool × σ) (state : σ)
    (ahead : List Char) (k : Nat) : Prop where
  remaining : c.remaining = .ok (String.ofList ahead)
  accepts : Accepts test state ahead k
  eats : c.eatWith test state =
    if c.line + (ahead.take k).count '\n' ≤ lastLine then
      .ok ({ c with
        position := c.position + width (ahead.take k)
        line := c.line + (ahead.take k).count '\n' }, remembered test state (ahead.take (k + 1)))
    else .error .lineOverflow
  asks : c.eatWith (recording test) (state, []) =
    (c.eatWith test state).map fun (next, after) => (next, after, ahead.take (k + 1))
  calls : (ahead.take (k + 1)).length = if k < ahead.length then k + 1 else k
  leaves : ∀ next after, c.eatWith test state = .ok (next, after) →
    next.remaining = .ok (String.ofList (ahead.drop k))
  fits : LinesFit source.toList → c.line + (ahead.take k).count '\n' ≤ lastLine

variable {test : σ → Char → Bool × σ} {state : σ} {text : List Char} {c : Char} {k : Nat}

/-! ## How far a test says yes -/

theorem Accepts.tail (h : Accepts test state (c :: text) (k + 1)) :
    Accepts test (test state c).2 text k where
  length_le := Nat.le_of_succ_le_succ h.length_le
  yes i hi hik := h.yes (i + 1) (Nat.succ_lt_succ hi) (Nat.succ_lt_succ hik)
  no hk := h.no (Nat.succ_lt_succ hk)

theorem Accepts.cons (hyes : (test state c).1 = true) (h : Accepts test (test state c).2 text k) :
    Accepts test state (c :: text) (k + 1) where
  length_le := Nat.succ_le_succ h.length_le
  yes
    | 0, _, _ => hyes
    | i + 1, hi, hik => h.yes i (Nat.lt_of_succ_lt_succ hi) (Nat.lt_of_succ_lt_succ hik)
  no hk := h.no (Nat.lt_of_succ_lt_succ hk)

/-- Every test says yes so far and no further. -/
theorem exists_accepts (test : σ → Char → Bool × σ) (state : σ) (text : List Char) :
    ∃ k, Accepts test state text k := by
  induction text generalizing state with
  | nil => exact ⟨0, Nat.le_refl 0, fun i hi => by simp at hi, fun hk => by simp at hk⟩
  | cons c rest ih =>
    cases hfirst : (test state c).1 with
    | false => exact ⟨0, Nat.zero_le _, fun i _ hi => absurd hi (Nat.not_lt_zero i), fun _ => hfirst⟩
    | true =>
      obtain ⟨k, hrest⟩ := ih (test state c).2
      exact ⟨k + 1, hrest.cons hfirst⟩

/-- **What is taken is what the test says yes to**, and the test has been asked about one character
more, if there is one. -/
theorem eaten_of_accepts (h : Accepts test state text k) :
    eaten test state text = (text.take k, text.drop k, remembered test state (text.take (k + 1))) := by
  induction text generalizing state k with
  | nil =>
    obtain rfl : k = 0 := Nat.le_zero.mp h.length_le
    rfl
  | cons c rest ih =>
    rcases htest : test state c with ⟨answer, next⟩
    cases k with
    | zero =>
      have hanswer := h.no (Nat.zero_lt_succ _)
      simp only [List.take_zero, remembered, List.foldl_nil, List.getElem_cons_zero, htest] at hanswer
      subst hanswer
      simp [eaten, htest, remembered]
    | succ k =>
      have hanswer := h.yes 0 (Nat.zero_lt_succ _) (Nat.zero_lt_succ _)
      have hrest := h.tail
      simp only [List.take_zero, remembered, List.foldl_nil, List.getElem_cons_zero, htest] at hanswer
      subst hanswer
      rw [htest] at hrest
      simp [eaten, htest, ih hrest, remembered]

theorem remembered_recording (seen asked : List Char) :
    remembered (recording test) (state, seen) asked =
      (remembered test state asked, seen ++ asked) := by
  induction asked generalizing state seen with
  | nil => simp [remembered]
  | cons c rest ih =>
    have hrest : remembered (recording test) ((test state c).2, seen ++ [c]) rest =
        (remembered test (test state c).2 rest, seen ++ [c] ++ rest) := ih (seen ++ [c])
    rw [List.append_assoc] at hrest
    exact hrest

/-- Writing down what is asked changes no answer. -/
theorem Accepts.recording (h : Accepts test state text k) (seen : List Char) :
    Accepts (recording test) (state, seen) text k where
  length_le := h.length_le
  yes i hi hik := by
    rw [remembered_recording]
    exact h.yes i hi hik
  no hk := by
    rw [remembered_recording]
    exact h.no hk

/-! ## Reading with a test -/

variable {before after : List Char}

theorem eats_cut (hline : lineAt before ≤ lastLine) (h : Accepts test state after k) :
    Eats (String.ofList (before ++ after)) (cut before after) test state after k := by
  have hlines := lineAt_extend before (after.take k)
  have hsource : before ++ after.take k ++ after.drop k = before ++ after := by
    rw [List.append_assoc, List.take_append_drop]
  have hmoved : (cut before after).eatWith test state =
      if lineAt (before ++ after.take k) ≤ lastLine then
        .ok (cut (before ++ after.take k) (after.drop k), remembered test state (after.take (k + 1)))
      else .error .lineOverflow := by
    rw [eatWith_cut_eq hline, eaten_of_accepts h]
  constructor
  case remaining => exact remaining_cut before after
  case accepts => exact h
  case eats =>
    rw [hmoved, hlines]
    simp only [cut, hsource, width_append, hlines]
    rfl
  case asks =>
    rw [hmoved, eatWith_cut_eq hline, eaten_of_accepts (h.recording []), remembered_recording]
    split <;> rfl
  case calls =>
    have hlength := h.length_le
    rw [List.length_take]
    split <;> omega
  case leaves =>
    intro next last heat
    rw [hmoved] at heat
    split at heat
    next =>
      cases heat
      exact remaining_cut _ _
    next => cases heat
  case fits =>
    intro hfit
    rw [String.toList_ofList, ← hsource] at hfit
    rw [cut_line, ← hlines]
    exact lineAt_le_lastLine hfit

end Tests

/-- **Reading with a test takes the longest part that it accepts**, wherever a script leads, and asks it
about that part and one character more. -/
theorem performAll_eats {σ τ : Type} (source : String) (script : List (Op τ))
    (test : σ → Char → Bool × σ) (state : σ) :
    ∃ ahead k, Eats source (Bookmarked.performAll (.ofSource source) script).cursor test state
      ahead k := by
  obtain ⟨before, after, hsource, hcut, hline⟩ := Bookmarked.exists_cut_performAll source script
  obtain ⟨k, haccepts⟩ := exists_accepts test state after
  have htext : source = String.ofList (before ++ after) := by rw [hsource, String.ofList_toList]
  rw [hcut, htext]
  exact ⟨after, k, eats_cut hline haccepts⟩

end Cursor
end Lexical
