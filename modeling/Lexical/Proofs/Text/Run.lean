/-!
# Runs of characters

A rule that takes "as long as a test holds" is `takeWhile`, and what it leaves is `dropWhile`.
Here is the way back: from a text that is known to be a run followed by something else, to what
the two functions answer.
-/

set_option autoImplicit false

namespace Lexical
namespace Text

variable {test : Char → Bool} {run rest rest' : List Char}

/-- The first character of a text, if it has one, fails a test. -/
def Stops (test : Char → Bool) (rest : List Char) : Prop := ∀ c ∈ rest.head?, test c = false

theorem stops_nil : Stops test [] := by
  intro c hc
  simp at hc

theorem stops_cons {c : Char} : Stops test (c :: rest) ↔ test c = false := by
  simp [Stops]

theorem takeWhile_run (hrun : ∀ c ∈ run, test c = true) (hrest : Stops test rest) :
    (run ++ rest).takeWhile test = run := by
  rw [List.takeWhile_append_of_pos hrun]
  cases rest with
  | nil => simp
  | cons c rest =>
    rw [List.takeWhile_cons_of_neg (by simpa using stops_cons.mp hrest), List.append_nil]

theorem dropWhile_run (hrun : ∀ c ∈ run, test c = true) (hrest : Stops test rest) :
    (run ++ rest).dropWhile test = rest := by
  rw [List.dropWhile_append_of_pos hrun]
  cases rest with
  | nil => rfl
  | cons c rest => rw [List.dropWhile_cons_of_neg (by simpa using stops_cons.mp hrest)]

/-- What is left after the longest run starts with a character that fails the test. -/
theorem stops_dropWhile (test : Char → Bool) (text : List Char) :
    Stops test (text.dropWhile test) := by
  induction text with
  | nil => exact stops_nil
  | cons c rest ih =>
    cases hc : test c with
    | true => rwa [List.dropWhile_cons_of_pos hc]
    | false =>
      rw [List.dropWhile_cons_of_neg (by simp [hc])]
      exact stops_cons.mpr hc

theorem of_mem_takeWhile {c : Char} {text : List Char} (h : c ∈ text.takeWhile test) :
    test c = true :=
  List.all_eq_true.mp List.all_takeWhile c h

/-! ## Up to a character -/

theorem ne_of_not_mem {q : Char} (h : q ∉ run) : ∀ c ∈ run, decide (c ≠ q) = true := by
  intro c hc
  rw [decide_eq_true_eq]
  rintro rfl
  exact h hc

theorem stops_ne_cons (q : Char) (rest : List Char) : Stops (· ≠ q) (q :: rest) :=
  stops_cons.mpr (by simp)

/-- A text can be cut in one way only before the first place of a character. -/
theorem run_unique {q : Char} {run' : List Char} (hrun : q ∉ run) (hrun' : q ∉ run')
    (h : run ++ q :: rest = run' ++ q :: rest') : run = run' := by
  have htake := congrArg (List.takeWhile (· ≠ q)) h
  rwa [takeWhile_run (ne_of_not_mem hrun) (stops_ne_cons q rest),
    takeWhile_run (ne_of_not_mem hrun') (stops_ne_cons q rest')] at htake

theorem prefix_of_not_mem {q : Char} (h : run <+: rest ++ q :: rest') (hrun : q ∉ run) :
    run <+: rest := by
  rcases List.prefix_or_prefix_of_prefix h (List.prefix_append rest (q :: rest')) with h' | ⟨r, rfl⟩
  · exact h'
  · cases r with
    | nil => exact ⟨[], by simp⟩
    | cons d r =>
      obtain ⟨rfl, -⟩ := List.cons_prefix_cons.mp ((List.prefix_append_right_inj rest).mp h)
      exact absurd (by simp) hrun

/-- A row of characters that pass the test lies within the longest such row. -/
theorem prefix_takeWhile {text : List Char} (hrun : ∀ c ∈ run, test c = true)
    (h : run <+: text) : run <+: text.takeWhile test := by
  obtain ⟨more, rfl⟩ := h
  rw [List.takeWhile_append_of_pos hrun]
  exact List.prefix_append run _

end Text
end Lexical
