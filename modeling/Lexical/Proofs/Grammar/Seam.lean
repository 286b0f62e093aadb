import Lexical.Proofs.Grammar.Extension
import Lexical.Proofs.Grammar.Literal

/-!
# Elements at a seam

What does an element look like when the text behind it is replaced by another one? A rule that
takes as much as it can asks what follows, so the answer is: the same, if nothing of the other
text extends it (`first_again`). Three replacements never extend anything. Cutting off what
follows leaves less to go on with (`first_cut`). A line break goes on with nothing but a string
that is still open (`first_before_break`). And text that is put behind two bytes or more comes
too late (`first_before_room`).
-/

set_option autoImplicit false

namespace Lexical

open CharClass Text

theorem Extends.append {text front : List Char} (h : Extends text front) (back : List Char) :
    Extends text (front ++ back) := by
  obtain ⟨more, kind, hne, hmore, hrule⟩ := h
  exact ⟨more, kind, hne, hmore.trans (List.prefix_append front back), hrule⟩

/-- No rule but that of strings has a line break in its texts, and a string that is closed does
not go on. -/
theorem Extends.of_break {kind : Kind} {text after more : List Char} (hrule : Rule kind text)
    (h : Extends text (after ++ '\n' :: more)) : Extends text after := by
  cases text with
  | nil => exact absurd hrule not_rule_nil
  | cons c tail =>
    by_cases hquote : c = '"'
    · subst hquote
      obtain ⟨body, rfl, hbody⟩ := hrule.of_quote
      exact absurd h (not_extends_string hbody)
    · obtain ⟨ext, other, hne, hext, hother⟩ := h
      have hbreak : '\n' ∉ ext :=
        fun hmem => hother.not_mem_break hquote (List.mem_append_right (c :: tail) hmem)
      exact ⟨ext, other, hne, prefix_of_not_mem hext hbreak, hother⟩

theorem Extends.of_room {kind : Kind} {text after more : List Char} (hrule : Rule kind text)
    (hroom : 2 ≤ width after) (h : Extends text (after ++ more)) : Extends text after := by
  obtain ⟨front, hfront, hwidth, hext⟩ := h.within hrule
  rcases List.prefix_or_prefix_of_prefix hfront (List.prefix_append after more) with hle | hle
  · obtain ⟨back, rfl⟩ := hle
    exact hext.append back
  · -- What extends the text is no longer than the room, so it is all of it.
    obtain ⟨back, rfl⟩ := hle
    cases back with
    | nil => rwa [List.append_nil] at hext
    | cons d back =>
      have hpos := width_pos (List.cons_ne_nil d back)
      rw [width_append] at hwidth
      omega

namespace Piece

variable {c : Char} {rest tail after other : List Char} {content : Content}

/-! ## Replacing what follows -/

/-- An error is a string that goes to the end, or a character that is one before any text. -/
theorem first_error {e : Error} (h : (first c rest).1.content = .error e) :
    e = .unterminatedString ∧ (first c rest).2 = [] ∨
      e = .unexpectedCharacter c ∧ ∀ other, first c other = (⟨.error e, [c]⟩, other) := by
  revert h
  fun_cases first c rest
  case case2 alone extended _ _ =>
    fun_cases operator alone extended c rest <;> intro h <;> cases h
  case case5 =>
    unfold string
    cases rest.dropWhile (· ≠ '"') with
    | nil =>
      intro h
      cases h
      exact Or.inl ⟨rfl, rfl⟩
    | cons quote after =>
      intro h
      cases h
  case case8 ho hp hcomment hblank hquote hdigit halpha =>
    intro h
    cases h
    refine Or.inr ⟨rfl, fun other => ?_⟩
    rw [first, hp, ho]
    dsimp only
    rw [if_neg hcomment, if_neg hblank, if_neg hquote, if_neg hdigit, if_neg halpha]
  all_goals
    intro h
    cases h

theorem unexpected_again {e : Error}
    (h : first c (tail ++ after) = (⟨.error e, c :: tail⟩, after))
    (hopen : e ≠ .unterminatedString) :
    tail = [] ∧ ∀ other, first c other = (⟨.error e, [c]⟩, other) := by
  have hcontent : (first c (tail ++ after)).1.content = .error e := by rw [h]
  rcases first_error hcontent with ⟨heq, -⟩ | ⟨-, hall⟩
  · exact absurd heq hopen
  · have hsame := hall (tail ++ after)
    rw [h] at hsame
    exact ⟨by simpa using congrArg (fun taken => taken.1.text) hsame, hall⟩

theorem not_extends_first (h : first c (tail ++ after) = (⟨content, c :: tail⟩, after))
    (hblank : content ≠ .blank) : ¬ Extends (c :: tail) after := by
  have hcorrect := correct_first c (tail ++ after)
  rw [h] at hcorrect
  cases content with
  | blank => exact absurd rfl hblank
  | token kind literal => exact (longest_iff hcorrect.1.rule).mp hcorrect.1
  | error e =>
    rintro ⟨more, kind, -, hmore, hrule⟩
    exact hcorrect kind _ ((List.prefix_append_right_inj (c :: tail)).mpr hmore) hrule

/-- **An element is taken again** in front of another text that does not extend it. -/
theorem first_again (h : first c (tail ++ after) = (⟨content, c :: tail⟩, after))
    (hblank : content ≠ .blank) (hopen : content ≠ .error .unterminatedString)
    (hother : ¬ Extends (c :: tail) other) :
    first c (tail ++ other) = (⟨content, c :: tail⟩, other) := by
  have hcontent : (first c (tail ++ after)).1.content = content := by rw [h]
  cases content with
  | blank => exact absurd rfl hblank
  | error e =>
    obtain ⟨rfl, hall⟩ := unexpected_again h (by simpa using hopen)
    exact hall other
  | token kind literal =>
    have hcorrect := correct_first c (tail ++ after)
    rw [h] at hcorrect
    have hlongest : Longest kind (c :: tail) (c :: (tail ++ other)) :=
      (longest_iff hcorrect.1.rule).mpr hother
    obtain ⟨literal', hfirst⟩ := first_of_longest hlongest
    -- The rules leave the value of a number open, but it is a function of the text.
    have hliteral := literal_first hcontent
    have hliteral' := literal_first (congrArg (fun taken => taken.1.content) hfirst)
    rw [h] at hliteral
    rw [hfirst] at hliteral'
    rw [hfirst, hliteral', hliteral]

theorem exists_tail (c : Char) (rest : List Char) :
    ∃ tail, (first c rest).1.text = c :: tail ∧ rest = tail ++ (first c rest).2 := by
  have hhead := head?_first c rest
  have hsplit := first_append c rest
  cases htext : (first c rest).1.text with
  | nil =>
    rw [htext] at hhead
    cases hhead
  | cons d tail =>
    rw [htext] at hhead hsplit
    obtain ⟨rfl, hrest⟩ := List.cons.inj hsplit
    exact ⟨tail, rfl, hrest.symm⟩

theorem content_ne_blank (hc : StartsElement c) (rest : List Char) :
    (first c rest).1.content ≠ .blank := by
  intro hblank
  have hshown := isElement_first hc [] rest
  simp [Placed.isElement, hblank] at hshown

/-! ## Cutting off what follows -/

/-- An element stays what it is if a part of the text behind it is cut off. -/
theorem first_cut (hc : StartsElement c) {front back : List Char}
    (hrest : (first c rest).2 = front ++ back) :
    ∃ tail, (first c rest).1.text = c :: tail ∧
      first c (tail ++ front) = ((first c rest).1, front) := by
  obtain ⟨tail, htext, hsplit⟩ := exists_tail c rest
  have hfirst : first c (tail ++ (front ++ back)) =
      (⟨(first c rest).1.content, c :: tail⟩, front ++ back) := by
    rw [← hrest, ← htext, ← hsplit]
  have hblank := content_ne_blank hc rest
  refine ⟨tail, htext, ?_⟩
  by_cases hopen : (first c rest).1.content = .error .unterminatedString
  · -- Nothing stands behind a string that goes to the end, so there is nothing to cut off.
    have hend : (first c rest).2 = [] := by
      rcases first_error hopen with ⟨-, hend⟩ | ⟨hother, -⟩
      · exact hend
      · cases hother
    obtain ⟨rfl, rfl⟩ := List.append_eq_nil_iff.mp (hrest.symm.trans hend)
    rw [← htext] at hfirst
    exact hfirst
  · have hfront : ¬ Extends (c :: tail) front :=
      fun hext => not_extends_first hfirst hblank (hext.append back)
    rw [first_again hfirst hblank hopen hfront, ← htext]

/-! ## More text behind -/

theorem not_extends_more {more : List Char}
    (h : first c (tail ++ after) = (⟨content, c :: tail⟩, after))
    (hblank : content ≠ .blank) (hopen : content ≠ .error .unterminatedString)
    (hwithin : ∀ kind, Rule kind (c :: tail) → Extends (c :: tail) (after ++ more) →
      Extends (c :: tail) after) : ¬ Extends (c :: tail) (after ++ more) := by
  cases content with
  | blank => exact absurd rfl hblank
  | error e =>
    obtain ⟨rfl, hall⟩ := unexpected_again h (by simpa using hopen)
    exact not_extends_first (hall (after ++ more)) hblank
  | token kind literal =>
    have hcorrect := correct_first c (tail ++ after)
    rw [h] at hcorrect
    intro hmore
    exact not_extends_first h hblank (hwithin kind hcorrect.1.rule hmore)

/-- An element that is not left open stays what it is in front of more text, if whatever extends
it there extended it before. -/
theorem first_before {more : List Char} (hc : StartsElement c)
    (hopen : (first c rest).1.content ≠ .error .unterminatedString)
    (hwithin : ∀ kind, Rule kind (first c rest).1.text →
      Extends (first c rest).1.text ((first c rest).2 ++ more) →
        Extends (first c rest).1.text (first c rest).2) :
    first c (rest ++ more) = ((first c rest).1, (first c rest).2 ++ more) := by
  obtain ⟨tail, htext, hsplit⟩ := exists_tail c rest
  have hfirst : first c (tail ++ (first c rest).2) =
      (⟨(first c rest).1.content, c :: tail⟩, (first c rest).2) := by
    rw [← htext, ← hsplit]
  rw [htext] at hwithin
  have hblank := content_ne_blank hc rest
  have hmore := not_extends_more hfirst hblank hopen hwithin
  have hagain := first_again hfirst hblank hopen hmore
  rw [← List.append_assoc, ← hsplit, ← htext] at hagain
  exact hagain

/-- An element that is not left open stays what it is in front of a new line. -/
theorem first_before_break (hc : StartsElement c)
    (hopen : (first c rest).1.content ≠ .error .unterminatedString) (more : List Char) :
    first c (rest ++ '\n' :: more) =
      ((first c rest).1, (first c rest).2 ++ '\n' :: more) :=
  first_before hc hopen fun _ hrule h => h.of_break hrule

/-- An element with two bytes behind it stays what it is in front of any text. -/
theorem first_before_room (hc : StartsElement c) (hroom : 2 ≤ width (first c rest).2)
    (more : List Char) :
    first c (rest ++ more) = ((first c rest).1, (first c rest).2 ++ more) := by
  have hopen : (first c rest).1.content ≠ .error .unterminatedString := by
    intro hopen
    rcases first_error hopen with ⟨-, hend⟩ | ⟨hother, -⟩
    · -- Nothing stands behind a string that goes to the end.
      rw [hend, width_nil] at hroom
      omega
    · cases hother
  exact first_before hc hopen fun _ hrule h => h.of_room hrule hroom

end Piece
end Lexical
