import Lexical.Proofs.Grammar.Longest

/-!
# When a token goes on

A text that a rule accepts is the longest match in front of what follows it unless some of what
follows could be added to it (`longest_iff`). Which characters those are depends on the rule
alone, and for each rule there is one answer here, in terms of the first character that follows
or of the first two.

A number without a fraction is the one case that needs two: the point that follows it belongs to
it only if a digit follows the point.
-/

set_option autoImplicit false

namespace Lexical

open CharClass Text

/-- Some of what follows a text can be added to it. -/
def Extends (text after : List Char) : Prop :=
  ∃ more kind, more ≠ [] ∧ more <+: after ∧ Rule kind (text ++ more)

variable {text after : List Char}

theorem longest_iff {kind : Kind} (h : Rule kind text) :
    Longest kind text (text ++ after) ↔ ¬ Extends text after := by
  constructor
  · rintro hlongest ⟨more, other, hne, hmore, hrule⟩
    have hfront : text ++ more <+: text ++ after := (List.prefix_append_right_inj text).mpr hmore
    have hle := hlongest.longest _ _ hrule hfront
    rw [List.length_append] at hle
    have hpos := List.length_pos_iff.mpr hne
    omega
  · intro hextends
    -- Two prefixes of one text are comparable, and the longer one would be an extension.
    refine ⟨h, List.prefix_append text after, ?_⟩
    intro other otherKind hrule hfront
    rcases List.prefix_or_prefix_of_prefix hfront (List.prefix_append text after) with hle | hle
    · exact hle.length_le
    · obtain ⟨more, rfl⟩ := hle
      cases more with
      | nil => simp
      | cons d more =>
        have hmore := (List.prefix_append_right_inj text).mp hfront
        exact absurd ⟨_, _, List.cons_ne_nil d more, hmore, hrule⟩ hextends

/-! ## Texts that never go on -/

theorem not_extends_punctuator {c : Char} {kind : Kind} (h : (c, kind) ∈ punctuators) :
    ¬ Extends [c] after := by
  rintro ⟨more, other, hne, -, hrule⟩
  exact hne (hrule.of_punctuator (mem_punctuators.mp h))

theorem not_extends_string {body : List Char} (hbody : '"' ∉ body) :
    ¬ Extends ('"' :: body ++ ['"']) after := by
  rintro ⟨more, other, hne, -, hrule⟩
  obtain ⟨whole, heq, hwhole⟩ := Rule.of_quote hrule
  -- The closing quote of the longer text would have to be the one that is there.
  have hsplit : body ++ '"' :: more = whole ++ '"' :: [] := by simpa using heq
  obtain rfl := run_unique hbody hwhole hsplit
  exact hne (List.cons.inj (List.append_cancel_left hsplit)).2

/-! ## Operators -/

theorem extends_operator {c : Char} {pair : Kind × Kind} (h : Kind.operator? c = some pair) :
    Extends [c] after ↔ ∃ rest, after = '=' :: rest := by
  obtain ⟨alone, extended⟩ := pair
  constructor
  · rintro ⟨more, other, hne, ⟨rest, rfl⟩, hrule⟩
    rcases hrule.of_operator h with hmore | hmore
    · exact absurd hmore hne
    · exact ⟨rest, congrArg (· ++ rest) hmore⟩
  · rintro ⟨rest, rfl⟩
    have hmem : ([c, '='], extended) ∈ operators :=
      mem_operators.mpr ⟨alone, extended, h, Or.inr ⟨rfl, rfl⟩⟩
    exact ⟨['='], extended, by simp, ⟨rest, rfl⟩, .operator hmem⟩

theorem not_extends_operator {c : Char} {pair : Kind × Kind} (h : Kind.operator? c = some pair) :
    ¬ Extends [c, '='] after := by
  rintro ⟨more, other, hne, -, hrule⟩
  rcases hrule.of_operator h with hmore | hmore
  · cases hmore
  · exact hne (List.cons.inj hmore).2

/-! ## Words -/

theorem extends_word (h : IsWord text) :
    Extends text after ↔ ∃ d rest, after = d :: rest ∧ (IsLetter d ∨ d.isDigit = true) := by
  cases text with
  | nil => exact h.elim
  | cons c tail =>
    constructor
    · rintro ⟨more, other, hne, ⟨rest, rfl⟩, hrule⟩
      obtain ⟨d, more, rfl⟩ := List.exists_cons_of_ne_nil hne
      have hword := Rule.of_isAlpha (isAlpha_iff.mpr h.1) hrule
      exact ⟨d, more ++ rest, rfl, hword.2 d (by simp)⟩
    · rintro ⟨d, rest, rfl, hd⟩
      have hword : IsWord (c :: tail ++ [d]) := by
        refine ⟨h.1, ?_⟩
        intro e he
        rcases List.mem_append.mp he with he | he
        · exact h.2 e he
        · rwa [List.mem_singleton.mp he]
      exact ⟨[d], _, by simp, ⟨rest, rfl⟩, .word hword (isWordKind_ofWord _)⟩

/-! ## Numbers -/

theorem IsDigits.append {ds : List Char} (h : IsDigits text) (hds : ∀ d ∈ ds, d.isDigit = true) :
    IsDigits (text ++ ds) := by
  refine ⟨by simp [h.1], ?_⟩
  intro d hd
  rcases List.mem_append.mp hd with hd | hd
  · exact h.2 d hd
  · exact hds d hd

theorem IsDigits.not_mem_point (h : IsDigits text) : '.' ∉ text := by
  intro hmem
  exact absurd (h.2 '.' hmem) (by decide)

theorem isNumber_of_rule {kind : Kind} {more : List Char} (h : IsNumber text)
    (hrule : Rule kind (text ++ more)) : IsNumber (text ++ more) := by
  cases text with
  | nil =>
    rcases h with h | ⟨whole, fraction, heq, -, -⟩
    · exact absurd rfl h.1
    · cases whole <;> cases heq
  | cons c tail => exact hrule.of_isDigit (isDigit_of_isNumber h)

theorem extends_digits (h : IsDigits text) :
    Extends text after ↔
      ∃ d rest, d.isDigit = true ∧ (after = d :: rest ∨ after = '.' :: d :: rest) := by
  constructor
  · rintro ⟨more, other, hne, ⟨rest, rfl⟩, hrule⟩
    obtain ⟨e, more, rfl⟩ := List.exists_cons_of_ne_nil hne
    rcases isNumber_of_rule (Or.inl h) hrule with hdigits | ⟨whole, fraction, heq, hwhole, hfraction⟩
    · exact ⟨e, more ++ rest, hdigits.2 e (by simp), Or.inl rfl⟩
    · obtain ⟨d, fraction, rfl⟩ := List.exists_cons_of_ne_nil hfraction.1
      have hd : d.isDigit = true := hfraction.2 d List.mem_cons_self
      -- The point of the longer number is the first character that follows, or one after it.
      rcases List.append_eq_append_iff.mp heq with ⟨between, rfl, hmore⟩ | ⟨between, rfl, hmore⟩
      · cases between with
        | nil =>
          obtain ⟨rfl, rfl⟩ := List.cons.inj hmore
          exact ⟨d, fraction ++ rest, hd, Or.inr rfl⟩
        | cons f between =>
          obtain ⟨rfl, -⟩ := List.cons.inj hmore
          exact ⟨e, more ++ rest, hwhole.2 e (by simp), Or.inl rfl⟩
      · cases between with
        | nil =>
          obtain ⟨rfl, rfl⟩ := List.cons.inj hmore
          exact ⟨d, fraction ++ rest, hd, Or.inr rfl⟩
        | cons f between =>
          obtain ⟨rfl, -⟩ := List.cons.inj hmore
          exact absurd (by simp) h.not_mem_point
  · rintro ⟨d, rest, hd, rfl | rfl⟩
    · refine ⟨[d], .number, by simp, ⟨rest, rfl⟩, .number (Or.inl ?_)⟩
      exact h.append (by simpa using hd)
    · refine ⟨['.', d], .number, by simp, ⟨rest, rfl⟩, .number (Or.inr ?_)⟩
      exact ⟨text, [d], rfl, h, by simp, by simpa using hd⟩

theorem extends_fraction {whole fraction : List Char} (hwhole : IsDigits whole)
    (hfraction : IsDigits fraction) :
    Extends (whole ++ '.' :: fraction) after ↔ ∃ d rest, d.isDigit = true ∧ after = d :: rest := by
  constructor
  · rintro ⟨more, other, hne, ⟨rest, rfl⟩, hrule⟩
    obtain ⟨d, more, rfl⟩ := List.exists_cons_of_ne_nil hne
    have hnumber := isNumber_of_rule (Or.inr ⟨whole, fraction, rfl, hwhole, hfraction⟩) hrule
    rcases hnumber with hdigits | ⟨whole', fraction', heq, hwhole', hfraction'⟩
    · exact absurd (by simp) hdigits.not_mem_point
    · have hsplit : whole ++ '.' :: (fraction ++ d :: more) = whole' ++ '.' :: fraction' := by
        simpa using heq
      obtain rfl := run_unique hwhole.not_mem_point hwhole'.not_mem_point hsplit
      obtain rfl := (List.cons.inj (List.append_cancel_left hsplit)).2
      exact ⟨d, more ++ rest, hfraction'.2 d (by simp), rfl⟩
  · rintro ⟨d, rest, hd, rfl⟩
    refine ⟨[d], .number, by simp, ⟨rest, rfl⟩, .number (Or.inr ?_)⟩
    exact ⟨whole, fraction ++ [d], by simp, hwhole, hfraction.append (by simpa using hd)⟩

/-! ## Two bytes are enough -/

theorem utf8Size_of_le {c d : Char} (hle : c ≤ d) (hd : d.toNat < 128) : c.utf8Size = 1 :=
  utf8Size_ascii (Nat.lt_of_le_of_lt (UInt32.le_iff_toNat_le.mp hle) hd)

theorem utf8Size_of_isDigit {c : Char} (hc : c.isDigit = true) : c.utf8Size = 1 := by
  rw [← isDigit_eq, isDigit, Bool.and_eq_true, decide_eq_true_eq, decide_eq_true_eq] at hc
  exact utf8Size_of_le hc.2 (by decide)

theorem utf8Size_of_isLetter {c : Char} (hc : IsLetter c) : c.utf8Size = 1 := by
  rw [← isAlpha_iff] at hc
  simp only [isAlpha, Bool.or_eq_true, Bool.and_eq_true, decide_eq_true_eq] at hc
  rcases hc with (hlower | hupper) | rfl
  · exact utf8Size_of_le hlower.2 (by decide)
  · exact utf8Size_of_le hupper.2 (by decide)
  · rfl

/-- **A text that goes on does so within the next two bytes.** -/
theorem Extends.within {kind : Kind} (hrule : Rule kind text) (h : Extends text after) :
    ∃ front, front <+: after ∧ width front ≤ 2 ∧ Extends text front := by
  cases hrule with
  | punctuator hmem => exact absurd h (not_extends_punctuator hmem)
  | operator hmem =>
    cases text with
    | nil => simp [operators] at hmem
    | cons c tail =>
      obtain ⟨alone, extended, hop, ⟨rfl, -⟩ | ⟨rfl, -⟩⟩ := mem_operators.mp hmem
      · obtain ⟨rest, rfl⟩ := (extends_operator hop).mp h
        exact ⟨['='], ⟨rest, rfl⟩, by decide, (extends_operator hop).mpr ⟨[], rfl⟩⟩
      · exact absurd h (not_extends_operator hop)
  | word hword _ =>
    obtain ⟨d, rest, rfl, hd⟩ := (extends_word hword).mp h
    have hsize : d.utf8Size = 1 := hd.elim utf8Size_of_isLetter utf8Size_of_isDigit
    exact ⟨[d], ⟨rest, rfl⟩, by simp [hsize], (extends_word hword).mpr ⟨d, [], rfl, hd⟩⟩
  | number hnumber =>
    rcases hnumber with hdigits | ⟨whole, fraction, rfl, hwhole, hfraction⟩
    · obtain ⟨d, rest, hd, rfl | rfl⟩ := (extends_digits hdigits).mp h
      · refine ⟨[d], ⟨rest, rfl⟩, by simp [utf8Size_of_isDigit hd], ?_⟩
        exact (extends_digits hdigits).mpr ⟨d, [], hd, Or.inl rfl⟩
      · -- The one rule that looks at two characters.
        have hpoint : '.'.utf8Size = 1 := rfl
        refine ⟨['.', d], ⟨rest, rfl⟩, by simp [hpoint, utf8Size_of_isDigit hd], ?_⟩
        exact (extends_digits hdigits).mpr ⟨d, [], hd, Or.inr rfl⟩
    · obtain ⟨d, rest, hd, rfl⟩ := (extends_fraction hwhole hfraction).mp h
      refine ⟨[d], ⟨rest, rfl⟩, by simp [utf8Size_of_isDigit hd], ?_⟩
      exact (extends_fraction hwhole hfraction).mpr ⟨d, [], hd, rfl⟩
  | string hbody => exact absurd h (not_extends_string hbody)

end Lexical
