import Lexical.Proofs.Grammar.Rules
import Lexical.Proofs.Scan.Layout

/-!
# The first piece is the longest match

`Piece.first` looks one character ahead, or two after a number, and never goes back. The rules
of `Grammar/Rules.lean` know nothing of that. `correct_first` is the bridge: the token at the
front of a text is the longest text any rule accepts there, and where the front is an error no
rule accepts anything.

The converse is what rendering needs: if a text is the longest match, the first piece is that
text (`first_of_longest`).
-/

set_option autoImplicit false

namespace Lexical

open CharClass Text Cursor

/-- What a piece at the front of `whole` has to be. -/
def Piece.Correct (p : Piece) (whole : List Char) : Prop :=
  match p.content with
  | .blank => True
  | .token kind literal => Longest kind p.text whole ∧ Carries kind p.text literal
  | .error _ => ∀ kind other, other <+: whole → ¬ Rule kind other

/-! ## Prefixes that a rule accepts -/

section Front

variable {c : Char} {rest other text : List Char} {kind otherKind : Kind}

theorem exists_of_prefix_cons (h : Rule kind other) (hfront : other <+: c :: rest) :
    ∃ tail, other = c :: tail ∧ tail <+: rest := by
  cases other with
  | nil => exact absurd h not_rule_nil
  | cons d tail =>
    obtain ⟨rfl, htail⟩ := List.cons_prefix_cons.mp hfront
    exact ⟨tail, rfl, htail⟩

theorem Longest.of_cons (hrule : Rule kind text) (hfront : text <+: c :: rest)
    (hlongest : ∀ otherKind tail, Rule otherKind (c :: tail) → tail <+: rest →
      (c :: tail).length ≤ text.length) : Longest kind text (c :: rest) := by
  refine ⟨hrule, hfront, fun other otherKind h hother => ?_⟩
  obtain ⟨tail, rfl, htail⟩ := exists_of_prefix_cons h hother
  exact hlongest otherKind tail h htail

theorem carries_none (h : Valueless kind) : Carries kind text none := by
  unfold Carries
  split
  · exact absurd rfl h.1
  · exact absurd rfl h.2
  · rfl

theorem Longest.unique {whole : List Char} (h : Longest kind text whole)
    (h' : Longest otherKind other whole) : text = other := by
  have hle : text.length ≤ other.length := h'.longest text kind h.rule h.front
  exact (List.prefix_of_prefix_length_le h.front h'.front hle).eq_of_length_le
    (h.longest other otherKind h'.rule h'.front)

end Front

namespace Piece

variable {c : Char} {rest : List Char}

/-! ## Rule by rule -/

theorem correct_punctuator {kind : Kind} (hc : Kind.punctuator? c = some kind) :
    Correct ⟨.token kind none, [c]⟩ (c :: rest) := by
  have hmem : (c, kind) ∈ punctuators := mem_punctuators.mpr hc
  refine ⟨.of_cons (.punctuator hmem) ⟨rest, rfl⟩ fun otherKind tail h _ => ?_, ?_⟩
  · obtain rfl := h.of_punctuator hc
    exact Nat.le_refl _
  · exact carries_none (valueless_of_punctuator hmem)

theorem correct_operator {alone extended : Kind}
    (hc : Kind.operator? c = some (alone, extended)) :
    (operator alone extended c rest).1.Correct (c :: rest) := by
  fun_cases operator alone extended c rest
  case case1 rest =>
    have hmem : ([c, '='], extended) ∈ operators :=
      mem_operators.mpr ⟨alone, extended, hc, Or.inr ⟨rfl, rfl⟩⟩
    refine ⟨.of_cons (.operator hmem) ⟨rest, rfl⟩ fun otherKind tail h _ => ?_,
      carries_none (valueless_of_operator hmem)⟩
    rcases h.of_operator hc with rfl | rfl
    · exact Nat.le_succ 1
    · exact Nat.le_refl 2
  case case2 hnext =>
    -- The longer operator is not there, for no equals sign follows.
    have hmem : ([c], alone) ∈ operators :=
      mem_operators.mpr ⟨alone, extended, hc, Or.inl ⟨rfl, rfl⟩⟩
    refine ⟨.of_cons (.operator hmem) ⟨rest, rfl⟩ fun otherKind tail h htail => ?_,
      carries_none (valueless_of_operator hmem)⟩
    rcases h.of_operator hc with rfl | rfl
    · exact Nat.le_refl 1
    · obtain ⟨more, rfl⟩ := htail
      exact absurd rfl (hnext more)

theorem string_closed {body after : List Char} (hbody : '"' ∉ body) :
    string '"' (body ++ '"' :: after) =
      (⟨.token .string (some (.string (String.ofList body))), '"' :: body ++ ['"']⟩, after) := by
  have hrun := ne_of_not_mem hbody
  have hstop := stops_ne_cons '"' after
  unfold string
  rw [takeWhile_run hrun hstop, dropWhile_run hrun hstop]

theorem string_unclosed {rest : List Char} (hrest : '"' ∉ rest) :
    string '"' rest = (⟨.error .unterminatedString, '"' :: rest⟩, []) := by
  have htake := takeWhile_run (ne_of_not_mem hrest) stops_nil
  have hdrop := dropWhile_run (ne_of_not_mem hrest) stops_nil
  rw [List.append_nil] at htake hdrop
  unfold string
  rw [htake, hdrop]

theorem correct_string (rest : List Char) : (string '"' rest).1.Correct ('"' :: rest) := by
  by_cases hquote : '"' ∈ rest
  · obtain ⟨body, after, rfl, hbody⟩ := List.eq_append_cons_of_mem hquote
    have hfront : '"' :: body ++ ['"'] <+: '"' :: (body ++ '"' :: after) := ⟨after, by simp⟩
    rw [string_closed hbody]
    refine ⟨.of_cons (.string hbody) hfront fun otherKind tail h htail => ?_, body, rfl, rfl⟩
    obtain ⟨otherBody, rfl, hother⟩ := h.of_quote
    obtain ⟨more, hmore⟩ := htail
    rw [List.append_assoc] at hmore
    rw [run_unique hother hbody hmore]
    exact Nat.le_refl _
  · -- A text of the rule would end in a quote, and there is none.
    rw [string_unclosed hquote]
    intro kind other hfront h
    obtain ⟨tail, rfl, htail⟩ := exists_of_prefix_cons h hfront
    obtain ⟨body, rfl, -⟩ := h.of_quote
    exact hquote (htail.subset (by simp))

theorem isDigits_cons (hc : isDigit c = true) {ds : List Char}
    (hds : ∀ d ∈ ds, isDigit d = true) : IsDigits (c :: ds) := by
  refine ⟨List.cons_ne_nil c ds, fun d hd => ?_⟩
  rcases List.mem_cons.mp hd with rfl | hd
  · exact hc
  · exact hds d hd

theorem isNumber_number (hc : isDigit c = true) (rest : List Char) :
    IsNumber (number c rest).1.text := by
  have hwhole : IsDigits (c :: rest.takeWhile isDigit) :=
    isDigits_cons hc fun d hd => of_mem_takeWhile hd
  show IsNumber (c :: rest.takeWhile isDigit ++ (fraction (rest.dropWhile isDigit)).1)
  rcases fraction_eq (rest.dropWhile isDigit) with hf | ⟨ds, hf, hne, hds⟩
  · rw [hf, List.append_nil]
    exact Or.inl hwhole
  · rw [hf]
    exact Or.inr ⟨_, ds, rfl, hwhole, hne, hds⟩

/-- A number at the front is no longer than the one that is read. -/
theorem length_le_number {tail : List Char} (h : IsNumber (c :: tail)) (htail : tail <+: rest) :
    (c :: tail).length ≤ (number c rest).1.text.length := by
  show (c :: tail).length ≤
    (c :: rest.takeWhile isDigit ++ (fraction (rest.dropWhile isDigit)).1).length
  rcases h with hds | ⟨whole, digits, heq, hwhole, hdigits⟩
  · have hall : ∀ d ∈ tail, isDigit d = true := fun d hd => hds.2 d (List.mem_cons_of_mem c hd)
    have hle := (prefix_takeWhile hall htail).length_le
    simp only [List.length_cons, List.length_append]
    omega
  · -- The point of the other text ends its run of digits, so it is the point that was seen.
    obtain ⟨w, whole, rfl⟩ := List.exists_cons_of_ne_nil hwhole.1
    obtain ⟨d, digits, rfl⟩ := List.exists_cons_of_ne_nil hdigits.1
    rw [List.cons_append] at heq
    obtain ⟨rfl, rfl⟩ := List.cons.inj heq
    obtain ⟨more, rfl⟩ := htail
    have hall : ∀ d ∈ whole, isDigit d = true :=
      fun d hd => hwhole.2 d (List.mem_cons_of_mem c hd)
    have hd : isDigit d = true := hdigits.2 d List.mem_cons_self
    have hpoint : Stops isDigit ('.' :: d :: (digits ++ more)) := stops_cons.mpr (by decide)
    have hsplit : whole ++ '.' :: d :: digits ++ more =
        whole ++ '.' :: d :: (digits ++ more) := by simp
    have hdigits : ∀ e ∈ d :: digits, isDigit e = true := hdigits.2
    have hle := (prefix_takeWhile hdigits (List.prefix_append (d :: digits) more)).length_le
    rw [hsplit, takeWhile_run hall hpoint, dropWhile_run hall hpoint, fraction_point hd]
    simp only [List.cons_append, List.length_cons, List.length_append] at hle ⊢
    omega

theorem correct_number (hc : isDigit c = true) : (number c rest).1.Correct (c :: rest) := by
  obtain ⟨value, hvalue⟩ := exists_read?_number hc rest
  have hfront : (number c rest).1.text <+: c :: rest := ⟨_, number_append c rest⟩
  have hliteral : numberLiteral (number c rest).1.text = some (.number (.nearest value)) := by
    rw [numberLiteral, hvalue]
    rfl
  exact ⟨.of_cons (.number (isNumber_number hc rest)) hfront fun _ _ h htail =>
    length_le_number (h.of_isDigit hc) htail, _, hliteral⟩

theorem correct_word (hc : isAlpha c = true) : (word c rest).1.Correct (c :: rest) := by
  have hword : IsWord (c :: rest.takeWhile isAlphaNumeric) :=
    ⟨isAlpha_iff.mp hc, fun d hd => isAlphaNumeric_iff.mp (of_mem_takeWhile hd)⟩
  have hkind := isWordKind_ofWord (c :: rest.takeWhile isAlphaNumeric)
  have hfront : c :: rest.takeWhile isAlphaNumeric <+: c :: rest :=
    ⟨_, by rw [List.cons_append, List.takeWhile_append_dropWhile]⟩
  refine ⟨.of_cons (.word hword hkind) hfront fun otherKind tail h htail => ?_, ?_⟩
  · have htail := prefix_takeWhile
      (fun d hd => isAlphaNumeric_iff.mpr ((h.of_isAlpha hc).2 d hd)) htail
    exact Nat.succ_le_succ htail.length_le
  · exact carries_none hkind.valueless

/-- **The piece at the front of a text is what the rules say stands there.** -/
theorem correct_first (c : Char) (rest : List Char) : (first c rest).1.Correct (c :: rest) := by
  fun_cases first c rest
  case case1 kind h => exact correct_punctuator h
  case case2 alone extended hc _ => exact correct_operator hc
  case case3 => trivial
  case case4 => trivial
  case case5 hquote =>
    subst hquote
    exact correct_string rest
  case case6 h => exact correct_number h
  case case7 h => exact correct_word h
  case case8 ho hp hcomment hblank hquote hdigit halpha =>
    intro kind other hfront h
    obtain ⟨tail, rfl, -⟩ := exists_of_prefix_cons h hfront
    exact not_rule_cons hp ho hquote hdigit halpha h

end Piece

/-! ## And the other way round -/

theorem Rule.startsElement {kind : Kind} {c : Char} {rest : List Char} (h : Rule kind (c :: rest)) :
    StartsElement c := by
  constructor
  · rintro rfl
    exact not_rule_cons rfl rfl (by decide) (by decide) (by decide) h
  · cases hblank : isBlank c with
    | false => rfl
    | true =>
      have hmem := isBlank_iff.mp hblank
      simp only [List.mem_cons, List.not_mem_nil, or_false] at hmem
      rcases hmem with rfl | rfl | rfl | rfl <;>
        exact absurd h (not_rule_cons rfl rfl (by decide) (by decide) (by decide))

/-- **The longest match is what a scan takes.** -/
theorem first_of_longest {kind : Kind} {c : Char} {tail after : List Char}
    (h : Longest kind (c :: tail) (c :: (tail ++ after))) :
    ∃ literal, Piece.first c (tail ++ after) = (⟨.token kind literal, c :: tail⟩, after) := by
  have hcorrect := Piece.correct_first c (tail ++ after)
  have hshown := isElement_first h.rule.startsElement [] (tail ++ after)
  have hsplit := Piece.first_append c (tail ++ after)
  generalize Piece.first c (tail ++ after) = front at hcorrect hshown hsplit ⊢
  obtain ⟨⟨content, taken⟩, left⟩ := front
  cases content with
  | blank => cases hshown
  | error e => exact absurd h.rule (hcorrect kind _ h.front)
  | token otherKind literal =>
    obtain rfl : taken = c :: tail := hcorrect.1.unique h
    obtain rfl : otherKind = kind := hcorrect.1.rule.kind_unique h.rule
    obtain rfl : left = after := List.append_cancel_left hsplit
    exact ⟨literal, rfl⟩

/-! ## The elements of a source -/

theorem correct_of_mem_elements {before after : List Char} {p : Placed}
    (hp : p ∈ elements before after) : ∃ c rest, before ++ after = p.before ++ c :: rest ∧
      StartsElement c ∧ p.piece.Correct (c :: rest) := by
  obtain ⟨c, rest, hsplit, hc, hpiece⟩ := exists_of_mem_elements hp
  refine ⟨c, rest, hsplit, hc, ?_⟩
  rw [hpiece]
  exact Piece.correct_first c rest

theorem isEnd_of_token? {before after : List Char} {p : Placed} {t : Token}
    (hp : p ∈ elements before after) (ht : p.token? = some t) : t.isEnd = false := by
  obtain ⟨kind, literal, hcontent, rfl⟩ := Placed.token?_eq_some ht
  obtain ⟨c, rest, -, -, hcorrect⟩ := correct_of_mem_elements hp
  rw [Piece.Correct, hcontent] at hcorrect
  exact decide_eq_false hcorrect.1.rule.kind_ne_endOfSource

/-- What is left of a token list without the token that ends it. -/
theorem filter_tokens (before after : List Char) (offset line : Nat) :
    ((elements before after).filterMap Placed.token? ++ [Token.endOfSource offset line]).filter
      (fun t => !t.isEnd) = (elements before after).filterMap Placed.token? := by
  have hend : (Token.endOfSource offset line).isEnd = true := rfl
  rw [List.filter_append, List.filter_cons_of_neg (by simp [hend]), List.filter_nil,
    List.append_nil, List.filter_eq_self.mpr]
  intro t ht
  obtain ⟨p, hp, ht⟩ := List.mem_filterMap.mp ht
  rw [isEnd_of_token? hp ht]
  rfl

end Lexical
