import Lexical.Proofs.Grammar.Longest

/-!
# The value of a token is in its text

`Carries` says of a number only that it has some value. What the value is follows from the text:
`literalOf` is the value of a text as a token of a kind, and every token that is read carries it
(`literal_first`). So two tokens of one kind and one text are the same but for their place,
whatever stood behind them in their sources.
-/

set_option autoImplicit false

namespace Lexical

open CharClass Text

/-- The value of a text as a token of a kind: what a string has between its quotes, the numeral
that a number is, and nothing for the other kinds. -/
def literalOf (kind : Kind) (text : List Char) : Option Literal :=
  match kind with
  | .string => some (.string (String.ofList text.tail.dropLast))
  | .number => Piece.numberLiteral text
  | _ => none

theorem literalOf_valueless {kind : Kind} (h : Valueless kind) (text : List Char) :
    literalOf kind text = none := by
  unfold literalOf
  split
  · exact absurd rfl h.1
  · exact absurd rfl h.2
  · rfl

namespace Piece

variable {c : Char} {rest : List Char} {kind : Kind} {literal : Option Literal}

theorem literal_operator {alone extended : Kind}
    (hc : Kind.operator? c = some (alone, extended))
    (h : (operator alone extended c rest).1.content = .token kind literal) :
    literal = literalOf kind (operator alone extended c rest).1.text := by
  revert h
  fun_cases operator alone extended c rest
  case case1 rest =>
    intro h
    cases h
    have hmem : ([c, '='], kind) ∈ operators :=
      mem_operators.mpr ⟨alone, kind, hc, Or.inr ⟨rfl, rfl⟩⟩
    exact (literalOf_valueless (valueless_of_operator hmem) _).symm
  case case2 =>
    intro h
    cases h
    have hmem : ([c], kind) ∈ operators :=
      mem_operators.mpr ⟨kind, extended, hc, Or.inl ⟨rfl, rfl⟩⟩
    exact (literalOf_valueless (valueless_of_operator hmem) _).symm

theorem literal_string (h : (string c rest).1.content = .token kind literal) :
    literal = literalOf kind (string c rest).1.text := by
  unfold string at h ⊢
  cases hrest : rest.dropWhile (· ≠ '"') with
  | nil =>
    rw [hrest] at h
    cases h
  | cons quote after =>
    rw [hrest] at h
    cases h
    simp [literalOf]

/-- **A token carries the value of its text.** -/
theorem literal_first (h : (first c rest).1.content = .token kind literal) :
    literal = literalOf kind (first c rest).1.text := by
  revert h
  fun_cases first c rest
  case case1 other hc =>
    intro h
    cases h
    have hmem : (c, kind) ∈ punctuators := mem_punctuators.mpr hc
    exact (literalOf_valueless (valueless_of_punctuator hmem) _).symm
  case case2 alone extended hc _ => exact literal_operator hc
  case case5 => exact literal_string
  case case6 =>
    intro h
    cases h
    rfl
  case case7 =>
    intro h
    cases h
    exact (literalOf_valueless (isWordKind_ofWord _).valueless _).symm
  all_goals
    intro h
    cases h

end Piece

/-! ## The tokens of a source -/

/-- A token carries the value of its text. -/
def Token.Valued (t : Token) : Prop := t.literal = literalOf t.kind t.lexeme.toList

theorem Token.valued_endOfSource (offset line : Nat) : (endOfSource offset line).Valued := rfl

variable {before after : List Char} {p : Placed} {t : Token}

theorem valued_of_token? (hp : p ∈ elements before after) (ht : p.token? = some t) :
    t.Valued := by
  obtain ⟨kind, literal, hcontent, rfl⟩ := Placed.token?_eq_some ht
  obtain ⟨c, rest, -, -, hpiece⟩ := exists_of_mem_elements hp
  show literal = literalOf kind (String.ofList p.piece.text).toList
  rw [String.toList_ofList]
  rw [hpiece] at hcontent ⊢
  exact Piece.literal_first hcontent

/-- The text of a token is one of its kind's rule, and its value is of the form the kind has. -/
theorem rule_of_token? (hp : p ∈ elements before after) (ht : p.token? = some t) :
    Rule t.kind t.lexeme.toList ∧ Carries t.kind t.lexeme.toList t.literal := by
  obtain ⟨kind, literal, hcontent, rfl⟩ := Placed.token?_eq_some ht
  obtain ⟨c, rest, -, -, hcorrect⟩ := correct_of_mem_elements hp
  rw [Piece.Correct, hcontent] at hcorrect
  show Rule kind (String.ofList p.piece.text).toList ∧
    Carries kind (String.ofList p.piece.text).toList literal
  rw [String.toList_ofList]
  exact ⟨hcorrect.1.rule, hcorrect.2⟩

theorem carries_of_token? (hp : p ∈ elements before after) (ht : p.token? = some t) :
    Carries t.kind t.lexeme.toList t.literal :=
  (rule_of_token? hp ht).2

/-! ## A lexeme by itself -/

/-- **The text of one rule is one token**, if it is a source by itself. -/
theorem tokenize_of_rule {kind : Kind} {text : List Char} (h : Rule kind text)
    (hfit : Cursor.LinesFit text) : tokenize (String.ofList text) = .ok
      { tokens := [.ofLexeme kind (String.ofList text) (literalOf kind text) ⟨0, width text, 1⟩,
          .endOfSource (width text) (Cursor.lineAt text)]
        diagnostics := [] } := by
  cases text with
  | nil => exact absurd h not_rule_nil
  | cons c tail =>
    have hlongest : Longest kind (c :: tail) (c :: (tail ++ [])) :=
      ⟨h, List.prefix_append (c :: tail) [], fun other otherKind _ hother => by
        rw [List.append_nil] at hother
        exact hother.length_le⟩
    obtain ⟨literal, hfirst⟩ := first_of_longest hlongest
    rw [List.append_nil] at hfirst
    have hliteral : literal = literalOf kind (c :: tail) := by
      have hvalue := Piece.literal_first (congrArg (fun taken => taken.1.content) hfirst)
      rwa [hfirst] at hvalue
    have helements : elements [] (c :: tail) = [⟨[], ⟨.token kind literal, c :: tail⟩⟩] := by
      rw [elements_cons h.startsElement, hfirst, elements_nil]
    rw [tokenize_elements (by rwa [String.toList_ofList]), String.toList_ofList, helements,
      utf8ByteSize_ofList, hliteral]
    rfl

end Lexical
