import Lexical.Proofs.Grammar.Literal
import Lexical.Proofs.Number.Numeral
import Lexical.Proofs.Scan.Returns

/-!
# The numbers of a source are correctly rounded

The text of a number token has any number of digits, and what it denotes is a rational that need not
be a binary64 number. The token carries the one that IEEE 754 rounds it to: never a NaN, never a
negative number, infinity from `overflow` on and from there only. So two texts that denote the same
rational have the same value, however they are written, and a greater rational has no smaller value.
-/

set_option autoImplicit false

namespace Lexical

open Binary64 Text

/-- A number token carries what its text denotes, rounded. -/
structure Token.Rounded (t : Token) : Prop where
  shape : IsNumber t.lexeme.toList
  value : ∃ x, t.literal = some (.number x) ∧ RoundsTo false (numeralValue t.lexeme.toList) x
  infinite_iff : t.literal = some (.number .infinity) ↔
    2 ^ 1024 - 2 ^ 970 ≤ numeralValue t.lexeme.toList

/-- Two number tokens compare as what their texts denote. -/
structure Token.ComparesWith (t u : Token) : Prop where
  same : numeralValue t.lexeme.toList = numeralValue u.lexeme.toList → t.literal = u.literal
  ascending : numeralValue t.lexeme.toList ≤ numeralValue u.lexeme.toList →
    ∃ x y, t.literal = some (.number x) ∧ u.literal = some (.number y) ∧ x.AtMost y

theorem eq_infinity_iff {q : Rat} {x : Binary64} (h : RoundsTo false q x) :
    x = .infinity ↔ overflow ≤ q := by
  have hinfinite : Binary64.infinity.magnitude = infinityWord := magnitude_ofWord (Nat.le_refl _)
  have hfinite := h.finite_iff
  rw [isFinite_iff, ← not_iff_not, Nat.not_lt, not_lt] at hfinite
  rw [← hfinite]
  constructor
  · rintro rfl
    exact Nat.le_of_eq hinfinite.symm
  · intro hle
    refine eq_of_magnitude_eq (h.negative_eq.trans (negative_ofWord (Nat.le_refl _)).symm) ?_
    rw [hinfinite]
    exact Nat.le_antisymm (isNaN_eq_false_iff.mp h.isNaN_eq) hle

/-- The value of a number token is determined by its text. -/
theorem Token.Valued.rounds {t : Token} (h : t.Valued) (hkind : t.kind = .number)
    (hshape : IsNumber t.lexeme.toList) :
    ∃ x, t.literal = some (.number x) ∧ RoundsTo false (numeralValue t.lexeme.toList) x := by
  obtain ⟨x, hx, hrounds⟩ := rounds_numberLiteral hshape
  rw [Token.Valued, hkind] at h
  exact ⟨x, h.trans hx, hrounds⟩

/-- The number tokens of a result have the shape of numbers and the value of their texts. -/
theorem number_of_tokenize {source : String} {s : Scanned} (hs : tokenize source = .ok s) {t : Token}
    (ht : t ∈ s.tokens) (hkind : t.kind = .number) : IsNumber t.lexeme.toList ∧
      ∃ x, t.literal = some (.number x) ∧ RoundsTo false (numeralValue t.lexeme.toList) x := by
  have helements := tokenize_elements (tokenize_returns_iff.mp ⟨s, hs⟩)
  obtain rfl := Except.ok.inj (hs.symm.trans helements)
  rcases List.mem_append.mp ht with ht | ht
  · obtain ⟨p, hp, ht⟩ := List.mem_filterMap.mp ht
    have hrule := (rule_of_token? hp ht).1
    rw [hkind] at hrule
    exact ⟨hrule.isNumber, (valued_of_token? hp ht).rounds hkind hrule.isNumber⟩
  · rw [List.mem_singleton.mp ht] at hkind
    cases hkind

/-- **Number tokens are correctly rounded**, and they compare as what they denote does. -/
theorem tokenize_rounded (a b : String) :
    (Cursor.LinesFit a.toList → ∃ s, tokenize a = .ok s) ∧
      (∀ s, tokenize a = .ok s → ∀ t ∈ s.tokens, t.kind = .number → t.Rounded) ∧
        ∀ s s', tokenize a = .ok s → tokenize b = .ok s' → ∀ t ∈ s.tokens, ∀ u ∈ s'.tokens,
          t.kind = .number → u.kind = .number → t.ComparesWith u := by
  refine ⟨tokenize_returns_iff.mpr, ?_, ?_⟩
  · intro s hs t ht hkind
    obtain ⟨hshape, x, hx, hrounds⟩ := number_of_tokenize hs ht hkind
    refine ⟨hshape, ⟨x, hx, hrounds⟩, ?_⟩
    rw [hx, Option.some.injEq, Literal.number.injEq]
    exact eq_infinity_iff hrounds
  · intro s s' hs hs' t ht u hu hkind hkind'
    obtain ⟨-, x, hx, hrounds⟩ := number_of_tokenize hs ht hkind
    obtain ⟨-, y, hy, hrounds'⟩ := number_of_tokenize hs' hu hkind'
    constructor
    case same =>
      intro heq
      rw [heq] at hrounds
      rw [hx, hy, hrounds.unique hrounds' (numeralValue_nonneg _)]
    case ascending =>
      intro hle
      exact ⟨x, y, hx, hy, hrounds.atMost hrounds' (numeralValue_nonneg _) hle⟩

/-- A tie, and the same rational with more digits. -/
theorem tokenize_rounded_tie :
    ∃ s s', tokenize "9007199254740993" = .ok s ∧ tokenize "09007199254740993.0" = .ok s' ∧
      ∃ t ∈ s.tokens, ∃ u ∈ s'.tokens, t.kind = .number ∧ t.Rounded ∧ u.kind = .number ∧ u.Rounded ∧
        t.ComparesWith u := by
  have hwhole : Rule .number "9007199254740993".toList := .number (.inl (by decide))
  have hpoint : Rule .number "09007199254740993.0".toList :=
    .number (.inr ⟨"09007199254740993".toList, ['0'], rfl, by decide, by decide⟩)
  have hs := tokenize_of_rule hwhole (by decide)
  have hs' := tokenize_of_rule hpoint (by decide)
  rw [String.ofList_toList] at hs hs'
  obtain ⟨-, hrounded, hcompares⟩ := tokenize_rounded "9007199254740993" "09007199254740993.0"
  obtain ⟨-, hrounded', -⟩ := tokenize_rounded "09007199254740993.0" ""
  exact ⟨_, _, hs, hs', _, List.mem_cons_self, _, List.mem_cons_self, rfl,
    hrounded _ hs _ List.mem_cons_self rfl, rfl, hrounded' _ hs' _ List.mem_cons_self rfl,
    hcompares _ _ hs hs' _ List.mem_cons_self _ List.mem_cons_self rfl rfl⟩

end Lexical
