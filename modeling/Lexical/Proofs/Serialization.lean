import Lexical.Proofs.Json.Encoding
import Lexical.Proofs.Number.Word
import Mathlib.Data.List.Forall2

/-!
# The JSON form of a result loses nothing

The tokens and the diagnostics of a source are written as two texts. Each is JSON and has one value,
and from that value the list it was written for is read back. So two results can be compared by
their texts.

For tokens this is a fact about scanning, not about writing. A number too large for binary64 and
the value that most tokens lack are both written as null, but in a result no two tokens of one kind
and one text differ in their value (`Token.Valued`).
-/

set_option autoImplicit false

namespace Lexical

open Json Text Cursor

/-- The texts of a result are JSON arrays, and their values tell all of the result. -/
structure Lossless (s : Scanned) : Prop where
  tokens : ∃ items, Denotes (tokensText s.tokens) (.array items) ∧
    List.Forall₂ Token.Told s.tokens items ∧ items.mapM Token.ofJson? = some s.tokens
  diagnostics : ∃ items, Denotes (diagnosticsText s.diagnostics) (.array items) ∧
    items.mapM Diagnostic.ofJson? = some s.diagnostics

/-- To compare the texts of two results is to compare the results, whichever equality is meant. -/
structure ComparedByText (s t : Scanned) : Prop where
  tokens : tokensText s.tokens = tokensText t.tokens ↔ s.tokens = t.tokens
  tokensEqual : tokensText s.tokens = tokensText t.tokens ↔ s.tokensEqual t = true
  diagnostics : diagnosticsText s.diagnostics = diagnosticsText t.diagnostics ↔
    s.diagnostics = t.diagnostics

/-! ## Texts -/

/-- One text cannot be read as two things. -/
theorem eq_of_denotes {α : Type} {read : Json → Option α} {text : String} {j j' : Json} {a a' : α}
    (h : Denotes text j) (h' : Denotes text j') (hread : read j = some a)
    (hread' : read j' = some a') : a = a' := by
  obtain rfl := (h' j).mp ((h j).mpr rfl)
  exact Option.some.inj (hread.symm.trans hread')

section Texts

variable {ts us : List Token}

theorem tokensText_inj (hts : ∀ t ∈ ts, t.Valued) (hus : ∀ u ∈ us, u.Valued) :
    tokensText ts = tokensText us ↔ ts = us := by
  constructor
  · intro htext
    exact eq_of_denotes (htext ▸ denotes_tokensText ts) (denotes_tokensText us)
      (list?_array fun t ht => (hts t ht).ofJson?_toJson)
      (list?_array fun u hu => (hus u hu).ofJson?_toJson)
  · exact congrArg tokensText

theorem diagnosticsText_inj {ds es : List Diagnostic} :
    diagnosticsText ds = diagnosticsText es ↔ ds = es := by
  constructor
  · intro htext
    exact eq_of_denotes (htext ▸ denotes_diagnosticsText ds) (denotes_diagnosticsText es)
      (list?_array fun d _ => d.ofJson?_toJson) (list?_array fun d _ => d.ofJson?_toJson)
  · exact congrArg diagnosticsText

/-! ## Comparing tokens -/

theorem literalEqual_self {kind : Kind} {text : List Char} :
    Token.literalEqual (literalOf kind text) (literalOf kind text) = true := by
  unfold literalOf
  split
  · exact beq_self_eq_true _
  · unfold Piece.numberLiteral
    cases Decimal.read? text with
    | none => rfl
    | some d => exact Binary64.equal_self (Binary64.isNaN_nearest d)
  · rfl

/-- Tokens with the values of their texts are equal in only one sense. -/
theorem Token.Valued.equal_iff {t u : Token} (ht : t.Valued) (hu : u.Valued) :
    t.equal u = true ↔ t = u := by
  constructor
  · intro h
    obtain ⟨kind, lexeme, literal, line, span⟩ := t
    obtain ⟨kind', lexeme', literal', line', span'⟩ := u
    simp only [Token.equal, Bool.and_eq_true, decide_eq_true_eq, beq_iff_eq] at h
    obtain ⟨⟨⟨⟨rfl, rfl⟩, -⟩, rfl⟩, rfl⟩ := h
    -- What was found of the values is dropped: kind and text being the same, so are they.
    obtain rfl : literal = literal' := ht.trans hu.symm
    rfl
  · rintro rfl
    have hliteral : literalEqual t.literal t.literal = true := by
      rw [ht]
      exact literalEqual_self
    simp [Token.equal, hliteral]

theorem isEqv_iff (hts : ∀ t ∈ ts, t.Valued) (hus : ∀ u ∈ us, u.Valued) :
    ts.isEqv us Token.equal = true ↔ ts = us := by
  induction ts generalizing us with
  | nil => cases us <;> simp [List.isEqv]
  | cons t ts ih =>
    obtain ⟨ht, hts⟩ := List.forall_mem_cons.mp hts
    cases us with
    | nil => simp [List.isEqv]
    | cons u us =>
      obtain ⟨hu, hus⟩ := List.forall_mem_cons.mp hus
      rw [List.isEqv, Bool.and_eq_true, ht.equal_iff hu, ih hts hus, List.cons.injEq]

end Texts

/-! ## Results -/

/-- Every token of a result carries the value of its text, as the rules have it for its kind. -/
theorem tokenize_valued {source : String} (hfit : LinesFit source.toList) :
    ∃ s, tokenize source = .ok s ∧
      ∀ t ∈ s.tokens, t.Valued ∧ Carries t.kind t.lexeme.toList t.literal := by
  refine ⟨_, tokenize_elements hfit, fun t ht => ?_⟩
  rcases List.mem_append.mp ht with ht | ht
  · obtain ⟨p, hp, ht⟩ := List.mem_filterMap.mp ht
    exact ⟨valued_of_token? hp ht, carries_of_token? hp ht⟩
  · rw [List.mem_singleton.mp ht]
    exact ⟨Token.valued_endOfSource _ _, rfl⟩

theorem lossless {s : Scanned} (hvalued : ∀ t ∈ s.tokens, t.Valued)
    (hcarries : ∀ t ∈ s.tokens, Carries t.kind t.lexeme.toList t.literal) : Lossless s where
  tokens := by
    refine ⟨s.tokens.map Token.toJson, denotes_tokensText s.tokens, ?_, ?_⟩
    · exact List.forall₂_map_right_iff.mpr
        (List.forall₂_same.mpr fun t ht => Token.told_toJson (hcarries t ht))
    · exact list?_array fun t ht => (hvalued t ht).ofJson?_toJson
  diagnostics :=
    ⟨s.diagnostics.map Diagnostic.toJson, denotes_diagnosticsText s.diagnostics,
      list?_array fun d _ => d.ofJson?_toJson⟩

/-- **The JSON form of a result is valid and loses nothing**: it is read back, and two results are
the same if their texts are. -/
theorem tokenize_json {a b : String} (ha : LinesFit a.toList) (hb : LinesFit b.toList) :
    ∃ s t, tokenize a = .ok s ∧ tokenize b = .ok t ∧ Lossless s ∧ ComparedByText s t := by
  obtain ⟨s, hs, hstokens⟩ := tokenize_valued ha
  obtain ⟨t, ht, httokens⟩ := tokenize_valued hb
  have hsvalued : ∀ u ∈ s.tokens, u.Valued := fun u hu => (hstokens u hu).1
  have htvalued : ∀ u ∈ t.tokens, u.Valued := fun u hu => (httokens u hu).1
  have htokens := tokensText_inj hsvalued htvalued
  refine ⟨s, t, hs, ht, lossless hsvalued fun u hu => (hstokens u hu).2, ?_⟩
  exact ⟨htokens, htokens.trans (isEqv_iff hsvalued htvalued).symm, diagnosticsText_inj⟩

theorem tokenize_json_escaped_and_infinite :
    LinesFit "\"\\\x00\n\" é 1.50 nil".toList ∧
      LinesFit (String.ofList (List.replicate 400 '9')).toList ∧
      ∃ s t, tokenize "\"\\\x00\n\" é 1.50 nil" = .ok s ∧
        tokenize (String.ofList (List.replicate 400 '9')) = .ok t ∧
        Lossless s ∧ ComparedByText s t := by
  have hnines : LinesFit (String.ofList (List.replicate 400 '9')).toList := by
    rw [String.toList_ofList, LinesFit, List.count_replicate]
    decide
  exact ⟨by decide, hnines, tokenize_json (by decide) hnines⟩

end Lexical
