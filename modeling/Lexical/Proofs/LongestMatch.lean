import Lexical.Proofs.Grammar.Longest

/-!
# A scan takes longest matches

`Piece.correct_first` is about the front of a row of characters. A user of the library has no
such rows, but a source and the offsets of a token or a diagnostic in it. This file says the
same in those terms: the text is looked up in the source by the offset where the token starts,
and what the rules have to say about that text is compared with the token.
-/

set_option autoImplicit false

namespace Lexical

open Text Cursor

/-- The characters of a source from an offset on. -/
def StandsAt (source : String) (offset : Nat) (ahead : List Char) : Prop :=
  slice? source offset source.utf8ByteSize = some (String.ofList ahead)

/-- A token is what the rules make of the text that starts where it does. -/
structure Token.Matches (t : Token) (ahead : List Char) : Prop where
  longest : Longest t.kind t.lexeme.toList ahead
  only : ∀ kind, Rule kind t.lexeme.toList → kind = t.kind
  carries : Carries t.kind t.lexeme.toList t.literal

/-- The rules make nothing of a text, and it is not one to skip either. -/
structure Unmatched (ahead : List Char) : Prop where
  unruled : ∀ kind text, text <+: ahead → ¬ Rule kind text
  unskipped : ∀ c ∈ ahead.head?, c ∉ [' ', '\t', '\r', '\n', '#']

/-- Every token of a result is what the rules make of the source there, and where a diagnostic
starts they make nothing. -/
structure ByRules (source : String) (s : Scanned) : Prop where
  tokens : ∀ t ∈ s.tokens, t.isEnd = false →
    ∃ ahead, StandsAt source t.span.start ahead ∧ t.Matches ahead
  diagnostics : ∀ d ∈ s.diagnostics, ∃ ahead, StandsAt source d.span.start ahead ∧ Unmatched ahead

theorem StartsElement.not_mem {c : Char} (hc : StartsElement c) :
    c ∉ [' ', '\t', '\r', '\n', '#'] := by
  intro hmem
  rcases List.mem_append.mp (show c ∈ [' ', '\t', '\r', '\n'] ++ ['#'] from hmem) with h | h
  · rw [← isBlank_iff, hc.2] at h
    cases h
  · exact hc.1 (List.mem_singleton.mp h)

/-- An element is what the rules say of the text that stands where it starts. -/
theorem exists_standsAt {source : String} {p : Placed} (hp : p ∈ elements [] source.toList) :
    ∃ c rest, StandsAt source p.span.start (c :: rest) ∧ StartsElement c ∧
      p.piece.Correct (c :: rest) := by
  obtain ⟨c, rest, hsplit, hc, hcorrect⟩ := correct_of_mem_elements hp
  refine ⟨c, rest, ?_, hc, hcorrect⟩
  have hsource : source = String.ofList (p.before ++ c :: rest) := by
    rw [← hsplit, List.nil_append, String.ofList_toList]
  rw [StandsAt, hsource, utf8ByteSize_ofList]
  exact slice?_width_end p.before (c :: rest)

/-- **Every token is the longest match where it starts**, of the kind and with the value that the
rules give it, and where a diagnostic starts there is no match at all. -/
theorem tokenize_longest_match {source : String} (hfit : LinesFit source.toList) :
    ∃ scanned, tokenize source = .ok scanned ∧ ByRules source scanned := by
  refine ⟨_, tokenize_elements hfit, ?_⟩
  constructor
  · intro t ht hend
    rcases List.mem_append.mp ht with ht | ht
    · obtain ⟨p, hp, ht⟩ := List.mem_filterMap.mp ht
      obtain ⟨kind, literal, hcontent, rfl⟩ := Placed.token?_eq_some ht
      obtain ⟨c, rest, hstands, -, hcorrect⟩ := exists_standsAt hp
      rw [Piece.Correct, hcontent] at hcorrect
      obtain ⟨hlongest, hcarries⟩ := hcorrect
      refine ⟨c :: rest, hstands, ?_⟩
      have htext : (String.ofList p.piece.text).toList = p.piece.text := String.toList_ofList
      rw [← htext] at hlongest hcarries
      exact ⟨hlongest, fun kind hrule => hrule.kind_unique hlongest.rule, hcarries⟩
    · rw [List.mem_singleton.mp ht] at hend
      exact absurd hend (by simp [Token.isEnd, Token.endOfSource, Token.ofLexeme])
  · intro d hd
    obtain ⟨p, hp, hd⟩ := List.mem_filterMap.mp hd
    obtain ⟨e, hcontent, rfl⟩ := Placed.diagnostic?_eq_some hd
    obtain ⟨c, rest, hstands, hc, hcorrect⟩ := exists_standsAt hp
    rw [Piece.Correct, hcontent] at hcorrect
    rw [Error.diagnostic_eq]
    refine ⟨c :: rest, hstands, hcorrect, ?_⟩
    intro d hd
    obtain rfl : c = d := by simpa using hd
    exact hc.not_mem

theorem tokenize_longest_match_mixed :
    LinesFit "let x1 = 1.2.3 @ \"a".toList ∧
      ∃ scanned, tokenize "let x1 = 1.2.3 @ \"a" = .ok scanned ∧
        ByRules "let x1 = 1.2.3 @ \"a" scanned :=
  ⟨by decide, tokenize_longest_match (by decide)⟩

end Lexical
