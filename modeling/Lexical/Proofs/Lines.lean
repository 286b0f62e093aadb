import Lexical.Proofs.Modes
import Lexical.Proofs.Text.Line

/-!
# Lines

A result names a line in four places: the line of a token and of its span, and the line of a
diagnostic and of its span. All four come from the one counter of the cursor, but at different
moments, and this file says which line each of them is, in terms of the offsets that stand beside
it. Three are the line of the start of a span. The fourth, the line of a diagnostic, is the line
of its end, which is how a string that is never closed comes to be reported where the input ends.

Since offsets ascend along a result, so do lines.
-/

set_option autoImplicit false

namespace Lexical

open Text Cursor

/-- The lines of a result are the lines of its offsets. -/
structure LinesCounted (source : String) (s : Scanned) : Prop where
  tokens : ∀ t ∈ s.tokens, t.line = t.span.line ∧ t.span.line = lineOf source t.span.start
  diagnostics : ∀ d ∈ s.diagnostics,
    d.span.line = lineOf source d.span.start ∧ d.line = lineOf source d.span.stop
  stray : ∀ d ∈ s.coded 1001, d.line = d.span.line
  unclosed : ∀ d ∈ s.coded 1002, d.line = lineOf source source.utf8ByteSize
  tokens_ascend : (s.tokens.map Token.line).Pairwise (· ≤ ·)
  diagnostics_ascend : (s.diagnostics.map Diagnostic.line).Pairwise (· ≤ ·)

/-! ## One element -/

section Element

variable {source : String} {p : Placed} {t : Token} {d : Diagnostic}

theorem lineAt_le {a b : List Char} (h : a <+: b) : lineAt a ≤ lineAt b :=
  Nat.add_le_add_left (h.sublist.count_le '\n') 1

theorem lineOf_start (hp : p ∈ elements [] source.toList) :
    lineOf source p.span.start = lineAt p.before := by
  obtain ⟨rest, hsource⟩ := exists_behind hp
  rw [hsource, List.append_assoc]
  exact lineOf_width p.before (p.piece.text ++ rest)

theorem lineOf_stop (hp : p ∈ elements [] source.toList) :
    lineOf source p.span.stop = p.endLine := by
  obtain ⟨rest, hsource⟩ := exists_behind hp
  rw [hsource]
  exact lineOf_width (p.before ++ p.piece.text) rest

theorem lineOf_end (source : String) :
    lineOf source source.utf8ByteSize = lineAt source.toList := by
  have h := lineOf_width source.toList []
  rwa [List.append_nil, String.ofList_toList, width_toList] at h

theorem Placed.token?_line (h : p.token? = some t) : t.line = lineAt p.before := by
  obtain ⟨kind, literal, -, rfl⟩ := Placed.token?_eq_some h
  rfl

theorem Placed.diagnostic?_line (h : p.diagnostic? = some d) : d.line = p.endLine := by
  obtain ⟨e, -, rfl⟩ := Placed.diagnostic?_eq_some h
  rw [Error.diagnostic_eq]

/-- What is reported by the code of its error: a stray character on its own line, an open string
on the last one. -/
theorem line_of_code (hp : p ∈ elements [] source.toList) (hd : p.diagnostic? = some d) :
    d.code = some ⟨"E", 1001⟩ ∧ d.line = d.span.line ∨
      d.code = some ⟨"E", 1002⟩ ∧ d.line = lineAt source.toList := by
  obtain ⟨c, rest, hsplit, -, hpiece⟩ := exists_of_mem_elements hp
  obtain ⟨e, hcontent, rfl⟩ := Placed.diagnostic?_eq_some hd
  rw [hpiece] at hcontent
  rcases first_of_error hcontent with ⟨rfl, hstray, hfirst⟩ | ⟨rfl, rfl, -, hfirst⟩
  · have htext : p.piece.text = [c] := by rw [hpiece, hfirst]
    left
    rw [Placed.span, Placed.endLine, htext, hstray.diagnostic_eq]
    exact ⟨rfl, rfl⟩
  · have htext : p.piece.text = '"' :: rest := by rw [hpiece, hfirst]
    right
    rw [Error.diagnostic_eq, Placed.endLine, htext, ← hsplit]
    exact ⟨rfl, rfl⟩

end Element

/-! ## The whole source -/

theorem tokens_ascend (source : String) :
    (((elements [] source.toList).filterMap Placed.token? ++
      [Token.endOfSource source.utf8ByteSize (lineAt source.toList)]).map Token.line).Pairwise
        (· ≤ ·) := by
  have hapart := (layout_elements [] source.toList).apart
  rw [List.pairwise_map, List.pairwise_append]
  refine ⟨?_, List.pairwise_singleton _ _, ?_⟩
  · refine hapart.filterMap Placed.token? ?_
    intro p q hpq t ht u hu
    rw [Placed.token?_line ht, Placed.token?_line hu]
    exact lineAt_le ((List.prefix_append p.before p.piece.text).trans hpq)
  · intro t ht u hu
    obtain ⟨p, hp, ht⟩ := List.mem_filterMap.mp ht
    obtain ⟨rest, hsource⟩ := exists_behind hp
    rw [List.mem_singleton.mp hu, Placed.token?_line ht]
    refine lineAt_le ⟨p.piece.text ++ rest, ?_⟩
    rw [hsource, String.toList_ofList, List.append_assoc]

theorem diagnostics_ascend (source : String) :
    (((elements [] source.toList).filterMap Placed.diagnostic?).map Diagnostic.line).Pairwise
      (· ≤ ·) := by
  have hapart := (layout_elements [] source.toList).apart
  rw [List.pairwise_map]
  refine hapart.filterMap Placed.diagnostic? ?_
  intro p q hpq d hd e he
  rw [Placed.diagnostic?_line hd, Placed.diagnostic?_line he]
  exact lineAt_le (hpq.trans (List.prefix_append q.before q.piece.text))

/-- **Every line in a result is the line of an offset beside it.** -/
theorem tokenize_lines {source : String} (hfit : LinesFit source.toList) :
    ∃ scanned, tokenize source = .ok scanned ∧ LinesCounted source scanned := by
  refine ⟨_, tokenize_elements hfit, ?_⟩
  constructor
  case tokens =>
    intro t ht
    rcases List.mem_append.mp ht with ht | ht
    · obtain ⟨p, hp, ht⟩ := List.mem_filterMap.mp ht
      obtain ⟨kind, literal, -, rfl⟩ := Placed.token?_eq_some ht
      exact ⟨rfl, (lineOf_start hp).symm⟩
    · rw [List.mem_singleton.mp ht]
      exact ⟨rfl, (lineOf_end source).symm⟩
  case diagnostics =>
    intro d hd
    obtain ⟨p, hp, hd⟩ := List.mem_filterMap.mp hd
    obtain ⟨e, -, rfl⟩ := Placed.diagnostic?_eq_some hd
    rw [Error.diagnostic_eq]
    exact ⟨(lineOf_start hp).symm, (lineOf_stop hp).symm⟩
  case stray =>
    intro d hd
    obtain ⟨hd, hcode⟩ := List.mem_filter.mp hd
    obtain ⟨p, hp, hd⟩ := List.mem_filterMap.mp hd
    rcases line_of_code hp hd with ⟨-, hline⟩ | ⟨hother, -⟩
    · exact hline
    · simp [hother] at hcode
  case unclosed =>
    intro d hd
    obtain ⟨hd, hcode⟩ := List.mem_filter.mp hd
    obtain ⟨p, hp, hd⟩ := List.mem_filterMap.mp hd
    rcases line_of_code hp hd with ⟨hother, -⟩ | ⟨-, hline⟩
    · simp [hother] at hcode
    · rw [hline, lineOf_end]
  case tokens_ascend => exact tokens_ascend source
  case diagnostics_ascend => exact diagnostics_ascend source

theorem tokenize_lines_across_breaks :
    LinesFit "a\n@ \"b\nc\" #\n\"d\n".toList ∧
      ∃ scanned, tokenize "a\n@ \"b\nc\" #\n\"d\n" = .ok scanned ∧
        LinesCounted "a\n@ \"b\nc\" #\n\"d\n" scanned :=
  ⟨by decide, tokenize_lines (by decide)⟩

end Lexical
