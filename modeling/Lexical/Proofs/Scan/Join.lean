import Lexical.Proofs.Grammar.Longest

/-!
# Results moved and joined

A scan keeps nothing of what it has read but its offset and its line. So what it finds in a text
does not change if other text is put in front: every offset and every line is moved by the same
amount (`elements_behind`). This file has the operations on results that go with it, `shift` and
`join`, and the one theorem that the statements about sources in two parts are proved by: if the
elements of a source are those of its two parts, the same is true of the results
(`tokenize_parts`).

When the elements are those of the parts is another question, and a matter of the grammar. It is
answered where a source is cut, and where one is put together of lines.
-/

set_option autoImplicit false

namespace Lexical

open Text Cursor

/-! ## Moving -/

/-- The span as it is when text of so many bytes and line breaks is put before the source. -/
def Span.shift (s : Span) (bytes lines : Nat) : Span :=
  ⟨s.start + bytes, s.stop + bytes, s.line + lines⟩

def Token.shift (t : Token) (bytes lines : Nat) : Token :=
  { t with line := t.line + lines, span := t.span.shift bytes lines }

def Diagnostic.shift (d : Diagnostic) (bytes lines : Nat) : Diagnostic :=
  { d with line := d.line + lines, span := d.span.shift bytes lines }

namespace Scanned

def shift (s : Scanned) (bytes lines : Nat) : Scanned :=
  { tokens := s.tokens.map fun t => t.shift bytes lines
    diagnostics := s.diagnostics.map fun d => d.shift bytes lines }

/-- One result and then another. The token that ends the first one is left out. -/
def join (s t : Scanned) : Scanned :=
  { tokens := s.tokens.filter (fun t => !t.isEnd) ++ t.tokens
    diagnostics := s.diagnostics ++ t.diagnostics }

end Scanned

/-! ## Text put in front -/

section Behind

variable (front : List Char)

theorem lineAt_append (text : List Char) :
    lineAt (front ++ text) = lineAt text + front.count '\n' := by
  simp only [lineAt, List.count_append]
  omega

theorem Span.after_append (before text : List Char) : Span.after (front ++ before) text =
    (Span.after before text).shift (width front) (front.count '\n') := by
  simp only [after, shift, List.append_assoc, width_append, lineAt_append, Nat.add_comm]

namespace Placed

/-- The piece as it is when `front` is put before the source. -/
def behind (p : Placed) : Placed := { p with before := front ++ p.before }

variable (p : Placed)

theorem endLine_behind : (p.behind front).endLine = p.endLine + front.count '\n' := by
  rw [endLine, behind, List.append_assoc, lineAt_append, endLine]

theorem token?_behind : (p.behind front).token? =
    p.token?.map fun t => t.shift (width front) (front.count '\n') := by
  unfold token? item Piece.item
  dsimp only [behind]
  rw [Span.after_append]
  cases p.piece.content <;> rfl

theorem diagnostic?_behind : (p.behind front).diagnostic? =
    p.diagnostic?.map fun d => d.shift (width front) (front.count '\n') := by
  unfold diagnostic? item Piece.item
  rw [endLine_behind]
  dsimp only [behind]
  rw [Span.after_append]
  cases p.piece.content with
  | blank => rfl
  | token kind literal => rfl
  | error e =>
    simp only [Option.map_some, Error.diagnostic_eq]
    rfl

end Placed

theorem placed_behind (before after : List Char) :
    placed (front ++ before) after = (placed before after).map (Placed.behind front) := by
  induction before, after using placed.induct with
  | case1 before => rw [placed_nil, placed_nil, List.map_nil]
  | case2 before c rest ih =>
    rw [placed_cons, placed_cons, List.map_cons, ← ih, List.append_assoc]
    rfl

/-- **Text put in front moves the elements**, and does nothing else to them. -/
theorem elements_behind (before after : List Char) :
    elements (front ++ before) after = (elements before after).map (Placed.behind front) := by
  rw [elements, placed_behind, List.filter_map, elements]
  rfl

theorem filterMap_behind {α : Type} {f : Placed → Option α} {move : α → α}
    (hf : ∀ p, f (p.behind front) = (f p).map move) (after : List Char) :
    (elements front after).filterMap f = ((elements [] after).filterMap f).map move := by
  have hbehind := elements_behind front [] after
  rw [List.append_nil] at hbehind
  rw [hbehind, List.filterMap_map, List.map_filterMap]
  congr 1
  funext p
  exact hf p

end Behind

/-! ## Two parts of a source -/

theorem shift_endOfSource (front back : String) :
    (Token.endOfSource back.utf8ByteSize (lineAt back.toList)).shift front.utf8ByteSize
      (front.toList.count '\n') =
        .endOfSource (front ++ back).utf8ByteSize (lineAt (front ++ back).toList) := by
  simp only [Token.shift, Token.endOfSource, Token.ofLexeme, Span.shift, Span.point,
    String.utf8ByteSize_append, String.toList_append, lineAt_append, Nat.add_comm]

/-- **A source is scanned as its parts are** if its elements are those of the parts. Between the
parts may be text that has no elements. -/
theorem tokenize_parts (front between back : String)
    (hfit : LinesFit (front ++ between ++ back).toList)
    (helements : elements [] (front ++ between ++ back).toList =
      elements [] front.toList ++ elements (front ++ between).toList back.toList) :
    ∃ s t, tokenize front = .ok s ∧ tokenize back = .ok t ∧
      tokenize (front ++ between ++ back) = .ok (s.join (t.shift (front ++ between).utf8ByteSize
        ((front ++ between).toList.count '\n'))) := by
  have hparts := hfit
  simp only [String.toList_append] at hparts
  have hwidth : width (front ++ between).toList = (front ++ between).utf8ByteSize := width_toList _
  have htokens :=
    filterMap_behind (front ++ between).toList (Placed.token?_behind _) back.toList
  have hdiagnostics :=
    filterMap_behind (front ++ between).toList (Placed.diagnostic?_behind _) back.toList
  refine ⟨_, _, tokenize_elements hparts.left.left, tokenize_elements hparts.right, ?_⟩
  rw [tokenize_elements hfit, helements, List.filterMap_append, List.filterMap_append, htokens,
    hdiagnostics, hwidth, ← shift_endOfSource]
  simp only [Scanned.join, Scanned.shift, filter_tokens, List.map_append, List.append_assoc,
    List.map_cons, List.map_nil]

end Lexical
