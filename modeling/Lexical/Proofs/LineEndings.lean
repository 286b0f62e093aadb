import Lexical.Proofs.Grammar.Literal
import Lexical.Proofs.Scan.Join
import Lexical.Proofs.Text.LineEnding
import Mathlib.Data.List.Basic

/-!
# Line ends do not matter

A source may be written with a carriage return in front of each line break, or without, and its
tokens and diagnostics are the same. What changes is what has to: the offsets, and the texts that
hold line breaks themselves, which are those of strings.

A carriage return is a blank, so between elements it only lengthens a gap, and in a comment it is
one more character in front of the line break. An element other than a string has no line break
in it and stops in front of a carriage return as it stops in front of a line break
(`Piece.first_crlf`).
-/

set_option autoImplicit false

namespace Lexical

open CharClass Text Cursor

/-! ## The result in the other form -/

def Span.crlf (s : Span) (source : String) : Span :=
  { s with start := crlfOffset source s.start, stop := crlfOffset source s.stop }

def Literal.crlf : Literal → Literal
  | .number value => .number value
  | .string value => .string (withCrlf value)

def Token.crlf (t : Token) (source : String) : Token :=
  { t with
    lexeme := withCrlf t.lexeme
    literal := t.literal.map Literal.crlf
    span := t.span.crlf source }

def Diagnostic.crlf (d : Diagnostic) (source : String) : Diagnostic :=
  { d with span := d.span.crlf source }

/-- The result of a source as it is when its line breaks come with carriage returns. -/
def Scanned.crlf (s : Scanned) (source : String) : Scanned :=
  { tokens := s.tokens.map fun t => t.crlf source
    diagnostics := s.diagnostics.map fun d => d.crlf source }

/-! ## Pieces -/

def Content.crlf : Content → Content
  | .blank => .blank
  | .token kind literal => .token kind (literal.map Literal.crlf)
  | .error e => .error e

def Piece.crlf (p : Piece) : Piece := ⟨p.content.crlf, Text.crlf p.text⟩

def Placed.crlf (p : Placed) : Placed := ⟨Text.crlf p.before, p.piece.crlf⟩

namespace Piece

variable {c : Char} {rest : List Char}

theorem operator_crlf (alone extended : Kind) (hc : c ≠ '\n') (rest : List Char) :
    operator alone extended c (Text.crlf rest) =
      ((operator alone extended c rest).1.crlf, Text.crlf (operator alone extended c rest).2) := by
  fun_cases operator alone extended c rest
  case case1 rest =>
    have hequals : '=' ≠ '\n' := by decide
    simp only [crlf_cons hequals, operator, crlf, Content.crlf, crlf_cons hc, crlf_nil,
      Option.map_none]
  case case2 hnext =>
    generalize hmore : Text.crlf rest = more
    fun_cases operator alone extended c more
    case case1 more =>
      obtain ⟨rest', rfl, -⟩ := exists_of_crlf_eq_cons (by decide) hmore
      exact absurd rfl (hnext rest')
    case case2 =>
      simp only [crlf, Content.crlf, crlf_cons hc, crlf_nil, Option.map_none]

theorem string_crlf (rest : List Char) :
    string '"' (Text.crlf rest) = ((string '"' rest).1.crlf, Text.crlf (string '"' rest).2) := by
  have htest : decide ('\r' ≠ '"') = decide ('\n' ≠ '"') := by decide
  have htake : (Text.crlf rest).takeWhile (· ≠ '"') = Text.crlf (rest.takeWhile (· ≠ '"')) :=
    takeWhile_crlf htest rest
  have hdrop : (Text.crlf rest).dropWhile (· ≠ '"') = Text.crlf (rest.dropWhile (· ≠ '"')) :=
    dropWhile_crlf htest rest
  have hquote : '"' ≠ '\n' := by decide
  have hstops := stops_dropWhile (· ≠ '"') rest
  unfold string
  rw [htake, hdrop]
  cases hrest : rest.dropWhile (· ≠ '"') with
  | nil => simp only [crlf_nil, crlf, Content.crlf, crlf_cons hquote]
  | cons quote after =>
    rw [hrest] at hstops
    obtain rfl : quote = '"' := by simpa using stops_cons.mp hstops
    simp only [crlf_cons hquote, crlf, Content.crlf, crlf_append, crlf_nil, Option.map_some,
      Literal.crlf, withCrlf, String.toList_ofList]

/-- A fraction has no line break in it, and a point that no digit follows is none in either
form. -/
theorem fraction_crlf (rest : List Char) :
    fraction (Text.crlf rest) = ((fraction rest).1, Text.crlf (fraction rest).2) := by
  have hpoint : '.' ≠ '\n' := by decide
  fun_cases fraction rest
  case case1 d rest hd =>
    have hclass : isDigit '\r' = isDigit '\n' := by decide
    have hbreak : d ≠ '\n' := by
      rintro rfl
      exact absurd hd (by decide)
    rw [crlf_cons hpoint, crlf_cons hbreak, fraction, if_pos hd, ← crlf_cons hbreak,
      takeWhile_crlf hclass, dropWhile_crlf hclass, crlf_takeWhile (by decide)]
  case case2 d rest hd =>
    rw [crlf_cons hpoint]
    by_cases hbreak : d = '\n'
    · subst hbreak
      rfl
    · rw [crlf_cons hbreak, fraction, if_neg hd]
  case case3 hnone =>
    generalize hmore : Text.crlf rest = more
    fun_cases fraction more
    case case3 => rfl
    all_goals
      obtain ⟨rest', rfl, hrest'⟩ := exists_of_crlf_eq_cons (by decide) hmore
      cases rest' with
      | nil => cases hrest'
      | cons d rest' => exact absurd rfl (hnone d rest')

theorem crlf_fraction (rest : List Char) : Text.crlf (fraction rest).1 = (fraction rest).1 := by
  apply crlf_of_not_mem
  rcases fraction_eq rest with hnone | ⟨ds, hsome, -, hds⟩
  · simp [hnone]
  · intro hmem
    rw [hsome] at hmem
    rcases List.mem_cons.mp hmem with h | h
    · exact absurd h (by decide)
    · exact absurd (hds _ h) (by decide)

theorem crlf_numberLiteral (text : List Char) :
    (numberLiteral text).map Literal.crlf = numberLiteral text := by
  rw [numberLiteral, Option.map_map]
  rfl

theorem number_crlf (hc : c ≠ '\n') (rest : List Char) :
    number c (Text.crlf rest) = ((number c rest).1.crlf, Text.crlf (number c rest).2) := by
  have hclass : isDigit '\r' = isDigit '\n' := by decide
  have hwhole : Text.crlf (rest.takeWhile isDigit) = rest.takeWhile isDigit :=
    crlf_takeWhile (by decide) rest
  simp only [number, takeWhile_crlf hclass, dropWhile_crlf hclass, fraction_crlf, crlf,
    Content.crlf, crlf_append, crlf_cons hc, hwhole, crlf_fraction, crlf_numberLiteral]

theorem word_crlf (hc : c ≠ '\n') (rest : List Char) :
    word c (Text.crlf rest) = ((word c rest).1.crlf, Text.crlf (word c rest).2) := by
  have hclass : isAlphaNumeric '\r' = isAlphaNumeric '\n' := by decide
  simp only [word, takeWhile_crlf hclass, dropWhile_crlf hclass, crlf, Content.crlf, crlf_cons hc,
    crlf_takeWhile (show isAlphaNumeric '\n' = false by decide), Option.map_none]

/-- **An element is the same in front of line ends of both forms**, and so is what it leaves. -/
theorem first_crlf (hc : StartsElement c) (rest : List Char) :
    first c (Text.crlf rest) = ((first c rest).1.crlf, Text.crlf (first c rest).2) := by
  have hbreak := hc.ne_break
  have hsingle : Text.crlf [c] = [c] := crlf_cons hbreak []
  fun_cases first c rest
  case case1 kind hp =>
    rw [first, hp]
    simp only [crlf, Content.crlf, hsingle, Option.map_none]
  case case2 alone extended ho hp =>
    rw [first, hp, ho]
    exact operator_crlf alone extended hbreak rest
  case case3 hcomment => exact absurd hcomment hc.1
  case case4 hblank => simp [hc.2] at hblank
  case case5 ho hp hcomment hblank hquote =>
    subst hquote
    exact string_crlf rest
  case case6 ho hp hcomment hblank hquote hdigit =>
    rw [first, hp, ho]
    dsimp only
    rw [if_neg hcomment, if_neg hblank, if_neg hquote, if_pos hdigit]
    exact number_crlf hbreak rest
  case case7 ho hp hcomment hblank hquote hdigit halpha =>
    rw [first, hp, ho]
    dsimp only
    rw [if_neg hcomment, if_neg hblank, if_neg hquote, if_neg hdigit, if_pos halpha]
    exact word_crlf hbreak rest
  case case8 ho hp hcomment hblank hquote hdigit halpha =>
    rw [first, hp, ho]
    dsimp only
    rw [if_neg hcomment, if_neg hblank, if_neg hquote, if_neg hdigit, if_neg halpha]
    simp only [crlf, Content.crlf, hsingle]

end Piece

/-! ## Gaps -/

theorem Skipped.crlf {gap : List Char} (h : Skipped gap) : Skipped (Text.crlf gap) := by
  induction h with
  | nil => exact .nil
  | @blank c rest hc _ ih =>
    by_cases hbreak : c = '\n'
    · subst hbreak
      exact .blank (by simp) (.blank (by simp) ih)
    · rw [crlf_cons hbreak]
      exact .blank hc ih
  | @comment body rest hbody _ ih =>
    -- The carriage return is the last character of the comment.
    have hmark : '#' ≠ '\n' := by decide
    have hlonger : '\n' ∉ body ++ ['\r'] := by simp [hbody]
    have hskip := Skipped.comment hlonger ih
    rw [crlf_append, crlf_cons hmark, crlf_of_not_mem hbody, crlf_break]
    simpa using hskip

theorem SkippedToEnd.crlf {gap : List Char} (h : SkippedToEnd gap) :
    SkippedToEnd (Text.crlf gap) := by
  cases h with
  | closed hgap => exact .closed hgap.crlf
  | unclosed hgap hbody =>
    have hmark : '#' ≠ '\n' := by decide
    rw [crlf_append, crlf_cons hmark, crlf_of_not_mem hbody]
    exact .unclosed hgap.crlf hbody

/-! ## The whole source -/

/-- **A layout stays one**, gap by gap and element by element. -/
theorem Layout.crlf {before after : List Char} {ps : List Placed} (h : Layout before after ps) :
    Layout (Text.crlf before) (Text.crlf after) (ps.map Placed.crlf) := by
  induction h with
  | last hgap => exact .last hgap.crlf
  | @next before gap rest c ps hgap hc _ ih =>
    have hfirst := Piece.first_crlf hc rest
    have hnext : Layout (Text.crlf before) (Text.crlf gap ++ c :: Text.crlf rest)
        (⟨Text.crlf before ++ Text.crlf gap, (Piece.first c (Text.crlf rest)).1⟩ ::
          ps.map Placed.crlf) := by
      refine .next hgap.crlf hc ?_
      rw [hfirst]
      rw [crlf_append, crlf_append] at ih
      exact ih
    rw [hfirst, ← crlf_append, ← crlf_cons hc.ne_break, ← crlf_append] at hnext
    exact hnext

section Element

variable {source : String} {p : Placed}

theorem span_crlf (hp : p ∈ elements [] source.toList) :
    Span.after (Text.crlf p.before) (Text.crlf p.piece.text) =
      (Span.after p.before p.piece.text).crlf source := by
  obtain ⟨rest, hsource⟩ := exists_behind hp
  have hstart := crlfOffset_width p.before (p.piece.text ++ rest)
  have hstop := crlfOffset_width (p.before ++ p.piece.text) rest
  rw [← List.append_assoc, ← hsource] at hstart
  rw [← hsource, crlf_append] at hstop
  simp only [Span.after, Span.crlf, hstart, hstop, ← crlf_append, lineAt_crlf]

theorem token?_crlf (hp : p ∈ elements [] source.toList) :
    p.crlf.token? = p.token?.map fun t => t.crlf source := by
  unfold Placed.token? Placed.item Piece.item
  dsimp only [Placed.crlf, Piece.crlf]
  rw [span_crlf hp]
  cases p.piece.content with
  | blank => rfl
  | error e => rfl
  | token kind literal =>
    simp only [Content.crlf, Option.map_some, Token.crlf, Token.ofLexeme, withCrlf,
      String.toList_ofList]
    rfl

theorem diagnostic?_crlf (hp : p ∈ elements [] source.toList) :
    p.crlf.diagnostic? = p.diagnostic?.map fun d => d.crlf source := by
  have hline : p.crlf.endLine = p.endLine := by
    rw [Placed.endLine, Placed.crlf, Piece.crlf, ← crlf_append, lineAt_crlf, Placed.endLine]
  unfold Placed.diagnostic? Placed.item Piece.item
  rw [hline]
  dsimp only [Placed.crlf, Piece.crlf]
  rw [span_crlf hp]
  cases p.piece.content with
  | blank => rfl
  | token kind literal => rfl
  | error e =>
    simp only [Content.crlf, Option.map_some, Error.diagnostic_eq]
    rfl

end Element

section Result

variable {source : String}

theorem elements_crlf (source : String) :
    elements [] (withCrlf source).toList = (elements [] source.toList).map Placed.crlf := by
  rw [withCrlf, String.toList_ofList]
  exact (layout_elements [] source.toList).crlf.elements_eq

theorem filterMap_crlf {α : Type} {f : Placed → Option α} {move : α → α}
    (hf : ∀ p ∈ elements [] source.toList, f p.crlf = (f p).map move) :
    (elements [] (withCrlf source).toList).filterMap f =
      ((elements [] source.toList).filterMap f).map move := by
  rw [elements_crlf, List.filterMap_map, List.map_filterMap]
  exact List.filterMap_congr hf

theorem crlf_endOfSource (source : String) :
    (Token.endOfSource source.utf8ByteSize (lineAt source.toList)).crlf source =
      .endOfSource (withCrlf source).utf8ByteSize (lineAt (withCrlf source).toList) := by
  have hend := crlfOffset_width source.toList []
  rw [List.append_nil, String.ofList_toList, width_toList] at hend
  simp only [Token.crlf, Token.endOfSource, Token.ofLexeme, Span.crlf, Span.point, hend, withCrlf,
    utf8ByteSize_ofList, String.toList_ofList, lineAt_crlf]
  rfl

/-- **The result does not depend on the form of the line ends**, but for offsets and the line ends
in texts. -/
theorem tokenize_crlf (hfit : LinesFit source.toList) :
    ∃ s, tokenize source = .ok s ∧ tokenize (withCrlf source) = .ok (s.crlf source) := by
  have hfit' : LinesFit (withCrlf source).toList := by
    rw [withCrlf, String.toList_ofList]
    exact linesFit_crlf hfit
  refine ⟨_, tokenize_elements hfit, ?_⟩
  rw [tokenize_elements hfit', filterMap_crlf fun p hp => token?_crlf hp,
    filterMap_crlf fun p hp => diagnostic?_crlf hp, ← crlf_endOfSource]
  simp only [Scanned.crlf, List.map_append, List.map_cons, List.map_nil]

theorem tokenize_crlf_mixed :
    LinesFit "a\n# é\r\n@ \"x\ny\" 1.\n\"\n".toList ∧
      ∃ s, tokenize "a\n# é\r\n@ \"x\ny\" 1.\n\"\n" = .ok s ∧
        tokenize "a\r\n# é\r\r\n@ \"x\r\ny\" 1.\r\n\"\r\n" =
          .ok (s.crlf "a\n# é\r\n@ \"x\ny\" 1.\n\"\n") :=
  ⟨by decide, tokenize_crlf (by decide)⟩

end Result

end Lexical
