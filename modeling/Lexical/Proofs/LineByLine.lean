import Lexical.Proofs.Grammar.Seam
import Lexical.Proofs.Modes
import Lexical.Proofs.Scan.Join

/-!
# Line by line

A file is scanned as a whole, and at a prompt each line is scanned by itself. Both give the same
tokens and diagnostics, but for a string that is left open: at a prompt it ends with its line,
and in a file the lines after it belong to it.

Whatever else a text ends in, a line break behind it ends it the way the end of a source does. A
comment stops in front of the break, and every other element stops because no rule but that of
strings has a line break in any of its texts (`Piece.first_before_break`). So a layout stays what
it is in front of a line break, which is `Layout.elements_break`.
-/

set_option autoImplicit false

namespace Lexical

open Text Cursor

/-- A line break closes a comment, if one was open. -/
theorem SkippedToEnd.append_break {gap : List Char} (h : SkippedToEnd gap) :
    Skipped (gap ++ ['\n']) := by
  cases h with
  | closed hgap => exact hgap.append (.blank (by simp) .nil)
  | unclosed hgap hbody =>
    rw [List.append_assoc]
    exact hgap.append (.comment hbody .nil)

/-- The elements in front of a line break are those of the text without it. -/
theorem Layout.elements_break {before after : List Char} {ps : List Placed}
    (h : Layout before after ps)
    (hclosed : ∀ p ∈ ps, p.piece.content ≠ .error .unterminatedString) (more : List Char) :
    elements before (after ++ '\n' :: more) =
      ps ++ elements (before ++ after ++ ['\n']) more := by
  induction h with
  | @last before gap hgap =>
    have hskip := elements_skipped hgap.append_break before more
    rw [List.append_assoc, List.singleton_append] at hskip
    rw [hskip, List.nil_append, List.append_assoc]
  | @next before gap rest c ps hgap hc _ ih =>
    have hstep := Piece.first_before_break hc (hclosed _ List.mem_cons_self) more
    have hbehind := ih fun p hp => hclosed p (List.mem_cons_of_mem _ hp)
    rw [append_first] at hbehind
    rw [List.append_assoc, List.cons_append, elements_skipped hgap, elements_cons hc, hstep,
      hbehind, List.cons_append]

theorem closed_of_coded {source : String} {s : Scanned}
    (hdiagnostics : s.diagnostics = (elements [] source.toList).filterMap Placed.diagnostic?)
    (hcoded : s.coded 1002 = []) :
    ∀ p ∈ elements [] source.toList, p.piece.content ≠ .error .unterminatedString := by
  intro p hp hopen
  have hd : p.diagnostic? = some (Error.unterminatedString.diagnostic p.span p.endLine) := by
    unfold Placed.diagnostic? Placed.item Piece.item
    rw [hopen]
    rfl
  have hmem : Error.unterminatedString.diagnostic p.span p.endLine ∈ s.coded 1002 := by
    rw [Scanned.coded, hdiagnostics, List.mem_filter]
    exact ⟨List.mem_filterMap.mpr ⟨p, hp, hd⟩, rfl⟩
  rw [hcoded] at hmem
  cases hmem

theorem elements_line_break {a : String}
    (hclosed : ∀ p ∈ elements [] a.toList, p.piece.content ≠ .error .unterminatedString)
    (b : String) : elements [] (a ++ "\n" ++ b).toList =
      elements [] a.toList ++ elements (a ++ "\n").toList b.toList := by
  have hbreak := (layout_elements [] a.toList).elements_break hclosed b.toList
  rw [List.nil_append] at hbreak
  rw [String.toList_append, String.toList_append, List.append_assoc]
  exact hbreak

theorem count_line_break (a : String) :
    (a ++ "\n").toList.count '\n' = a.toList.count '\n' + 1 := by
  rw [String.toList_append, List.count_append]
  rfl

/-- A string that is left open goes to the end of its source. -/
theorem stop_of_coded {source : String} {s : Scanned} {d : Diagnostic}
    (hfit : LinesFit source.toList) (hs : tokenize source = .ok s) (hd : d ∈ s.coded 1002) :
    d.span.stop = source.utf8ByteSize := by
  obtain ⟨-, -, -, -, hstop, -⟩ := (ByModes.of_tokenize hfit hs).unclosed d hd
  exact hstop

/-- So a result that ends in one is not the front of a longer one. -/
theorem coded_of_join {a more : String} {front back : Scanned}
    (hfit : LinesFit (a ++ more).toList) (hmore : more ≠ "") (hfront : tokenize a = .ok front)
    (hjoin : tokenize (a ++ more) = .ok (front.join back)) : front.coded 1002 = [] := by
  have hfits := hfit
  rw [String.toList_append] at hfits
  apply List.eq_nil_iff_forall_not_mem.mpr
  intro d hd
  have hd' : d ∈ (front.join back).coded 1002 := by
    rw [Scanned.coded, Scanned.join, List.filter_append]
    exact List.mem_append_left _ hd
  have hstop := stop_of_coded hfits.left hfront hd
  have hstop' := stop_of_coded hfit hjoin hd'
  have hpos : more.utf8ByteSize ≠ 0 := by simpa using hmore
  rw [hstop, String.utf8ByteSize_append] at hstop'
  omega

/-- **A line break between two texts is a break between two scans** exactly if the first text
leaves no string open. The line break needs a line number as well, so the texts have one less. -/
theorem tokenize_line_break {a b : String}
    (hfit : a.toList.count '\n' + b.toList.count '\n' < lastLine - 1) :
    ∃ front back, tokenize a = .ok front ∧ tokenize b = .ok back ∧
      (front.coded 1002 = [] ↔ tokenize (a ++ "\n" ++ b) =
        .ok (front.join (back.shift (a.utf8ByteSize + 1) (a.toList.count '\n' + 1)))) := by
  have hwhole : LinesFit ((a ++ "\n").toList ++ b.toList) := by
    rw [LinesFit, List.count_append, count_line_break]
    omega
  have hparts := hwhole
  rw [String.toList_append] at hparts
  have ha := tokenize_elements hparts.left.left
  have hb := tokenize_elements hparts.right
  rw [← String.toList_append] at hwhole
  refine ⟨_, _, ha, hb, fun hcoded => ?_, fun hjoin => ?_⟩
  · obtain ⟨front, back, hfront, hback, hjoin⟩ := tokenize_parts a "\n" b hwhole
      (elements_line_break (closed_of_coded rfl hcoded) b)
    rw [ha] at hfront
    rw [hb] at hback
    obtain rfl := Except.ok.inj hfront
    obtain rfl := Except.ok.inj hback
    have hbytes : (a ++ "\n").utf8ByteSize = a.utf8ByteSize + 1 := String.utf8ByteSize_append
    rw [hjoin, hbytes, count_line_break]
  · rw [String.append_assoc] at hwhole hjoin
    exact coded_of_join hwhole (by simp) ha hjoin

theorem tokenize_line_break_commented :
    "é = 1. @ # \"".toList.count '\n' + "\"\n\" x".toList.count '\n' < lastLine - 1 ∧
      ∃ front back, tokenize "é = 1. @ # \"" = .ok front ∧ tokenize "\"\n\" x" = .ok back ∧
        tokenize "é = 1. @ # \"\n\"\n\" x" = .ok (front.join (back.shift 14 1)) := by
  have hclosed : ((tokenize "é = 1. @ # \"").toOption.any fun s => s.coded 1002 = []) = true := by
    decide +kernel
  obtain ⟨front, back, hfront, hback, hjoin⟩ :=
    @tokenize_line_break "é = 1. @ # \"" "\"\n\" x" (by decide)
  rw [hfront] at hclosed
  exact ⟨by decide, front, back, hfront, hback, hjoin.mp (of_decide_eq_true hclosed)⟩

end Lexical
