import Lexical.Proofs.Grammar.Seam
import Lexical.Proofs.Scan.Join

/-!
# Cutting a source

Where something that a result reports starts or ends, the source may be cut: its two parts,
scanned one by one, give the result of the whole. Inside a token this is not so: `ab` is one
token, and `a` and `b` are two.

The part behind the cut is read as it was, since a scan keeps nothing of what it has read
(`Scan/Join.lean`). In the part before the cut the last element has lost what stood behind it,
and may have taken it into account, as a number does with a point that no digit follows. That
the element stays what it is, with any part of the text behind it, is `Piece.first_cut`. Here a
layout is cut with it, element by element (`Layout.cutAt`).
-/

set_option autoImplicit false

namespace Lexical

open Text Cursor

namespace Scanned

/-- An offset at which something that the result reports starts or ends. -/
def Marks (s : Scanned) (p : Nat) : Prop :=
  (∃ t ∈ s.tokens, p = t.span.start ∨ p = t.span.stop) ∨
    ∃ d ∈ s.diagnostics, p = d.span.start ∨ p = d.span.stop

instance (s : Scanned) (p : Nat) : Decidable (s.Marks p) := inferInstanceAs (Decidable (_ ∨ _))

/-- The result is what the two parts of its source give, if the source is cut at `p`. -/
def JoinedAt (s : Scanned) (source : String) (p : Nat) : Prop :=
  ∃ left right front back,
    slice? source 0 p = some left ∧ slice? source p source.utf8ByteSize = some right ∧
      tokenize left = .ok front ∧ tokenize right = .ok back ∧
        s = front.join (back.shift p (left.toList.count '\n'))

end Scanned

/-- A piece starts or ends where `seam` does. -/
def Placed.Touches (p : Placed) (seam : List Char) : Prop :=
  seam = p.before ∨ seam = p.before ++ p.piece.text

/-- A layout is two layouts, with `seam` before the second. -/
def CutAt (before after seam : List Char) (ps : List Placed) : Prop :=
  ∃ front back fs bs, after = front ++ back ∧ seam = before ++ front ∧ ps = fs ++ bs ∧
    Layout before front fs ∧ Layout seam back bs

/-! ## Cutting a layout -/

section Layout

variable {before after gap rest seam front back : List Char} {c : Char} {ps fs : List Placed}

/-- An element stands in front of a part of what stood behind it. -/
theorem Layout.cons_cut (hgap : Skipped gap) (hc : StartsElement c)
    (hrest : (Piece.first c rest).2 = front ++ back)
    (hfront : Layout (before ++ gap ++ (Piece.first c rest).1.text) front fs) :
    Layout before (gap ++ (Piece.first c rest).1.text ++ front)
      (⟨before ++ gap, (Piece.first c rest).1⟩ :: fs) := by
  obtain ⟨tail, htext, hcut⟩ := Piece.first_cut hc hrest
  have hnext : Layout before (gap ++ c :: (tail ++ front))
      (⟨before ++ gap, (Piece.first c (tail ++ front)).1⟩ :: fs) := by
    refine .next hgap hc ?_
    rw [hcut]
    exact hfront
  rw [hcut] at hnext
  rwa [htext, List.append_assoc, List.cons_append]

theorem CutAt.cons (hgap : Skipped gap) (hc : StartsElement c)
    (h : CutAt (before ++ gap ++ (Piece.first c rest).1.text) (Piece.first c rest).2 seam ps) :
    CutAt before (gap ++ c :: rest) seam (⟨before ++ gap, (Piece.first c rest).1⟩ :: ps) := by
  obtain ⟨front, back, fs, bs, hsplit, rfl, rfl, hfront, hback⟩ := h
  refine ⟨gap ++ (Piece.first c rest).1.text ++ front, back, _, bs, ?_, ?_, rfl,
    .cons_cut hgap hc hsplit hfront, hback⟩
  · rw [List.append_assoc, List.append_assoc, ← hsplit, Piece.first_append]
  · simp only [List.append_assoc]

/-- **A layout can be cut where one of its elements starts or ends.** -/
theorem Layout.cutAt {q : Placed} (h : Layout before after ps) (hq : q ∈ ps)
    (hseam : q.Touches seam) : CutAt before after seam ps := by
  induction h with
  | last => cases hq
  | @next before gap rest c ps hgap hc hrest ih =>
    rcases List.mem_cons.mp hq with rfl | hq
    · rcases hseam with rfl | rfl
      · have hnext : Layout (before ++ gap) ([] ++ c :: rest)
            (⟨before ++ gap ++ [], (Piece.first c rest).1⟩ :: ps) :=
          .next .nil hc (by rwa [List.append_nil])
        rw [List.append_nil] at hnext
        exact ⟨gap, c :: rest, [], _, rfl, rfl, rfl, .last (.closed hgap), hnext⟩
      · exact .cons hgap hc
          ⟨[], _, [], ps, rfl, (List.append_nil _).symm, rfl, .last (.closed .nil), hrest⟩
    · exact .cons hgap hc (ih hq)

end Layout

/-! ## The whole source -/

/-- The text up to a place where an element of the source starts or ends, or up to its end. -/
def IsSeam (source : String) (seam : List Char) : Prop :=
  seam = source.toList ∨ ∃ q ∈ elements [] source.toList, q.Touches seam

section Result

variable {source : String} {s : Scanned} {line p : Nat}

theorem exists_seam_of_span {q : Placed} (hq : q ∈ elements [] source.toList)
    (hp : p = q.span.start ∨ p = q.span.stop) : ∃ seam, p = width seam ∧ IsSeam source seam := by
  rcases hp with rfl | rfl
  · exact ⟨q.before, rfl, Or.inr ⟨q, hq, Or.inl rfl⟩⟩
  · exact ⟨q.before ++ q.piece.text, rfl, Or.inr ⟨q, hq, Or.inr rfl⟩⟩

theorem Scanned.Marks.exists_seam
    (htokens : s.tokens = (elements [] source.toList).filterMap Placed.token? ++
      [.endOfSource source.utf8ByteSize line])
    (hdiagnostics : s.diagnostics = (elements [] source.toList).filterMap Placed.diagnostic?)
    (hp : s.Marks p) : ∃ seam, p = width seam ∧ IsSeam source seam := by
  rcases hp with ⟨t, ht, hp⟩ | ⟨d, hd, hp⟩
  · rw [htokens] at ht
    rcases List.mem_append.mp ht with ht | ht
    · obtain ⟨q, hq, ht⟩ := List.mem_filterMap.mp ht
      obtain ⟨kind, literal, -, rfl⟩ := Placed.token?_eq_some ht
      exact exists_seam_of_span hq hp
    · -- The end token starts and ends where the source ends.
      obtain rfl := List.mem_singleton.mp ht
      refine ⟨source.toList, ?_, Or.inl rfl⟩
      rw [width_toList]
      exact hp.elim id id
  · rw [hdiagnostics] at hd
    obtain ⟨q, hq, hd⟩ := List.mem_filterMap.mp hd
    obtain ⟨e, -, rfl⟩ := Placed.diagnostic?_eq_some hd
    rw [Error.diagnostic_eq] at hp
    exact exists_seam_of_span hq hp

/-- The elements of a source are those of its parts, where it is cut at a seam. -/
theorem elements_of_seam {seam : List Char} (h : IsSeam source seam) :
    ∃ front back : String, seam = front.toList ∧ source = front ++ back ∧
      elements [] source.toList = elements [] front.toList ++ elements front.toList back.toList := by
  rcases h with rfl | ⟨q, hq, hseam⟩
  · refine ⟨source, "", rfl, String.append_empty.symm, ?_⟩
    rw [String.toList_empty, elements_nil, List.append_nil]
  · obtain ⟨front, back, fs, bs, hsplit, hbefore, hps, hfront, hback⟩ :=
      (layout_elements [] source.toList).cutAt hq hseam
    obtain rfl : seam = front := hbefore
    refine ⟨String.ofList seam, String.ofList back, String.toList_ofList.symm, ?_, ?_⟩
    · rw [← String.ofList_append, ← hsplit, String.ofList_toList]
    · rw [String.toList_ofList, String.toList_ofList, hfront.elements_eq, hback.elements_eq, hps]

end Result

/-- **A source may be cut wherever something that was reported starts or ends.** -/
theorem tokenize_cut {source : String} (hfit : LinesFit source.toList) :
    ∃ scanned, tokenize source = .ok scanned ∧
      ∀ p, scanned.Marks p → scanned.JoinedAt source p := by
  have hwhole := tokenize_elements hfit
  refine ⟨_, hwhole, fun p hp => ?_⟩
  obtain ⟨seam, rfl, hseam⟩ := hp.exists_seam rfl rfl
  obtain ⟨front, back, rfl, rfl, helements⟩ := elements_of_seam hseam
  have hparts := tokenize_parts front "" back
  rw [String.append_empty] at hparts
  obtain ⟨s, t, hs, ht, hjoin⟩ := hparts hfit helements
  rw [hwhole] at hjoin
  have hleft := slice?_append "" front back
  have hright := slice?_append front back ""
  rw [String.append_empty] at hright
  rw [String.empty_append] at hleft
  rw [width_toList]
  exact ⟨front, back, s, t, hleft, hright, hs, ht, Except.ok.inj hjoin⟩

theorem tokenize_cut_pointed :
    LinesFit "1.x\n\"é".toList ∧
      ∃ scanned, tokenize "1.x\n\"é" = .ok scanned ∧ scanned.Marks 2 ∧ scanned.Marks 4 ∧
        scanned.JoinedAt "1.x\n\"é" 2 ∧ scanned.JoinedAt "1.x\n\"é" 4 := by
  have hmarks : ((tokenize "1.x\n\"é").toOption.any fun s => s.Marks 2 ∧ s.Marks 4) = true := by
    decide +kernel
  obtain ⟨scanned, hscan, hjoined⟩ := @tokenize_cut "1.x\n\"é" (by decide)
  rw [hscan] at hmarks
  obtain ⟨hpoint, hquote⟩ := of_decide_eq_true hmarks
  exact ⟨by decide, scanned, hscan, hpoint, hquote, hjoined 2 hpoint, hjoined 4 hquote⟩

end Lexical
