import Lexical.Proofs.Grammar.Longest

/-!
# Tokens and diagnostics tile their source

The tokens of a source and its diagnostics are two lists, and nothing in a result says how they
lie together. Sorted by where they start they are the *elements* of the result, and this file
proves that these are laid out over the source like tiles: none is empty, no two overlap, what
shows between them is skipped text, and the gaps and the elements put together again are the
source.

The elements are sorted here, and not collected in the order in which a scan meets them, because
the order is part of what is claimed. The proof goes the other way: the elements of a layout
(`Scan/Layout.lean`) are met in the order of their offsets, and two sorted lists of the same
elements are one list.
-/

set_option autoImplicit false

namespace Lexical

open Text Cursor

/-! ## The elements of a result -/

inductive Element where
  | token (t : Token)
  | diagnostic (d : Diagnostic)

namespace Element

def span : Element → Span
  | token t => t.span
  | diagnostic d => d.span

def token? : Element → Option Token
  | token t => some t
  | diagnostic _ => none

def diagnostic? : Element → Option Diagnostic
  | token _ => none
  | diagnostic d => some d

def le (a b : Element) : Bool := a.span.start ≤ b.span.start

end Element

/-- The tokens of a result but for the last one, and its diagnostics, by where they start. -/
def Scanned.elements (s : Scanned) : List Element :=
  let tokens := s.tokens.filter fun t => !t.isEnd
  (tokens.map Element.token ++ s.diagnostics.map Element.diagnostic).mergeSort Element.le

/-- From an offset on, a source is gaps and the given elements in turn. -/
def Tiles (source : String) (start : Nat) : List Element → Prop
  | [] => ∃ gap, slice? source start source.utf8ByteSize = some (String.ofList gap) ∧
      SkippedToEnd gap
  | e :: es =>
    (∃ gap, slice? source start e.span.start = some (String.ofList gap) ∧ Skipped gap) ∧
      (∃ text, slice? source e.span.start e.span.stop = some text ∧ text ≠ "") ∧
      Tiles source e.span.stop es

/-- What the gaps and the given elements say the source is, from an offset on. -/
def rebuilt (source : String) (start : Nat) : List Element → String
  | [] => (slice? source start source.utf8ByteSize).getD ""
  | e :: es =>
    (slice? source start e.span.start).getD "" ++ e.span.slice source ++
      rebuilt source e.span.stop es

/-- A token list is closed by its one end token, which is empty and stands at `offset`. -/
def EndsOnce (offset : Nat) (ts : List Token) : Prop :=
  ∃ init last, ts = init ++ [last] ∧ (∀ t ∈ init, t.isEnd = false) ∧ last.isEnd = true ∧
    last.lexeme = "" ∧ last.literal = none ∧ last.span.start = offset ∧ last.span.stop = offset

/-- A result is laid out over its source. -/
structure Tiling (source : String) (s : Scanned) : Prop where
  nonempty : ∀ e ∈ s.elements, e.span.start < e.span.stop
  within : ∀ e ∈ s.elements, isBoundary source e.span.start = true ∧
    isBoundary source e.span.stop = true ∧ e.span.stop ≤ source.utf8ByteSize
  apart : s.elements.Pairwise fun a b => a.span.stop ≤ b.span.start
  tokens_ordered : s.elements.filterMap Element.token? = s.tokens.filter fun t => !t.isEnd
  diagnostics_ordered : s.elements.filterMap Element.diagnostic? = s.diagnostics
  lexemes : ∀ t ∈ s.tokens, t.lexeme = t.span.slice source
  tiles : Tiles source 0 s.elements
  ends : EndsOnce source.utf8ByteSize s.tokens
  rebuilt_eq : rebuilt source 0 s.elements = source

/-! ## What tiles are like

These need no scan, only that slices are there. -/

theorem width_lt_of_slice? {source text : String} {start stop : Nat}
    (h : slice? source start stop = some text) (hne : text ≠ "") : start < stop := by
  obtain ⟨before, after, -, rfl, rfl⟩ := slice?_eq_some_iff.mp h
  have hpos : text.utf8ByteSize ≠ 0 := by simpa using hne
  rw [String.utf8ByteSize_append]
  omega

theorem bounds_of_slice? {source text : String} {start stop : Nat}
    (h : slice? source start stop = some text) :
    start ≤ stop ∧ isBoundary source start = true ∧ isBoundary source stop = true :=
  isSome_slice?_iff.mp (by rw [h]; rfl)

namespace Tiles

variable {source : String} {start : Nat} {es : List Element}

theorem le_start (h : Tiles source start es) : ∀ e ∈ es, start ≤ e.span.start := by
  induction es generalizing start with
  | nil => simp
  | cons e es ih =>
    obtain ⟨⟨gap, hgap, -⟩, ⟨text, htext, -⟩, hrest⟩ := h
    intro f hf
    have hstart := (bounds_of_slice? hgap).1
    rcases List.mem_cons.mp hf with rfl | hf
    · exact hstart
    · have hstop := (bounds_of_slice? htext).1
      exact Nat.le_trans (Nat.le_trans hstart hstop) (ih hrest f hf)

theorem apart (h : Tiles source start es) :
    es.Pairwise fun a b => a.span.stop ≤ b.span.start := by
  induction es generalizing start with
  | nil => exact .nil
  | cons e es ih =>
    obtain ⟨-, -, hrest⟩ := h
    exact .cons hrest.le_start (ih hrest)

theorem start_le (h : Tiles source start es) : start ≤ source.utf8ByteSize := by
  induction es generalizing start with
  | nil =>
    obtain ⟨gap, hgap, -⟩ := h
    exact (bounds_of_slice? hgap).1
  | cons e es ih =>
    obtain ⟨⟨gap, hgap, -⟩, ⟨text, htext, -⟩, hrest⟩ := h
    have hstart := (bounds_of_slice? hgap).1
    have hstop := (bounds_of_slice? htext).1
    exact Nat.le_trans hstart (Nat.le_trans hstop (ih hrest))

/-- An element is a text between two boundaries of the source, and not an empty one. -/
theorem mem (h : Tiles source start es) {e : Element} (he : e ∈ es) :
    e.span.start < e.span.stop ∧ isBoundary source e.span.start = true ∧
      isBoundary source e.span.stop = true ∧ e.span.stop ≤ source.utf8ByteSize := by
  induction es generalizing start with
  | nil => cases he
  | cons f es ih =>
    obtain ⟨-, ⟨text, htext, hne⟩, hrest⟩ := h
    rcases List.mem_cons.mp he with rfl | he
    · obtain ⟨-, hstart, hstop⟩ := bounds_of_slice? htext
      exact ⟨width_lt_of_slice? htext hne, hstart, hstop, hrest.start_le⟩
    · exact ih hrest he

end Tiles

/-! ## The elements of a layout -/

def Placed.element? (p : Placed) : Option Element :=
  match p.item with
  | .blank => none
  | .token t => some (.token t)
  | .error e span => some (.diagnostic (e.diagnostic span p.endLine))

theorem Placed.exists_element {p : Placed} (hp : p.isElement = true) :
    ∃ e, p.element? = some e ∧ e.span = p.span := by
  unfold Placed.element? Placed.item Piece.item
  cases hcontent : p.piece.content with
  | blank => simp [Placed.isElement, hcontent] at hp
  | token kind literal => exact ⟨_, rfl, rfl⟩
  | error e =>
    refine ⟨_, rfl, ?_⟩
    rw [Element.span, Error.diagnostic_eq]
    rfl

theorem Placed.bind_token? (p : Placed) : p.element?.bind Element.token? = p.token? := by
  unfold Placed.element? Placed.token?
  cases p.item <;> rfl

theorem Placed.bind_diagnostic? (p : Placed) :
    p.element?.bind Element.diagnostic? = p.diagnostic? := by
  unfold Placed.element? Placed.diagnostic?
  cases p.item <;> rfl

/-- The tokens and the diagnostics of a list of pieces are its elements, in another order. -/
theorem perm_elements (ps : List Placed) :
    ((ps.filterMap Placed.token?).map Element.token ++
      (ps.filterMap Placed.diagnostic?).map Element.diagnostic).Perm
        (ps.filterMap Placed.element?) := by
  induction ps with
  | nil => exact .nil
  | cons p ps ih =>
    cases hitem : p.item with
    | blank => simpa [Placed.token?, Placed.diagnostic?, Placed.element?, hitem] using ih
    | token t => simpa [Placed.token?, Placed.diagnostic?, Placed.element?, hitem] using ih
    | error e span =>
      simp only [List.filterMap_cons, Placed.token?, Placed.diagnostic?, Placed.element?, hitem,
        List.map_cons]
      exact List.perm_middle.trans (ih.cons _)

theorem Element.le_trans (a b c : Element) (hab : a.le b = true) (hbc : b.le c = true) :
    a.le c = true := by
  simp only [Element.le, decide_eq_true_eq] at hab hbc ⊢
  omega

theorem Element.le_total (a b : Element) : (a.le b || b.le a) = true := by
  simp only [Element.le, Bool.or_eq_true, decide_eq_true_eq]
  omega

/-- Elements that lie apart are sorted, and there is no other way to sort them. -/
theorem mergeSort_eq {es sorted : List Element} (hperm : es.Perm sorted)
    (hapart : sorted.Pairwise fun a b => a.span.stop ≤ b.span.start)
    (hnonempty : ∀ e ∈ sorted, e.span.start < e.span.stop) : es.mergeSort Element.le = sorted := by
  have hlt : sorted.Pairwise fun a b => a.span.start < b.span.start := by
    refine hapart.imp_of_mem ?_
    intro a b ha _ hab
    exact Nat.lt_of_lt_of_le (hnonempty a ha) hab
  -- Starting at the same offset is being the same element, so there are no ties to break.
  have hsame : ∀ a ∈ sorted, ∀ b ∈ sorted, a.span.start = b.span.start → a = b := by
    intro a ha b hb
    refine List.Pairwise.forall_of_forall_of_flip
      (R := fun a b => a.span.start = b.span.start → a = b) (fun _ _ _ => rfl) ?_ ?_ ha hb
    · exact hlt.imp fun h h' => absurd h' (Nat.ne_of_lt h)
    · exact hlt.imp fun h h' => absurd h'.symm (Nat.ne_of_lt h)
  have hperm' := (List.mergeSort_perm es Element.le).trans hperm
  have hsorted := List.pairwise_mergeSort Element.le_trans Element.le_total es
  refine List.Perm.eq_of_pairwise ?_ hsorted
    (hlt.imp fun h => decide_eq_true (Nat.le_of_lt h)) hperm'
  intro a b ha hb hab hba
  exact hsame a (hperm'.mem_iff.mp ha) b hb
    (Nat.le_antisymm (of_decide_eq_true hab) (of_decide_eq_true hba))

section Layout

variable {source : String} {before after : List Char} {ps : List Placed}

/-- The texts of a gap and of the element behind it, and what the source is after them. -/
theorem slices_of_next {gap rest : List Char} {c : Char}
    (hsource : source = String.ofList (before ++ (gap ++ c :: rest))) :
    slice? source (width before) (width (before ++ gap)) = some (String.ofList gap) ∧
      slice? source (width (before ++ gap))
        (width (before ++ gap ++ (Piece.first c rest).1.text)) =
          some (String.ofList (Piece.first c rest).1.text) ∧
      source = String.ofList
        (before ++ gap ++ (Piece.first c rest).1.text ++ (Piece.first c rest).2) := by
  have hnext : source = String.ofList
      (before ++ gap ++ (Piece.first c rest).1.text ++ (Piece.first c rest).2) := by
    rw [append_first, hsource]
  refine ⟨?_, ?_, hnext⟩
  · rw [hsource, ← List.append_assoc]
    exact slice?_width before gap (c :: rest)
  · rw [hnext]
    exact slice?_width (before ++ gap) _ _

theorem Layout.tiles (h : Layout before after ps)
    (hsource : source = String.ofList (before ++ after)) :
    Tiles source (width before) (ps.filterMap Placed.element?) := by
  induction h with
  | @last before gap hgap =>
    refine ⟨gap, ?_, hgap⟩
    rw [hsource, utf8ByteSize_ofList]
    exact slice?_width_end before gap
  | @next before gap rest c ps hgap hc _ ih =>
    obtain ⟨e, he, hspan⟩ := Placed.exists_element (isElement_first hc (before ++ gap) rest)
    obtain ⟨hgapText, htext, hnext⟩ := slices_of_next hsource
    have hne : String.ofList (Piece.first c rest).1.text ≠ "" := by
      rw [ne_eq, String.ofList_eq_empty_iff]
      exact Piece.first_text_ne_nil c rest
    rw [List.filterMap_cons_some he, Tiles, hspan]
    exact ⟨⟨gap, hgapText, hgap⟩, ⟨_, htext, hne⟩, ih hnext⟩

theorem Layout.rebuilt_eq (h : Layout before after ps)
    (hsource : source = String.ofList (before ++ after)) :
    rebuilt source (width before) (ps.filterMap Placed.element?) = String.ofList after := by
  induction h with
  | @last before gap hgap =>
    rw [List.filterMap_nil, rebuilt, hsource, utf8ByteSize_ofList, slice?_width_end]
    rfl
  | @next before gap rest c ps hgap hc _ ih =>
    obtain ⟨e, he, hspan⟩ := Placed.exists_element (isElement_first hc (before ++ gap) rest)
    obtain ⟨hgapText, htext, hnext⟩ := slices_of_next hsource
    rw [List.filterMap_cons_some he, rebuilt, Span.slice, hspan]
    show (slice? source (width before) (width (before ++ gap))).getD "" ++
      (slice? source (width (before ++ gap)) (width (before ++ gap ++ _))).getD "" ++
        rebuilt source (width (before ++ gap ++ _)) (ps.filterMap Placed.element?) = _
    rw [hgapText, htext, ih hnext]
    simp only [Option.getD_some, ← String.ofList_append, List.append_assoc, Piece.first_append]

theorem lexeme_eq_slice {p : Placed} {t : Token} (hp : p ∈ elements [] source.toList)
    (ht : p.token? = some t) : t.lexeme = t.span.slice source := by
  obtain ⟨kind, literal, -, rfl⟩ := Placed.token?_eq_some ht
  obtain ⟨rest, hsource⟩ := exists_behind hp
  have hslice := slice?_width p.before p.piece.text rest
  rw [← hsource] at hslice
  show String.ofList p.piece.text =
    (slice? source (width p.before) (width (p.before ++ p.piece.text))).getD ""
  rw [hslice]
  rfl

theorem slice_end (source : String) :
    slice? source source.utf8ByteSize source.utf8ByteSize = some "" := by
  have h := slice?_width_end source.toList []
  rwa [List.append_nil, String.ofList_toList, width_toList] at h

end Layout

/-! ## The whole source -/

section Result

variable {source : String} {s : Scanned} {line : Nat}

/-- Sorting the two lists of a result gives the order in which the scan met their members. -/
theorem elements_of_result
    (htokens : s.tokens = (elements [] source.toList).filterMap Placed.token? ++
      [.endOfSource source.utf8ByteSize line])
    (hdiagnostics : s.diagnostics = (elements [] source.toList).filterMap Placed.diagnostic?) :
    s.elements = (elements [] source.toList).filterMap Placed.element? := by
  have hsource : source = String.ofList ([] ++ source.toList) := by simp
  have htiles := (layout_elements [] source.toList).tiles hsource
  unfold Scanned.elements
  rw [htokens, hdiagnostics, filter_tokens]
  exact mergeSort_eq (perm_elements _) htiles.apart fun e he => (htiles.mem he).1

theorem tiling_of_result
    (htokens : s.tokens = (elements [] source.toList).filterMap Placed.token? ++
      [.endOfSource source.utf8ByteSize line])
    (hdiagnostics : s.diagnostics = (elements [] source.toList).filterMap Placed.diagnostic?) :
    Tiling source s := by
  have hsource : source = String.ofList ([] ++ source.toList) := by simp
  have htiles := (layout_elements [] source.toList).tiles hsource
  have hrebuilt := (layout_elements [] source.toList).rebuilt_eq hsource
  have helements := elements_of_result htokens hdiagnostics
  rw [← helements] at htiles hrebuilt
  constructor
  case nonempty => exact fun e he => (htiles.mem he).1
  case within => exact fun e he => (htiles.mem he).2
  case apart => exact htiles.apart
  case tokens_ordered =>
    rw [helements, htokens, filter_tokens, List.filterMap_filterMap]
    simp only [Placed.bind_token?]
  case diagnostics_ordered =>
    rw [helements, hdiagnostics, List.filterMap_filterMap]
    simp only [Placed.bind_diagnostic?]
  case lexemes =>
    rw [htokens]
    intro t ht
    rcases List.mem_append.mp ht with ht | ht
    · obtain ⟨p, hp, ht⟩ := List.mem_filterMap.mp ht
      exact lexeme_eq_slice hp ht
    · rw [List.mem_singleton.mp ht]
      show "" = (slice? source source.utf8ByteSize source.utf8ByteSize).getD ""
      rw [slice_end]
      rfl
  case tiles => exact htiles
  case ends =>
    refine ⟨_, _, htokens, ?_, rfl, rfl, rfl, rfl, rfl⟩
    intro t ht
    obtain ⟨p, hp, ht⟩ := List.mem_filterMap.mp ht
    exact isEnd_of_token? hp ht
  case rebuilt_eq => exact hrebuilt.trans String.ofList_toList

end Result

/-- **A result is laid out over its source like tiles**, whether there were errors or not. -/
theorem tokenize_tiling {source : String} (hfit : LinesFit source.toList) :
    ∃ scanned, tokenize source = .ok scanned ∧ Tiling source scanned :=
  ⟨_, tokenize_elements hfit, tiling_of_result rfl rfl⟩

theorem tokenize_tiling_unclosed :
    LinesFit "a @ # b\n\"c".toList ∧
      ∃ scanned, tokenize "a @ # b\n\"c" = .ok scanned ∧ Tiling "a @ # b\n\"c" scanned :=
  ⟨by decide, tokenize_tiling (by decide)⟩

end Lexical
