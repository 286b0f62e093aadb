import Lexical.Proofs.Scan.Run

/-!
# Elements and the gaps between them

Of the pieces of a source only some show in the result: the tokens, and the texts a diagnostic
is about. They are the *elements*, and the text around them is *skipped*. `Layout` is a source
read that way, a gap and an element at a time, and `layout_elements` is the induction that the
statements about whole scans are proved by: it hides that a scan takes blanks one by one, and
that a comment and the line break after it are two pieces.

What may be skipped is said without the scanner, by `Skipped`. A comment needs its line break to
be skipped text, except at the end of a source.
-/

set_option autoImplicit false

namespace Lexical

open CharClass Text Cursor Piece

/-- Text made of blanks and of comments that are closed by a line break. -/
inductive Skipped : List Char → Prop
  | nil : Skipped []
  | blank {c : Char} {rest : List Char} :
      c ∈ [' ', '\t', '\r', '\n'] → Skipped rest → Skipped (c :: rest)
  | comment {body rest : List Char} :
      '\n' ∉ body → Skipped rest → Skipped ('#' :: body ++ '\n' :: rest)

/-- Skipped text at the end of a source, where nothing has to close the last comment. -/
inductive SkippedToEnd : List Char → Prop
  | closed {gap : List Char} : Skipped gap → SkippedToEnd gap
  | unclosed {gap body : List Char} :
      Skipped gap → '\n' ∉ body → SkippedToEnd (gap ++ '#' :: body)

/-- A character that starts an element. -/
def StartsElement (c : Char) : Prop := c ≠ '#' ∧ isBlank c = false

def Placed.isElement (p : Placed) : Bool :=
  match p.piece.content with
  | .blank => false
  | _ => true

/-- The elements of `after` where it follows `before`. -/
def elements (before after : List Char) : List Placed :=
  (placed before after).filter Placed.isElement

/-- A text is gaps and elements in turn. -/
inductive Layout : List Char → List Char → List Placed → Prop
  | last {before gap : List Char} : SkippedToEnd gap → Layout before gap []
  | next {before gap rest : List Char} {c : Char} {ps : List Placed} :
      Skipped gap → StartsElement c →
      Layout (before ++ gap ++ (first c rest).1.text) (first c rest).2 ps →
      Layout before (gap ++ c :: rest) (⟨before ++ gap, (first c rest).1⟩ :: ps)

/-! ## Which pieces are elements -/

theorem isBlank_iff {c : Char} : isBlank c = true ↔ c ∈ [' ', '\t', '\r', '\n'] := by
  simp only [isBlank, Bool.or_eq_true, decide_eq_true_eq, List.mem_cons, List.not_mem_nil,
    or_false]
  constructor
  · rintro (((h | h) | h) | h) <;> simp [h]
  · rintro (h | h | h | h) <;> simp [h]

theorem first_blank {c : Char} (hc : c ∈ [' ', '\t', '\r', '\n']) (rest : List Char) :
    first c rest = (⟨.blank, [c]⟩, rest) := by
  simp only [List.mem_cons, List.not_mem_nil, or_false] at hc
  rcases hc with rfl | rfl | rfl | rfl <;> rfl

theorem isElement_first {c : Char} (hc : StartsElement c) (before rest : List Char) :
    Placed.isElement ⟨before, (first c rest).1⟩ = true := by
  fun_cases first c rest
  case case2 alone extended _ _ => fun_cases operator alone extended c rest <;> rfl
  case case3 h => exact absurd h hc.1
  case case4 h => exact absurd (hc.2 ▸ h) (by simp)
  case case5 =>
    unfold string
    cases rest.dropWhile (· ≠ '"') <;> rfl
  all_goals rfl

theorem Placed.token?_eq_some {p : Placed} {t : Token} (h : p.token? = some t) :
    ∃ kind literal, p.piece.content = .token kind literal ∧
      t = .ofLexeme kind (String.ofList p.piece.text) literal p.span := by
  unfold Placed.token? Placed.item Piece.item at h
  cases hc : p.piece.content with
  | token kind literal =>
    simp only [hc, Option.some.injEq] at h
    exact ⟨kind, literal, rfl, h.symm⟩
  | blank => simp [hc] at h
  | error e => simp [hc] at h

theorem Placed.diagnostic?_eq_some {p : Placed} {d : Diagnostic} (h : p.diagnostic? = some d) :
    ∃ e, p.piece.content = .error e ∧ d = e.diagnostic p.span p.endLine := by
  unfold Placed.diagnostic? Placed.item Piece.item at h
  cases hc : p.piece.content with
  | error e =>
    simp only [hc, Option.some.injEq] at h
    exact ⟨e, rfl, h.symm⟩
  | blank => simp [hc] at h
  | token kind literal => simp [hc] at h

theorem Error.diagnostic_eq (e : Error) (span : Span) (line : Nat) :
    e.diagnostic span line =
      { message := e.message, line, span, code := some e.code, notes := e.notes } := by
  cases e <;> rfl

theorem filterMap_elements {β : Type} {f : Placed → Option β}
    (hf : ∀ p, p.isElement = false → f p = none) (before after : List Char) :
    (elements before after).filterMap f = (placed before after).filterMap f := by
  rw [elements, List.filterMap_filter]
  congr 1
  funext p
  cases hp : p.isElement with
  | true => rfl
  | false => exact (hf p hp).symm

theorem isElement_of_mem {before after : List Char} {p : Placed}
    (h : p ∈ elements before after) : p.isElement = true :=
  (List.mem_filter.mp h).2

theorem StartsElement.ne_break {c : Char} (hc : StartsElement c) : c ≠ '\n' := by
  rintro rfl
  cases hc.2

/-- A gap and an element with what they leave are the text. -/
theorem append_first (before gap : List Char) (c : Char) (rest : List Char) :
    before ++ gap ++ (first c rest).1.text ++ (first c rest).2 = before ++ (gap ++ c :: rest) := by
  rw [List.append_assoc, first_append, List.append_assoc]

/-! ## Skipping -/

theorem elements_nil (before : List Char) : elements before [] = [] := by
  rw [elements, placed_nil, List.filter_nil]

theorem elements_cons {c : Char} (hc : StartsElement c) (before rest : List Char) :
    elements before (c :: rest) = ⟨before, (first c rest).1⟩ ::
      elements (before ++ (first c rest).1.text) (first c rest).2 := by
  rw [elements, placed_cons, List.filter_cons_of_pos (isElement_first hc before rest), elements]

theorem elements_blank {c : Char} (hc : c ∈ [' ', '\t', '\r', '\n']) (before rest : List Char) :
    elements before (c :: rest) = elements (before ++ [c]) rest := by
  rw [elements, placed_cons, first_blank hc, List.filter_cons_of_neg (by simp [Placed.isElement]),
    elements]

theorem elements_comment {body rest : List Char} (hbody : '\n' ∉ body)
    (hrest : Stops (· ≠ '\n') rest) (before : List Char) :
    elements before ('#' :: body ++ rest) = elements (before ++ '#' :: body) rest := by
  have hrun := ne_of_not_mem hbody
  have hfirst : first '#' (body ++ rest) = (⟨.blank, '#' :: body⟩, rest) := by
    show comment '#' (body ++ rest) = _
    rw [comment, takeWhile_run hrun hrest, dropWhile_run hrun hrest]
  rw [List.cons_append, elements, placed_cons, hfirst,
    List.filter_cons_of_neg (by simp [Placed.isElement]), elements]

/-- Skipped text adds nothing to the elements, whatever follows it. -/
theorem elements_skipped {gap : List Char} (hgap : Skipped gap) (before after : List Char) :
    elements before (gap ++ after) = elements (before ++ gap) after := by
  induction hgap generalizing before with
  | nil => simp
  | blank hc hrest ih =>
    rw [List.cons_append, elements_blank hc, ih, List.append_assoc, List.singleton_append]
  | @comment body rest hbody hrest ih =>
    -- The scanner leaves the line break of a comment and skips it as a blank.
    have hstop := stops_ne_cons '\n' (rest ++ after)
    rw [List.append_assoc]
    show elements before ('#' :: body ++ '\n' :: (rest ++ after)) = _
    rw [elements_comment hbody hstop before, elements_blank (by simp), ih]
    simp

theorem elements_skippedToEnd {gap : List Char} (hgap : SkippedToEnd gap) (before : List Char) :
    elements before gap = [] := by
  cases hgap with
  | closed h =>
    have hskip := elements_skipped h before []
    rwa [List.append_nil, elements_nil] at hskip
  | @unclosed gap body h hbody =>
    have hopen := elements_comment hbody stops_nil (before ++ gap)
    rw [List.append_nil, elements_nil] at hopen
    rw [elements_skipped h, hopen]

/-! ## Every text is a layout -/

/-- A layout names exactly the elements that a scan finds. -/
theorem Layout.elements_eq {before after : List Char} {ps : List Placed}
    (h : Layout before after ps) : elements before after = ps := by
  induction h with
  | last hgap => exact elements_skippedToEnd hgap _
  | next hgap hc _ ih => rw [elements_skipped hgap, elements_cons hc, ih]

theorem Skipped.append {a b : List Char} (ha : Skipped a) (hb : Skipped b) :
    Skipped (a ++ b) := by
  induction ha with
  | nil => exact hb
  | blank hc _ ih => exact .blank hc ih
  | comment hbody _ ih =>
    rw [List.append_assoc, List.cons_append]
    exact .comment hbody ih

theorem Skipped.append_toEnd {a b : List Char} (ha : Skipped a) (hb : SkippedToEnd b) :
    SkippedToEnd (a ++ b) := by
  cases hb with
  | closed hb => exact .closed (ha.append hb)
  | unclosed hb hbody =>
    rw [← List.append_assoc]
    exact .unclosed (ha.append hb) hbody

/-- A text can be skipped to its end, or up to a character that starts an element. -/
def SkippedOrStarts (text : List Char) : Prop :=
  SkippedToEnd text ∨ ∃ gap c rest, text = gap ++ c :: rest ∧ Skipped gap ∧ StartsElement c

theorem SkippedOrStarts.prepend {gap text : List Char} (hgap : Skipped gap)
    (h : SkippedOrStarts text) : SkippedOrStarts (gap ++ text) := by
  rcases h with hend | ⟨more, c, rest, rfl, hmore, hc⟩
  · exact Or.inl (hgap.append_toEnd hend)
  · exact Or.inr ⟨gap ++ more, c, rest, by simp, hgap.append hmore, hc⟩

theorem skippedOrStarts (text : List Char) : SkippedOrStarts text := by
  match text with
  | [] => exact Or.inl (.closed .nil)
  | c :: rest =>
    by_cases hcomment : c = '#'
    · subst hcomment
      have hbody : '\n' ∉ rest.takeWhile (· ≠ '\n') := by
        intro h
        simpa using of_mem_takeWhile h
      have hsplit := List.takeWhile_append_dropWhile (p := (· ≠ '\n')) (l := rest)
      have hstops := stops_dropWhile (· ≠ '\n') rest
      cases hd : rest.dropWhile (· ≠ '\n') with
      | nil =>
        rw [hd, List.append_nil] at hsplit
        rw [hsplit] at hbody
        exact Or.inl (.unclosed .nil hbody)
      | cons newline after =>
        -- The line break closes the comment, and the text behind it is shorter.
        rw [hd] at hsplit hstops
        obtain rfl : newline = '\n' := by simpa using stops_cons.mp hstops
        have hshorter : after.length < ('#' :: rest).length := by
          have hlen := congrArg List.length hsplit
          simp only [List.length_append, List.length_cons] at hlen ⊢
          omega
        have hstep := (skippedOrStarts after).prepend (.comment hbody .nil)
        rw [← hsplit]
        simpa using hstep
    · by_cases hblank : isBlank c = true
      · exact (skippedOrStarts rest).prepend (.blank (isBlank_iff.mp hblank) .nil)
      · exact Or.inr ⟨[], c, rest, rfl, .nil, hcomment, by simpa using hblank⟩
termination_by text.length
decreasing_by
  · exact hshorter
  · exact Nat.lt_succ_self rest.length

/-- **Every text is a layout of the elements that a scan finds in it.** -/
theorem layout_elements (before after : List Char) :
    Layout before after (elements before after) := by
  rcases skippedOrStarts after with hend | ⟨gap, c, rest, rfl, hgap, hc⟩
  · rw [elements_skippedToEnd hend]
    exact .last hend
  · have hshorter : (first c rest).2.length < (gap ++ c :: rest).length := by
      have hlen := length_first_lt c rest
      rw [List.length_append]
      omega
    rw [elements_skipped hgap, elements_cons hc]
    exact .next hgap hc (layout_elements _ _)
termination_by after.length
decreasing_by
  subst after
  exact hshorter

/-- An element is the first piece of the text that starts there. -/
theorem exists_of_mem_elements {before after : List Char} {p : Placed}
    (h : p ∈ elements before after) : ∃ c rest, before ++ after = p.before ++ c :: rest ∧
      StartsElement c ∧ p.piece = (first c rest).1 := by
  have hlayout := layout_elements before after
  generalize elements before after = ps at h hlayout
  induction hlayout with
  | last => cases h
  | @next before gap rest c ps hgap hc _ ih =>
    rcases List.mem_cons.mp h with rfl | h
    · exact ⟨c, rest, by simp, hc, rfl⟩
    · obtain ⟨d, more, heq, hd, hp⟩ := ih h
      refine ⟨d, more, ?_, hd, hp⟩
      rw [← heq, List.append_assoc, List.append_assoc, first_append]

/-- An element is found where it stands. -/
theorem exists_behind {source : String} {p : Placed} (h : p ∈ elements [] source.toList) :
    ∃ rest, source = String.ofList (p.before ++ p.piece.text ++ rest) := by
  obtain ⟨c, rest, hsplit, -, hpiece⟩ := exists_of_mem_elements h
  refine ⟨(first c rest).2, ?_⟩
  rw [hpiece, List.append_assoc, first_append, ← hsplit, List.nil_append, String.ofList_toList]

theorem Layout.prefix_before {before after : List Char} {ps : List Placed}
    (h : Layout before after ps) : ∀ p ∈ ps, before <+: p.before := by
  induction h with
  | last => simp
  | @next before gap rest c ps _ _ _ ih =>
    intro p hp
    rcases List.mem_cons.mp hp with rfl | hp
    · exact List.prefix_append before gap
    · have hfront : before <+: before ++ gap ++ (first c rest).1.text := by
        rw [List.append_assoc]
        exact List.prefix_append before _
      exact hfront.trans (ih p hp)

/-- An element lies behind all of the elements before it. -/
theorem Layout.apart {before after : List Char} {ps : List Placed} (h : Layout before after ps) :
    ps.Pairwise fun p q => p.before ++ p.piece.text <+: q.before := by
  induction h with
  | last => exact .nil
  | next _ _ hrest ih => exact .cons hrest.prefix_before ih

theorem tokenize_elements {source : String} (hfit : LinesFit source.toList) :
    tokenize source = .ok
      { tokens := (elements [] source.toList).filterMap Placed.token? ++
          [.endOfSource source.utf8ByteSize (lineAt source.toList)]
        diagnostics := (elements [] source.toList).filterMap Placed.diagnostic? } := by
  have htoken : ∀ p : Placed, p.isElement = false → p.token? = none := by
    intro p hp
    cases ht : p.token? with
    | none => rfl
    | some t =>
      obtain ⟨kind, literal, hc, -⟩ := Placed.token?_eq_some ht
      simp [Placed.isElement, hc] at hp
  have hdiagnostic : ∀ p : Placed, p.isElement = false → p.diagnostic? = none := by
    intro p hp
    cases hd : p.diagnostic? with
    | none => rfl
    | some d =>
      obtain ⟨e, hc, -⟩ := Placed.diagnostic?_eq_some hd
      simp [Placed.isElement, hc] at hp
  rw [tokenize_eq hfit, filterMap_elements htoken, filterMap_elements hdiagnostic]

end Lexical
