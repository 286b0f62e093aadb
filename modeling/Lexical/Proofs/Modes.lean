import Lexical.Proofs.Grammar.Longest

/-!
# Diagnostics by a machine of three modes

What a scan reports can be said without tokens. A machine that reads one character at a time and
remembers only whether it is in code, in a comment or in a string finds the same faults: a
character is unexpected if it is read in code and belongs to nothing, and a string is not closed
if the machine ends in one.

The machine is run over the whole source and the scan goes token by token, so the two are
compared a layout at a time. Gaps and tokens start in code and end in code, and the one text
that does not is a string without its closing quote, which is the last element there is. That is
`Layout.reports`.
-/

set_option autoImplicit false

namespace Lexical

open CharClass Text Cursor

/-- Where a character of a source stands. -/
inductive Mode where
  | code
  | comment
  | string
  deriving DecidableEq

/-- The mode after a character. -/
def Mode.next : Mode → Char → Mode
  | code, '"' => string
  | code, '#' => comment
  | comment, '\n' => code
  | string, '"' => code
  | mode, _ => mode

def Mode.after (mode : Mode) (text : List Char) : Mode := text.foldl Mode.next mode

/-- A character that was read: what stands before it, the mode it was read in, and itself. -/
structure Reading where
  before : List Char
  mode : Mode
  char : Char

/-- The readings of a text, in order, by a machine in the given mode. -/
def readings (mode : Mode) (before : List Char) : List Char → List Reading
  | [] => []
  | c :: rest => ⟨before, mode, c⟩ :: readings (mode.next c) (before ++ [c]) rest

/-- A character that belongs to no token and separates none. -/
def Stray (c : Char) : Prop :=
  c ∉ [' ', '\r', '\t', '\n', '#', '"'] ∧
    c ∉ ['(', ')', '{', '}', ',', '.', '-', '+', ';', '*', '/', '!', '=', '<', '>'] ∧
    c.isDigit = false ∧ c.isAlpha = false ∧ c ≠ '_'

instance (c : Char) : Decidable (Stray c) := inferInstanceAs (Decidable (_ ∧ _))

namespace Reading

/-- Whether a character that belongs to nothing was read in code. -/
def isStray (r : Reading) : Bool := r.mode = .code ∧ Stray r.char

def isOpening (r : Reading) : Bool := r.mode = .code ∧ r.char = '"'

/-- The diagnostic about a stray character: its own bytes, and which character it is. -/
def report (r : Reading) : Diagnostic :=
  let start := width r.before
  { message := "Unexpected character."
    line := lineAt r.before
    span := ⟨start, start + r.char.utf8Size, lineAt r.before⟩
    code := some ⟨"E", 1001⟩
    notes := ["found " ++ quotedChar r.char] }

end Reading

def strays (mode : Mode) (before text : List Char) : List Reading :=
  (readings mode before text).filter Reading.isStray

/-- The offset of the last quote in a text that opens a string. -/
def lastOpening (text : List Char) : Option Nat :=
  ((readings .code [] text).filter Reading.isOpening).getLast?.map fun r => width r.before

/-! ## Reading -/

section Reading

variable {mode : Mode} {before text body : List Char}

theorem Mode.after_append (mode : Mode) (a b : List Char) :
    mode.after (a ++ b) = (mode.after a).after b := List.foldl_append

theorem Mode.after_cons (mode : Mode) (c : Char) (text : List Char) :
    mode.after (c :: text) = (mode.next c).after text := rfl

theorem readings_append (mode : Mode) (before a b : List Char) :
    readings mode before (a ++ b) =
      readings mode before a ++ readings (mode.after a) (before ++ a) b := by
  induction a generalizing mode before with
  | nil => simp [readings, Mode.after]
  | cons c a ih =>
    rw [List.cons_append, readings, ih, readings, Mode.after_cons, List.append_assoc]
    rfl

theorem strays_append (mode : Mode) (before a b : List Char) :
    strays mode before (a ++ b) = strays mode before a ++ strays (mode.after a) (before ++ a) b := by
  rw [strays, readings_append, List.filter_append, strays, strays]

/-- A mode is kept by a text whose characters all keep it. -/
theorem readings_of_keeps (h : ∀ c ∈ text, mode.next c = mode) (before : List Char) :
    mode.after text = mode ∧ ∀ r ∈ readings mode before text, r.mode = mode ∧ r.char ∈ text := by
  induction text generalizing before with
  | nil => exact ⟨rfl, by simp [readings]⟩
  | cons c text ih =>
    have hc : mode.next c = mode := h c List.mem_cons_self
    obtain ⟨hafter, hmem⟩ := ih (fun d hd => h d (List.mem_cons_of_mem c hd)) (before ++ [c])
    rw [Mode.after_cons, readings, hc]
    refine ⟨hafter, ?_⟩
    intro r hr
    rcases List.mem_cons.mp hr with rfl | hr
    · exact ⟨rfl, List.mem_cons_self⟩
    · exact ⟨(hmem r hr).1, List.mem_cons_of_mem c (hmem r hr).2⟩

theorem Mode.next_string {c : Char} (hc : c ≠ '"') : Mode.string.next c = .string := by
  unfold Mode.next
  split <;> simp_all

theorem Mode.next_comment {c : Char} (hc : c ≠ '\n') : Mode.comment.next c = .comment := by
  unfold Mode.next
  split <;> simp_all

theorem Mode.next_code {c : Char} (hquote : c ≠ '"') (hcomment : c ≠ '#') :
    Mode.code.next c = .code := by
  unfold Mode.next
  split <;> simp_all

/-- Nothing shows of what is read inside a comment or a string. -/
theorem strays_enclosed (hcode : mode ≠ .code) (h : ∀ c ∈ text, mode.next c = mode)
    (before : List Char) : mode.after text = mode ∧ strays mode before text = [] := by
  obtain ⟨hafter, hmem⟩ := readings_of_keeps h before
  refine ⟨hafter, List.filter_eq_nil_iff.mpr ?_⟩
  intro r hr
  simp [Reading.isStray, (hmem r hr).1, hcode]

theorem strays_entered {start : Char} (hcode : mode ≠ .code)
    (hstart : Mode.code.next start = mode) (hstray : ¬ Stray start)
    (h : ∀ c ∈ text, mode.next c = mode) (before : List Char) :
    Mode.code.after (start :: text) = mode ∧ strays .code before (start :: text) = [] := by
  obtain ⟨hafter, hnone⟩ := strays_enclosed hcode h (before ++ [start])
  have hfront : strays .code before [start] = [] := by
    simp [strays, readings, Reading.isStray, hstray]
  have hmid : Mode.code.after [start] = mode := hstart
  constructor
  · rw [Mode.after_cons, hstart, hafter]
  · rw [← List.singleton_append, strays_append, hfront, hmid, hnone]
    rfl

theorem comment_keeps (hbody : '\n' ∉ body) : ∀ c ∈ body, Mode.comment.next c = .comment := by
  intro c hc
  apply Mode.next_comment
  rintro rfl
  exact hbody hc

theorem string_keeps (hbody : '"' ∉ body) : ∀ c ∈ body, Mode.string.next c = .string := by
  intro c hc
  apply Mode.next_string
  rintro rfl
  exact hbody hc

end Reading

/-! ## Texts that leave no trace -/

/-- A text that is read from code to code, with nothing stray in it. -/
structure Quiet (text : List Char) : Prop where
  after : Mode.code.after text = .code
  unseen : ∀ before, strays .code before text = []

/-- A character that keeps code and is not stray. -/
def Plain (c : Char) : Prop := c ≠ '"' ∧ c ≠ '#' ∧ ¬ Stray c

instance (c : Char) : Decidable (Plain c) := inferInstanceAs (Decidable (_ ∧ _))

namespace Quiet

variable {a b text body : List Char}

theorem nil : Quiet [] := ⟨rfl, fun _ => rfl⟩

theorem append (ha : Quiet a) (hb : Quiet b) : Quiet (a ++ b) := by
  constructor
  · rw [Mode.after_append, ha.after, hb.after]
  · intro before
    rw [strays_append, ha.unseen, ha.after, hb.unseen]
    rfl

theorem of_plain (h : ∀ c ∈ text, Plain c) : Quiet text := by
  have hkeeps : ∀ c ∈ text, Mode.code.next c = .code :=
    fun c hc => Mode.next_code (h c hc).1 (h c hc).2.1
  refine ⟨(readings_of_keeps hkeeps []).1, ?_⟩
  intro before
  refine List.filter_eq_nil_iff.mpr ?_
  intro r hr
  simp [Reading.isStray, (h _ ((readings_of_keeps hkeeps before).2 r hr).2).2.2]

/-- A text between two characters that lead into a mode and out of it again. -/
theorem enclosed {mode : Mode} {start stop : Char} (hcode : mode ≠ .code)
    (hstart : Mode.code.next start = mode) (hstray : ¬ Stray start)
    (hbody : ∀ c ∈ body, mode.next c = mode) (hstop : mode.next stop = .code) :
    Quiet (start :: body ++ [stop]) := by
  have hentered := strays_entered hcode hstart hstray hbody
  constructor
  · rw [Mode.after_append, (hentered []).1]
    exact hstop
  · intro before
    have hback : strays mode (before ++ start :: body) [stop] = [] := by
      simp [strays, readings, Reading.isStray, hcode]
    rw [strays_append, (hentered before).1, (hentered before).2, hback]
    rfl

theorem comment (hbody : '\n' ∉ body) : Quiet ('#' :: body ++ ['\n']) :=
  enclosed (by decide) rfl (by decide) (comment_keeps hbody) rfl

theorem string (hbody : '"' ∉ body) : Quiet ('"' :: body ++ ['"']) :=
  enclosed (by decide) rfl (by decide) (string_keeps hbody) rfl

end Quiet

theorem Skipped.quiet {gap : List Char} (h : Skipped gap) : Quiet gap := by
  induction h with
  | nil => exact .nil
  | @blank c rest hc _ ih =>
    have hall : [' ', '\t', '\r', '\n'].all (fun c => decide (Plain c)) = true := by decide
    have hplain : Plain c := of_decide_eq_true (List.all_eq_true.mp hall c hc)
    have hblank : Quiet [c] := .of_plain (by simpa using hplain)
    exact hblank.append ih
  | @comment body rest hbody _ ih =>
    have h := (Quiet.comment hbody).append ih
    rwa [List.append_assoc, List.singleton_append] at h

theorem plain_of_isDigit {c : Char} (hc : c.isDigit = true) : Plain c := by
  refine ⟨?_, ?_, ?_⟩
  · rintro rfl
    exact absurd hc (by decide)
  · rintro rfl
    exact absurd hc (by decide)
  · intro hstray
    rw [hstray.2.2.1] at hc
    cases hc

theorem plain_of_isLetter {c : Char} (hc : IsLetter c) : Plain c := by
  rcases hc with hc | rfl
  · refine ⟨?_, ?_, ?_⟩
    · rintro rfl
      exact absurd hc (by decide)
    · rintro rfl
      exact absurd hc (by decide)
    · intro hstray
      rw [hstray.2.2.2.1] at hc
      cases hc
  · decide

theorem plain_of_isNumber {text : List Char} (h : IsNumber text) : ∀ c ∈ text, Plain c := by
  intro c hc
  rcases isDigit_or_point_of_mem h hc with hdigit | rfl
  · exact plain_of_isDigit hdigit
  · decide

theorem plain_of_isWord {text : List Char} (h : IsWord text) : ∀ c ∈ text, Plain c := by
  cases text with
  | nil => exact h.elim
  | cons c rest =>
    intro d hd
    rcases List.mem_cons.mp hd with rfl | hd
    · exact plain_of_isLetter h.1
    · exact (h.2 d hd).elim plain_of_isLetter plain_of_isDigit

theorem Rule.quiet {kind : Kind} {text : List Char} (h : Rule kind text) : Quiet text := by
  cases h with
  | @punctuator c kind hmem =>
    have hall : ∀ p ∈ punctuators, Plain p.1 := by decide
    exact .of_plain (by simpa using hall _ hmem)
  | operator hmem =>
    have hall : ∀ p ∈ operators, p.1.all (fun c => decide (Plain c)) = true := by decide
    exact .of_plain fun c hc => of_decide_eq_true (List.all_eq_true.mp (hall _ hmem) c hc)
  | word hword _ => exact .of_plain (plain_of_isWord hword)
  | number hnumber => exact .of_plain (plain_of_isNumber hnumber)
  | string hbody => exact .string hbody

/-! ## Texts that are reported -/

theorem stray_of_no_class {c : Char} (hp : Kind.punctuator? c = none)
    (ho : Kind.operator? c = none) (hcomment : c ≠ '#') (hblank : ¬ isBlank c = true)
    (hquote : c ≠ '"') (hdigit : ¬ isDigit c = true) (halpha : ¬ isAlpha c = true) : Stray c := by
  have hlisted : ['(', ')', '{', '}', ',', '.', '-', '+', ';', '*', '/', '!', '=', '<', '>'].all
      (fun d => (Kind.punctuator? d).isSome || (Kind.operator? d).isSome) = true := by decide
  rw [isAlpha_iff] at halpha
  refine ⟨?_, ?_, by simpa [isDigit_eq] using hdigit, ?_, fun h => halpha (Or.inr h)⟩
  · simp only [isBlank_iff, List.mem_cons, List.not_mem_nil, or_false, not_or] at hblank ⊢
    obtain ⟨hspace, htab, hreturn, hnewline⟩ := hblank
    exact ⟨hspace, hreturn, htab, hnewline, hcomment, hquote⟩
  · intro hmem
    have h := List.all_eq_true.mp hlisted c hmem
    rw [hp, ho] at h
    cases h
  · cases h : c.isAlpha with
    | false => rfl
    | true => exact absurd (Or.inl h) halpha

/-- An error is a stray character, or a quote with no other quote behind it. -/
theorem first_of_error {c : Char} {rest : List Char} {e : Error}
    (h : (Piece.first c rest).1.content = .error e) :
    e = .unexpectedCharacter c ∧ Stray c ∧ Piece.first c rest = (⟨.error e, [c]⟩, rest) ∨
      e = .unterminatedString ∧ c = '"' ∧ '"' ∉ rest ∧
        Piece.first c rest = (⟨.error e, '"' :: rest⟩, []) := by
  revert h
  fun_cases Piece.first c rest
  case case2 alone extended _ _ =>
    fun_cases Piece.operator alone extended c rest <;> intro h <;> cases h
  case case5 hquote =>
    subst hquote
    by_cases hmem : '"' ∈ rest
    · obtain ⟨body, after, rfl, hbody⟩ := List.eq_append_cons_of_mem hmem
      rw [Piece.string_closed hbody]
      intro h
      cases h
    · rw [Piece.string_unclosed hmem]
      intro h
      cases h
      exact Or.inr ⟨rfl, rfl, hmem, rfl⟩
  case case8 ho hp hcomment hblank hquote hdigit halpha =>
    intro h
    cases h
    exact Or.inl ⟨rfl, stray_of_no_class hp ho hcomment hblank hquote hdigit halpha, rfl⟩
  all_goals
    intro h
    cases h

namespace Stray

variable {c : Char}

theorem next_code (h : Stray c) : Mode.code.next c = .code := by
  apply Mode.next_code
  · rintro rfl
    exact absurd h (by decide)
  · rintro rfl
    exact absurd h (by decide)

theorem strays_singleton (h : Stray c) (before : List Char) :
    strays .code before [c] = [⟨before, .code, c⟩] := by
  simp [strays, readings, Reading.isStray, h]

theorem diagnostic_eq (h : Stray c) (before : List Char) :
    (Error.unexpectedCharacter c).diagnostic (.after before [c]) (lineAt (before ++ [c])) =
      Reading.report ⟨before, .code, c⟩ := by
  have hline : c ≠ '\n' := by
    rintro rfl
    exact absurd h (by decide)
  have hlineAt : lineAt (before ++ [c]) = lineAt before := by
    simp [lineAt, List.count_append, hline]
  rw [Error.diagnostic_eq, hlineAt]
  simp [Reading.report, Span.after, Error.message, Error.code, Error.notes,
    Code.unexpectedCharacter]

end Stray

/-- The diagnostic about a string that the text leaves open: it goes on to the end. -/
def unclosed (before body : List Char) : Diagnostic :=
  { message := "Unterminated string."
    line := lineAt (before ++ '"' :: body)
    span := ⟨width before, width (before ++ '"' :: body), lineAt before⟩
    code := some ⟨"E", 1002⟩
    notes := [] }

/-- What the elements of a text report, by how the machine ends. -/
inductive Reports (before after : List Char) (ps : List Placed) : Prop
  | ended : Mode.code.after after ≠ .string →
      ps.filterMap Placed.diagnostic? = (strays .code before after).map Reading.report →
      Reports before after ps
  | leftOpen (opened body : List Char) : after = opened ++ '"' :: body →
      Mode.code.after opened = .code → '"' ∉ body →
      ps.filterMap Placed.diagnostic? =
        (strays .code before after).map Reading.report ++ [unclosed (before ++ opened) body] →
      (∀ p ∈ ps, ∀ t, p.token? = some t → width p.before < width (before ++ opened)) →
      Reports before after ps

/-- **One element more**: the text in front of a report is read from code to code, and the
element in it reports what is stray there. -/
theorem Reports.step {before front after : List Char} {p : Placed} {ps : List Placed}
    (hmode : Mode.code.after front = .code)
    (hp : p.diagnostic?.toList = (strays .code before front).map Reading.report)
    (hlt : width p.before < width (before ++ front))
    (h : Reports (before ++ front) after ps) : Reports before (front ++ after) (p :: ps) := by
  have hdiagnostics : (p :: ps).filterMap Placed.diagnostic? =
      p.diagnostic?.toList ++ ps.filterMap Placed.diagnostic? := by
    rw [List.filterMap_cons]
    cases p.diagnostic? <;> rfl
  have hstrays : strays .code before (front ++ after) =
      strays .code before front ++ strays .code (before ++ front) after := by
    rw [strays_append, hmode]
  cases h with
  | ended hend heq =>
    refine .ended ?_ ?_
    · rwa [Mode.after_append, hmode]
    · rw [hdiagnostics, hp, heq, hstrays, List.map_append]
  | leftOpen opened body hafter hopened hbody heq htokens =>
    subst hafter
    refine .leftOpen (front ++ opened) body (by simp) ?_ hbody ?_ ?_
    · rw [Mode.after_append, hmode, hopened]
    · rw [hdiagnostics, hp, heq, hstrays, List.map_append, List.append_assoc, List.append_assoc]
    · rw [← List.append_assoc]
      intro q hq t ht
      rcases List.mem_cons.mp hq with rfl | hq
      · rw [width_append]
        omega
      · exact htokens q hq t ht

/-- **A scan reports what the machine finds.** -/
theorem Layout.reports {before after : List Char} {ps : List Placed}
    (h : Layout before after ps) : Reports before after ps := by
  -- Each gap starts and ends in code, so the machine is in code at every element of the layout.
  induction h with
  | @last before gap hgap =>
    cases hgap with
    | closed hgap =>
      refine .ended ?_ ?_
      · rw [hgap.quiet.after]
        decide
      · rw [hgap.quiet.unseen]
        rfl
    | @unclosed gap body hgap hbody =>
      have hentered : ∀ before, Mode.code.after ('#' :: body) = .comment ∧
          strays .code before ('#' :: body) = [] :=
        strays_entered (by decide) rfl (by decide) (comment_keeps hbody)
      refine .ended ?_ ?_
      · rw [Mode.after_append, hgap.quiet.after, (hentered []).1]
        decide
      · rw [strays_append, hgap.quiet.unseen, hgap.quiet.after, (hentered (before ++ gap)).2]
        rfl
  | @next before gap rest c ps hgap hc hlayout ih =>
    have hsplit : gap ++ c :: rest = (gap ++ (Piece.first c rest).1.text) ++
        (Piece.first c rest).2 := by
      rw [List.append_assoc, Piece.first_append]
    have hlt : width (before ++ gap) < width (before ++ (gap ++ (Piece.first c rest).1.text)) := by
      have hpos := width_pos (Piece.first_text_ne_nil c rest)
      rw [← List.append_assoc, width_append (before ++ gap)]
      omega
    have hcorrect := Piece.correct_first c rest
    have hshown := isElement_first hc [] rest
    rw [List.append_assoc] at ih
    cases hcontent : (Piece.first c rest).1.content with
    | blank => simp [Placed.isElement, hcontent] at hshown
    | token kind literal =>
      rw [Piece.Correct, hcontent] at hcorrect
      have hquiet := hgap.quiet.append hcorrect.1.rule.quiet
      rw [hsplit]
      refine .step hquiet.after ?_ hlt ih
      rw [hquiet.unseen]
      simp [Placed.diagnostic?, Placed.item, Piece.item, hcontent]
    | error e =>
      -- A stray character keeps code like a token does; an open string is where the layout ends.
      rcases first_of_error hcontent with ⟨rfl, hstray, hfirst⟩ | ⟨rfl, rfl, hquote, hfirst⟩
      · rw [hsplit]
        rw [hfirst] at ih hlt ⊢
        refine .step ?_ ?_ hlt ih
        · rw [Mode.after_append, hgap.quiet.after]
          exact hstray.next_code
        · rw [strays_append, hgap.quiet.unseen, hgap.quiet.after, List.nil_append,
            hstray.strays_singleton]
          exact congrArg (fun d => [d]) (hstray.diagnostic_eq (before ++ gap))
      · -- Nothing is left behind the quote, so the report ends here.
        obtain rfl : ps = [] := by
          rw [← hlayout.elements_eq, hfirst, elements_nil]
        have hentered : ∀ before, Mode.code.after ('"' :: rest) = .string ∧
            strays .code before ('"' :: rest) = [] :=
          strays_entered (by decide) rfl (by decide) (string_keeps hquote)
        refine .leftOpen gap rest rfl hgap.quiet.after hquote ?_ ?_
        · rw [strays_append, hgap.quiet.unseen, hgap.quiet.after, (hentered (before ++ gap)).2,
            hfirst]
          rfl
        · intro p hp t ht
          rw [List.mem_singleton.mp hp] at ht
          simp [Placed.token?, Placed.item, Piece.item, hfirst] at ht

/-! ## The whole source -/

theorem lastOpening_leftOpen {opened body : List Char} (hopened : Mode.code.after opened = .code)
    (hbody : '"' ∉ body) : lastOpening (opened ++ '"' :: body) = some (width opened) := by
  have hnone : (readings .string (opened ++ ['"']) body).filter Reading.isOpening = [] := by
    rw [List.filter_eq_nil_iff]
    intro r hr
    simp [Reading.isOpening, ((readings_of_keeps (string_keeps hbody) _).2 r hr).1]
  have hback : (readings .code opened ('"' :: body)).filter Reading.isOpening =
      [⟨opened, .code, '"'⟩] := by
    rw [readings, List.filter_cons_of_pos (by simp [Reading.isOpening])]
    exact congrArg _ hnone
  rw [lastOpening, readings_append, hopened, List.nil_append, List.filter_append, hback]
  simp

def Scanned.coded (s : Scanned) (number : Nat) : List Diagnostic :=
  s.diagnostics.filter fun d => d.code = some ⟨"E", number⟩

/-- A result reports what the machine finds in its source, and nothing else. -/
structure ByModes (source : String) (s : Scanned) : Prop where
  codes : ∀ d ∈ s.diagnostics, d.code = some ⟨"E", 1001⟩ ∨ d.code = some ⟨"E", 1002⟩
  strays_reported : s.coded 1001 = (strays .code [] source.toList).map Reading.report
  unclosed_iff : s.coded 1002 ≠ [] ↔ Mode.code.after source.toList = .string
  unclosed : ∀ d ∈ s.coded 1002, s.coded 1002 = [d] ∧ s.diagnostics.getLast? = some d ∧
    d.notes = [] ∧ lastOpening source.toList = some d.span.start ∧
    d.span.stop = source.utf8ByteSize ∧
    ∀ t ∈ s.tokens, t.isEnd = false → t.span.start < d.span.start

theorem coded_of_diagnostics {s : Scanned} {rs : List Reading} {ds : List Diagnostic}
    (h : s.diagnostics = rs.map Reading.report ++ ds)
    (hds : ∀ d ∈ ds, d.code = some ⟨"E", 1002⟩) :
    (∀ d ∈ s.diagnostics, d.code = some ⟨"E", 1001⟩ ∨ d.code = some ⟨"E", 1002⟩) ∧
      s.coded 1001 = rs.map Reading.report ∧ s.coded 1002 = ds := by
  have hrs : ∀ d ∈ rs.map Reading.report, d.code = some ⟨"E", 1001⟩ := by
    intro d hd
    obtain ⟨r, -, rfl⟩ := List.mem_map.mp hd
    rfl
  refine ⟨?_, ?_, ?_⟩
  · rw [h]
    intro d hd
    rcases List.mem_append.mp hd with hd | hd
    · exact Or.inl (hrs d hd)
    · exact Or.inr (hds d hd)
  · have hnone : ds.filter (fun d => d.code = some ⟨"E", 1001⟩) = [] :=
      List.filter_eq_nil_iff.mpr fun d hd => by simp [hds d hd]
    rw [Scanned.coded, h, List.filter_append, hnone, List.append_nil, List.filter_eq_self]
    exact fun d hd => decide_eq_true (hrs d hd)
  · have hnone : (rs.map Reading.report).filter (fun d => d.code = some ⟨"E", 1002⟩) = [] :=
      List.filter_eq_nil_iff.mpr fun d hd => by simp [hrs d hd]
    rw [Scanned.coded, h, List.filter_append, hnone, List.nil_append, List.filter_eq_self]
    exact fun d hd => decide_eq_true (hds d hd)

theorem Reports.byModes {source : String} {s : Scanned} {ps : List Placed} {line : Nat}
    (htokens : s.tokens = ps.filterMap Placed.token? ++ [.endOfSource source.utf8ByteSize line])
    (hdiagnostics : s.diagnostics = ps.filterMap Placed.diagnostic?)
    (h : Reports [] source.toList ps) : ByModes source s := by
  cases h with
  | ended hend heq =>
    rw [heq, ← List.append_nil (List.map _ _)] at hdiagnostics
    obtain ⟨hcodes, hstrays, hnone⟩ := coded_of_diagnostics hdiagnostics (by simp)
    refine ⟨hcodes, hstrays, ?_, ?_⟩
    · exact ⟨fun h => absurd hnone h, fun h => absurd h hend⟩
    · intro d hd
      rw [hnone] at hd
      cases hd
  | leftOpen opened body hsource hopened hbody heq hbefore =>
    have hstring : Mode.code.after source.toList = .string := by
      rw [hsource, Mode.after_append, hopened, Mode.after_cons]
      exact (readings_of_keeps (string_keeps hbody) []).1
    have hstop : width (opened ++ '"' :: body) = source.utf8ByteSize := by
      rw [← hsource, width_toList]
    rw [heq] at hdiagnostics
    obtain ⟨hcodes, hstrays, hone⟩ := coded_of_diagnostics hdiagnostics (by simp [unclosed])
    refine ⟨hcodes, hstrays, ?_, ?_⟩
    · rw [hone]
      exact ⟨fun _ => hstring, fun _ => List.cons_ne_nil _ _⟩
    · intro d hd
      rw [hone] at hd ⊢
      obtain rfl : d = unclosed ([] ++ opened) body := List.mem_singleton.mp hd
      refine ⟨rfl, ?_, rfl, ?_, hstop, ?_⟩
      · rw [hdiagnostics, List.getLast?_concat]
      · rw [hsource]
        exact lastOpening_leftOpen hopened hbody
      · intro t ht hend
        rw [htokens] at ht
        rcases List.mem_append.mp ht with ht | ht
        · obtain ⟨p, hp, ht⟩ := List.mem_filterMap.mp ht
          obtain ⟨kind, literal, -, rfl⟩ := Placed.token?_eq_some ht
          exact hbefore p hp _ ht
        · rw [List.mem_singleton.mp ht] at hend
          cases hend

theorem ByModes.of_tokenize {source : String} {s : Scanned} (hfit : LinesFit source.toList)
    (hs : tokenize source = .ok s) : ByModes source s := by
  rw [tokenize_elements hfit] at hs
  obtain rfl := Except.ok.inj hs
  exact (layout_elements [] source.toList).reports.byModes rfl rfl

/-- **The diagnostics of a source are those of the machine of three modes.** -/
theorem tokenize_modes {source : String} (hfit : LinesFit source.toList) :
    ∃ scanned, tokenize source = .ok scanned ∧ ByModes source scanned :=
  ⟨_, tokenize_elements hfit, (layout_elements [] source.toList).reports.byModes rfl rfl⟩

theorem tokenize_modes_quotes :
    LinesFit "@ # \"\n\"#\" é \"".toList ∧
      ∃ scanned, tokenize "@ # \"\n\"#\" é \"" = .ok scanned ∧
        ByModes "@ # \"\n\"#\" é \"" scanned :=
  ⟨by decide, tokenize_modes (by decide)⟩

end Lexical
