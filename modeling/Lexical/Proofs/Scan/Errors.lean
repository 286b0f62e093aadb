import Lexical.Proofs.Scan.Run

/-!
# The errors of a source, and what two kinds of handler make of them

Which errors a source has does not depend on the handler. `errorsIn` lists them, and a diagnostic
and a log entry are two ways of saying the same error. A handler that collects sees them all, so
the log has an entry for each (`log_run`). With a handler that stops the scan is the same up to
the first of them and ends there (`run_stopping`): so much of the two scans agrees, step by step,
because nothing before the first error asks the handler anything.
-/

set_option autoImplicit false

namespace Lexical

open Text Cursor

/-- An error with the text it is about and the line it is reported on. -/
structure PlacedError where
  error : Error
  span : Span
  line : Nat

namespace PlacedError

def diagnostic (e : PlacedError) : Diagnostic := e.error.diagnostic e.span e.line

/-- What the log says of it. -/
def entry (e : PlacedError) : LogEntry :=
  .ofError e.line e.error.code e.error.message

end PlacedError

namespace Placed

def error? (p : Placed) : Option PlacedError :=
  match p.item with
  | .error e span => some ⟨e, span, p.endLine⟩
  | _ => none

theorem diagnostic?_eq (p : Placed) : p.diagnostic? = p.error?.map PlacedError.diagnostic := by
  unfold diagnostic? error?
  cases p.item <;> rfl

theorem error?_eq_some {p : Placed} {e : PlacedError} (h : p.error? = some e) :
    p.item = .error e.error e.span ∧ e.line = p.endLine := by
  unfold error? at h
  split at h
  · cases h
    exact ⟨‹_›, rfl⟩
  · cases h

theorem error?_eq_none {p : Placed} (h : p.error? = none) (e : Error) (span : Span) :
    p.item ≠ .error e span := by
  intro hitem
  rw [error?, hitem] at h
  cases h

end Placed

/-- The errors of `after` where it follows `before`, in order. -/
def errorsIn (before after : List Char) : List PlacedError :=
  (placed before after).filterMap Placed.error?

theorem errorsIn_nil (before : List Char) : errorsIn before [] = [] := by
  rw [errorsIn, placed_nil, List.filterMap_nil]

theorem errorsIn_cons (before : List Char) (c : Char) (rest : List Char) :
    errorsIn before (c :: rest) =
      (Placed.error? ⟨before, (Piece.first c rest).1⟩).toList ++
        errorsIn (before ++ (Piece.first c rest).1.text) (Piece.first c rest).2 := by
  rw [errorsIn, placed_cons, List.filterMap_cons, errorsIn]
  cases Placed.error? ⟨before, (Piece.first c rest).1⟩ <;> rfl

theorem map_diagnostic_errorsIn (before after : List Char) :
    (errorsIn before after).map PlacedError.diagnostic =
      (placed before after).filterMap Placed.diagnostic? := by
  rw [errorsIn, List.map_filterMap]
  congr 1
  funext p
  exact (Placed.diagnostic?_eq p).symm

theorem diagnostics_of_tokenize {source : String} {s : Scanned} (hfit : LinesFit source.toList)
    (hs : tokenize source = .ok s) :
    s.diagnostics = (errorsIn [] source.toList).map PlacedError.diagnostic := by
  rw [tokenize_eq hfit] at hs
  obtain rfl := Except.ok.inj hs
  exact (map_diagnostic_errorsIn [] source.toList).symm

namespace Scan

/-! ## With a handler that collects -/

theorem log_addPlaced (s : Scan) (p : Placed) :
    (s.addPlaced p).log.toList = s.log.toList ++ (p.error?.map PlacedError.entry).toList := by
  unfold addPlaced Placed.error?
  cases p.item <;> simp [add, note, PlacedError.entry]

theorem errors_addPlaced (s : Scan) (p : Placed) :
    (s.addPlaced p).errors = s.errors + p.error?.toList.length := by
  unfold addPlaced Placed.error?
  cases p.item <;> rfl

theorem addPlaced_of_quiet {p : Placed} (hquiet : p.error? = none) (s : Scan) :
    (s.addPlaced p).log = s.log ∧ (s.addPlaced p).handler = s.handler := by
  unfold addPlaced
  cases hitem : p.item with
  | blank => exact ⟨rfl, rfl⟩
  | token t => exact ⟨rfl, rfl⟩
  | error e span => exact absurd hitem (Placed.error?_eq_none hquiet e span)

theorem log_foldl (ps : List Placed) (s : Scan) :
    (ps.foldl addPlaced s).log.toList =
      s.log.toList ++ (ps.filterMap Placed.error?).map PlacedError.entry := by
  induction ps generalizing s with
  | nil => simp
  | cons p ps ih =>
    rw [List.foldl_cons, ih, log_addPlaced, List.append_assoc, List.filterMap_cons]
    cases p.error? <;> rfl

theorem errors_foldl (ps : List Placed) (s : Scan) :
    (ps.foldl addPlaced s).errors = s.errors + (ps.filterMap Placed.error?).length := by
  induction ps generalizing s with
  | nil => rfl
  | cons p ps ih =>
    rw [List.foldl_cons, ih, errors_addPlaced, List.filterMap_cons]
    cases p.error? with
    | none => rfl
    | some e =>
      simp only [Option.toList_some, List.length_cons, List.length_nil]
      omega

/-- What a scan leaves that comes to the end of its source: the tokens of the pieces, and a log
with an entry for each error. -/
theorem finish_foldl (source : String) (h : Handler) :
    (((placed [] source.toList).foldl addPlaced (begin source h)).moveTo
      (cut source.toList [])).finish =
      { result := .ok ((placed [] source.toList).filterMap Placed.token? ++
          [.endOfSource source.utf8ByteSize (lineAt source.toList)])
        handler := h.collectAll ((errorsIn [] source.toList).map PlacedError.diagnostic)
        log := .ofScope source.utf8ByteSize :: .entered ::
          (errorsIn [] source.toList).map PlacedError.entry ++
          [.ofSummary (((placed [] source.toList).filterMap Placed.token?).length + 1)
            (errorsIn [] source.toList).length (lineAt source.toList), .exited] } := by
  have htokens := tokens_foldl (placed [] source.toList) (begin source h)
  have hlog := log_foldl (placed [] source.toList) (begin source h)
  have herrors := errors_foldl (placed [] source.toList) (begin source h)
  have hhandler := handler_foldl (placed [] source.toList) (begin source h)
  rw [← map_diagnostic_errorsIn] at hhandler
  rw [← errorsIn] at hlog herrors
  simp only [finish, moveTo, cut_position, cut_line, Array.toList_push, htokens, hlog,
    herrors, hhandler, ← Array.length_toList, width_toList]
  simp [begin]

/-- **A scan with a handler that collects**: all errors are logged and handed on. -/
theorem run_collecting {source : String} {h : Handler} (hfit : LinesFit source.toList)
    (hcollects : h.stopsAtError = false) :
    run source h =
      { result := .ok ((placed [] source.toList).filterMap Placed.token? ++
          [.endOfSource source.utf8ByteSize (lineAt source.toList)])
        handler := h.collectAll ((errorsIn [] source.toList).map PlacedError.diagnostic)
        log := .ofScope source.utf8ByteSize :: .entered ::
          (errorsIn [] source.toList).map PlacedError.entry ++
          [.ofSummary (((placed [] source.toList).filterMap Placed.token?).length + 1)
            (errorsIn [] source.toList).length (lineAt source.toList), .exited] } := by
  rw [run_eq hfit hcollects, finish_foldl]

/-! ## With a handler that stops -/

section Stopping

variable {s : Scan} {before after : List Char}

/-- A turn that meets no error does not ask the handler. -/
theorem turn_of_quiet {item : Item} {next : Cursor}
    (hread : Item.read s.cursor = .ok (item, next)) (hquiet : ∀ e span, item ≠ .error e span) :
    s.turn = .ok ((s.add next.line item).moveTo next) := by
  rw [turn, hread]
  cases item with
  | blank => rfl
  | token t => rfl
  | error e span => exact absurd rfl (hquiet e span)

/-- A turn that meets an error ends the scan: the error is logged and nothing is stored. -/
theorem turn_of_error {item : Item} {e : Error} {span : Span} {next : Cursor}
    (hread : Item.read s.cursor = .ok (item, next)) (hitem : item = .error e span)
    (hstops : s.handler.stopsAtError = true) :
    s.turn = .error ((s.note e next.line).stop
      (.stopped (e.diagnostic span next.line).text)) := by
  have hstops' : (s.note e next.line).handler.stopsAtError = true := hstops
  rw [turn, hread, hitem]
  dsimp only
  rw [Handler.emit_of_stops hstops']

/-- A scan with a handler that stops comes to the end of its source if there is no error, and
otherwise to the first one. -/
theorem toEnd_stopping (hcursor : s.cursor = cut before after) (hfit : LinesFit (before ++ after))
    (hstops : s.handler.stopsAtError = true) :
    s.toEnd = match errorsIn before after with
      | [] => (((placed before after).foldl addPlaced s).moveTo (cut (before ++ after) [])).finish
      | e :: _ => (s.note e.error e.line).stop (.stopped e.diagnostic.text) := by
  induction before, after using placed.induct generalizing s with
  | case1 before =>
    rw [placed_nil, errorsIn_nil, List.append_nil, toEnd_of_isAtEnd (by simp [hcursor]),
      List.foldl_nil, ← hcursor]
    rfl
  | case2 before c rest ih =>
    have hread : Item.read s.cursor = .ok (Piece.place before (Piece.first c rest)) := by
      rw [hcursor, Item.read_cut hfit]
    have hmore : s.cursor.isAtEnd = false := by
      rw [hcursor]
      simp
    have hsplit : before ++ (Piece.first c rest).1.text ++ (Piece.first c rest).2 =
        before ++ c :: rest := by
      rw [List.append_assoc, Piece.first_append]
    rw [toEnd_of_turn hmore, errorsIn_cons]
    cases herror : Placed.error? ⟨before, (Piece.first c rest).1⟩ with
    | some e =>
      obtain ⟨hitem, hline⟩ := Placed.error?_eq_some herror
      rw [turn_of_error hread hitem hstops]
      show _ = (s.note e.error e.line).stop (.stopped (e.error.diagnostic e.span e.line).text)
      rw [hline]
      rfl
    | none =>
      obtain ⟨hlog, hhandler⟩ := addPlaced_of_quiet herror s
      have hturn := turn_of_quiet hread (Placed.error?_eq_none herror)
      have hstep := ih (s := (s.addPlaced ⟨before, (Piece.first c rest).1⟩).moveTo
        (cut (before ++ (Piece.first c rest).1.text) (Piece.first c rest).2)) rfl
        (by rwa [hsplit]) (by rw [← hstops]; exact congrArg Handler.stopsAtError hhandler)
      rw [hsplit, moveTo_foldl] at hstep
      rw [hturn, placed_cons, List.foldl_cons]
      refine hstep.trans ?_
      rw [Option.toList_none, List.nil_append]
      cases errorsIn (before ++ (Piece.first c rest).1.text) (Piece.first c rest).2 with
      | nil => rfl
      | cons e es => simp only [note, moveTo, stop, hlog, hhandler]

/-- **A scan with a handler that stops**: it ends at the first error, which is logged but not
stored, and without an error it is the scan that a collecting handler gets. -/
theorem run_stopping {source : String} {h : Handler} (hfit : LinesFit source.toList)
    (hstops : h.stopsAtError = true) :
    run source h = match errorsIn [] source.toList with
      | [] =>
        { result := .ok ((placed [] source.toList).filterMap Placed.token? ++
            [.endOfSource source.utf8ByteSize (lineAt source.toList)])
          handler := h
          log := [.ofScope source.utf8ByteSize, .entered,
            .ofSummary (((placed [] source.toList).filterMap Placed.token?).length + 1) 0
              (lineAt source.toList), .exited] }
      | e :: _ =>
        { result := .error (.stopped e.diagnostic.text)
          handler := h
          log := [.ofScope source.utf8ByteSize, .entered, e.entry, .exited] } := by
  have hend := toEnd_stopping (s := begin source h) (ofSource_eq_cut source) hfit hstops
  have hfinish := finish_foldl source h
  rw [run, hend]
  cases herrors : errorsIn [] source.toList with
  | nil =>
    rw [herrors] at hfinish
    exact hfinish
  | cons e es => rfl

end Stopping

end Scan

end Lexical
