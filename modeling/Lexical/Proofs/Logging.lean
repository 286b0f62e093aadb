import Lexical.Proofs.Scan.Errors
import Lexical.Proofs.Scan.Layout
import Mathlib.Data.List.Forall2

/-!
# The log of a scan

A scan keeps three accounts of its errors: the log, its own counter, and what it hands to the
handler. They are written in different places, the log before the handler is asked and the counter
after it has answered, and this file says that they agree.

With a handler that collects, the log names the diagnostics one by one and closes with the counts
of what was returned and handed on. With a handler that stops, it is that same log up to the first
error, and then the scope is left: the entry is there although the diagnostic was not stored.

The scope's name, the level, the wording at the end and the texts of the codes are written out again
here, so a log that calls these things something else is not the log that is described.
-/

set_option autoImplicit false

namespace Lexical

open Text Cursor

namespace LogEntry

def isError : LogEntry → Bool
  | error .. => true
  | _ => false

/-- The codes of lexical errors, with the texts they are shown by. -/
def shownCodes : List (Code × String) := [(⟨"E", 1001⟩, "E1001"), (⟨"E", 1002⟩, "E1002")]

/-- An entry says what a diagnostic says: the line it is reported on, its code as it is shown, and
its message. -/
def Announces (entry : LogEntry) (d : Diagnostic) : Prop :=
  ∃ code text, d.code = some code ∧ code.text = text ∧ (code, text) ∈ shownCodes ∧
    entry = @error "DEBUG" d.line ⟨text⟩ d.message

theorem mem_shownCodes (e : Error) : (e.code, e.code.text) ∈ shownCodes := by
  cases e with
  | unexpectedCharacter ch =>
    show (Code.unexpectedCharacter, Code.unexpectedCharacter.text) ∈ shownCodes
    decide +kernel
  | unterminatedString => decide +kernel

end LogEntry

theorem PlacedError.announces (e : PlacedError) : e.entry.Announces e.diagnostic := by
  rw [diagnostic, Error.diagnostic_eq]
  exact ⟨e.error.code, _, rfl, rfl, LogEntry.mem_shownCodes e.error, rfl⟩

theorem PlacedError.forall₂_announces (es : List PlacedError) :
    List.Forall₂ LogEntry.Announces (es.map entry) (es.map diagnostic) := by
  rw [List.forall₂_map_left_iff, List.forall₂_map_right_iff, List.forall₂_same]
  exact fun e _ => e.announces

namespace Scan

/-- The log of a scan whose handler collects, against its other accounts: the diagnostics of the
source, the tokens that are returned, and what the handler holds more than before. -/
def LogComplete (source : String) (s : Scanned) (h : Handler) : Prop :=
  ∃ events returned errors last,
    (run source h).log =
      @LogEntry.opened "scan_tokens" "DEBUG" source.utf8ByteSize :: .entered :: events ++
        [@LogEntry.finished "DEBUG" "scan finished" returned.length errors last.line, .exited] ∧
    List.Forall₂ LogEntry.Announces events s.diagnostics ∧
    (run source h).result = .ok returned ∧
    returned.getLast? = some last ∧ last.isEnd = true ∧
    (run source h).handler.errorCount = h.errorCount + errors

/-- The log of a scan whose handler `g` stops, against the one with a handler `h` that collects. -/
structure LogCut (source : String) (s : Scanned) (h g : Handler) : Prop where
  whole : s.diagnostics = [] → (run source g).log = (run source h).log
  front : s.diagnostics ≠ [] → ∃ before entry after,
    (run source h).log = before ++ entry :: after ∧ entry.isError = true ∧
      (∀ e ∈ before, e.isError = false) ∧ (run source g).log = before ++ [entry, .exited]

section Run

variable {source : String} {s : Scanned} {h g : Handler}

theorem logComplete (hfit : LinesFit source.toList) (hcollects : h.stopsAtError = false)
    (hs : tokenize source = .ok s) : LogComplete source s h := by
  have hrun := run_collecting hfit hcollects
  refine ⟨(errorsIn [] source.toList).map PlacedError.entry, _,
    (errorsIn [] source.toList).length, .endOfSource source.utf8ByteSize (lineAt source.toList),
    ?_, ?_, by rw [hrun], List.getLast?_concat, rfl, ?_⟩
  · rw [hrun, List.length_append]
    rfl
  · rw [diagnostics_of_tokenize hfit hs]
    exact PlacedError.forall₂_announces _
  · rw [hrun]
    simp [Handler.collectAll_eq, Handler.errorCount]

theorem logCut (hfit : LinesFit source.toList) (hcollects : h.stopsAtError = false)
    (hstops : g.stopsAtError = true) (hs : tokenize source = .ok s) : LogCut source s h g := by
  have hcollected := run_collecting hfit hcollects
  have hstopped := run_stopping hfit hstops
  have hdiagnostics := diagnostics_of_tokenize hfit hs
  cases herrors : errorsIn [] source.toList with
  | nil =>
    rw [herrors] at hcollected hstopped hdiagnostics
    constructor
    case whole =>
      intro _
      rw [hstopped, hcollected]
      rfl
    case front => exact fun hsome => absurd hdiagnostics hsome
  | cons e es =>
    rw [herrors] at hcollected hstopped hdiagnostics
    constructor
    case whole =>
      intro hnone
      rw [hnone] at hdiagnostics
      cases hdiagnostics
    case front =>
      intro _
      exact ⟨[.ofScope source.utf8ByteSize, .entered], e.entry, _, by rw [hcollected]; rfl, rfl,
        by simp [LogEntry.ofScope, LogEntry.isError], by rw [hstopped]; rfl⟩

/-- **The log of a scan agrees with its result**, whether the scan comes to the end of its source
or is stopped by its handler. -/
theorem run_logged (hfit : LinesFit source.toList) (hcollects : h.stopsAtError = false)
    (hstops : g.stopsAtError = true) :
    ∃ s, tokenize source = .ok s ∧ LogComplete source s h ∧ LogCut source s h g :=
  ⟨_, tokenize_eq hfit, logComplete hfit hcollects (tokenize_eq hfit),
    logCut hfit hcollects hstops (tokenize_eq hfit)⟩

theorem run_logged_two_errors :
    LinesFit "1 @\n\"é".toList ∧ Handler.listening.stopsAtError = false ∧
      Handler.stopping.stopsAtError = true ∧
      ∃ s, tokenize "1 @\n\"é" = .ok s ∧ LogComplete "1 @\n\"é" s .listening ∧
        LogCut "1 @\n\"é" s .listening .stopping :=
  ⟨by decide, rfl, rfl, run_logged (by decide) rfl rfl⟩

end Run

end Scan
end Lexical
