import Lexical.Proofs.History
import Lexical.Proofs.Scan.Errors

/-!
# A handler that stops at the first diagnostic

The other kind of handler turns the first diagnostic into a fault. A scan with it is compared here
with the scan of the same source that runs to its end: it faults exactly if that scan has a
diagnostic, with the text of the first one, and otherwise it finds the same tokens.

Such a handler is not changed by anything: what it is handed is not stored, and there is nothing
for the other operations to take out or to count. That holds of every session, also of one that
scans a source whose lines cannot be numbered, so it is proved without asking that they can.
-/

set_option autoImplicit false

namespace Lexical

open Text Cursor

/-! ## Nothing is stored -/

theorem Scan.handler_toEnd_of_stops (s : Scan) (hstops : s.handler.stopsAtError = true) :
    s.toEnd.handler = s.handler := by
  fun_induction Scan.toEnd s with
  | case1 s hend => rfl
  | case2 s hend fault hread => rfl
  | case3 s hend next hread ih => exact ih hstops
  | case4 s hend t next hread ih => exact ih hstops
  | case5 s hend e span next hread noted fault hemit => rfl
  | case6 s hend e span next hread noted handler hemit ih =>
    rw [Handler.emit_of_stops (h := noted.handler) hstops] at hemit
    cases hemit

/-- Whoever asks the handler is told that nothing was reported. -/
structure Handler.StoresNothing (h : Handler) : Prop where
  diagnostics : h.diagnostics = []
  count : h.errorCount = 0
  hasErrors : h.hasErrors = false
  goes_on : h.abortIfErrors = .ok ()

namespace Session

section Stopping

variable {h : Handler} {op : Op}

theorem afterEmit_of_stops (hstops : h.stopsAtError = true) (d : Diagnostic) :
    afterEmit h (h.emit d) = (.fault (.stopped d.text), h) := by
  rw [Handler.emit_of_stops hstops, afterEmit]

/-- **One operation** with a handler that stops leaves it as it is, or empties it. -/
theorem handler_perform_of_stops (hstops : h.stopsAtError = true) (op : Op) :
    (perform h op).2 = if op.empties then h.clear else h := by
  cases op with
  | run source =>
    have hrun : (Scan.run source h).handler = h := Scan.handler_toEnd_of_stops _ hstops
    unfold perform
    dsimp only
    cases (Scan.run source h).result <;> exact hrun
  | error line message => exact congrArg Prod.snd (afterEmit_of_stops hstops _)
  | emit d => exact congrArg Prod.snd (afterEmit_of_stops hstops d)
  | build message settings => exact congrArg Prod.snd (afterEmit_of_stops hstops _)
  | abortIfErrors =>
    unfold perform
    cases h.abortIfErrors <;> rfl
  | diagnostics => rfl
  | take => rfl
  | clear => rfl
  | inspect => rfl

theorem performAll_stopping (ops : List Op) : performAll .stopping ops = .stopping := by
  induction ops with
  | nil => rfl
  | cons op ops ih =>
    have hstep : (perform .stopping op).2 = .stopping := by
      rw [handler_perform_of_stops rfl]
      cases op.empties <;> rfl
    rw [performAll, List.foldl_cons, hstep]
    exact ih

end Stopping

/-! ## One scan -/

/-- A scan with a handler that stops, compared with all that is found in the source. -/
structure StopsAtFirst (source : String) (s : Scanned) (h : Handler) : Prop where
  faults_iff : (∃ fault, (Scan.run source h).result = .error fault) ↔ s.diagnostics ≠ []
  message : ∀ fault, (Scan.run source h).result = .error fault →
    ∃ d ds, s.diagnostics = d :: ds ∧ fault.message =
      "Diagnostic error: " ++ ("[line " ++ d.line.repr ++ "] Error: " ++ d.message)
  tokens : ∀ tokens, (Scan.run source h).result = .ok tokens → tokens = s.tokens
  unchanged : (Scan.run source h).handler = h

theorem stopsAtFirst {source : String} {s : Scanned} {h : Handler}
    (hfit : LinesFit source.toList) (hstops : h.stopsAtError = true)
    (hs : tokenize source = .ok s) : StopsAtFirst source s h := by
  have hrun := Scan.run_stopping hfit hstops
  have hdiagnostics := diagnostics_of_tokenize hfit hs
  have htokens := congrArg Scanned.tokens (Except.ok.inj ((tokenize_eq hfit).symm.trans hs))
  cases herrors : errorsIn [] source.toList with
  | nil =>
    rw [herrors] at hrun hdiagnostics
    constructor <;> simp [hrun, hdiagnostics, ← htokens]
  | cons e es =>
    rw [herrors, List.map_cons] at hdiagnostics
    rw [herrors] at hrun
    constructor
    case faults_iff => simp [hrun, hdiagnostics]
    case tokens => simp [hrun]
    case unchanged => rw [hrun]
    case message =>
      intro fault hfault
      rw [hrun] at hfault
      obtain rfl := Except.error.inj hfault
      exact ⟨_, _, hdiagnostics, rfl⟩

/-- **A scan stops at the first diagnostic of its source**, if there is one, and whatever happens
in a session with a handler that stops, the handler holds nothing. -/
theorem stopping_reports_first {source : String} (hfit : LinesFit source.toList) :
    ∃ s, tokenize source = .ok s ∧ ∀ ops : List Op,
      StopsAtFirst source s (performAll .stopping ops) ∧
        (performAll .stopping ops).StoresNothing := by
  refine ⟨_, tokenize_eq hfit, fun ops => ?_⟩
  rw [performAll_stopping]
  exact ⟨stopsAtFirst hfit rfl (tokenize_eq hfit), rfl, rfl, rfl, rfl⟩

theorem stopping_reports_first_of_two :
    LinesFit "a\n? \"b".toList ∧ ∃ s, tokenize "a\n? \"b" = .ok s ∧ ∀ ops : List Op,
      StopsAtFirst "a\n? \"b" s (performAll .stopping ops) ∧
        (performAll .stopping ops).StoresNothing :=
  ⟨by decide, stopping_reports_first (by decide)⟩

end Session
end Lexical
