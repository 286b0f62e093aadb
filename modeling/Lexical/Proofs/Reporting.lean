import Lexical.Proofs.Scan.Run
import Lexical.Session

/-!
# A scan and the handler it is given

A handler goes from phase to phase and from source to source, so when a scan gets it, it may hold
anything. Two things are claimed of that. The scan reads nothing of what is held: its tokens are
those it would find with a handler of its own. And it takes nothing away: the diagnostics are put
behind those that are held, one by one, and a listener hears each of them once, with the number
of those before it.

`Handler.collectAll` is that addition, and `run_of_tokenize` says that a scan does it and no more.
Neither needs to know how the handler came to hold what it holds; that no session changes the
rules of a handler is `stopsAtError_performAll`.
-/

set_option autoImplicit false

namespace Lexical

open Text Cursor

/-- All that happened to a handler is that it was given diagnostics. -/
structure Reported (before after : Handler) (ds : List Diagnostic) : Prop where
  stored : after.diagnostics = before.diagnostics ++ ds
  rules : after.stopsAtError = before.stopsAtError
  listener : after.listener =
    before.listener.map fun calls => calls ++ (callsFrom before.errorCount ds).toArray

namespace Handler

theorem reported_collectAll (h : Handler) (ds : List Diagnostic) :
    Reported h (h.collectAll ds) ds := by
  refine ⟨diagnostics_collectAll h ds, ?_, ?_⟩
  · rw [collectAll_eq]
  · rw [collectAll_eq]

theorem stopsAtError_emit {h after : Handler} {d : Diagnostic} (hd : h.emit d = .ok after) :
    after.stopsAtError = h.stopsAtError := by
  obtain ⟨stored, stops, listener⟩ := h
  cases stops with
  | true => cases hd
  | false =>
    cases hd
    rfl

end Handler

/-! ## The rules of a handler stay -/

theorem Scan.stopsAtError_toEnd (s : Scan) :
    s.toEnd.handler.stopsAtError = s.handler.stopsAtError := by
  fun_induction Scan.toEnd s with
  | case1 s hend => rfl
  | case2 s hend fault hread => rfl
  | case3 s hend next hread ih => exact ih
  | case4 s hend t next hread ih => exact ih
  | case5 s hend e span next hread noted fault hemit => rfl
  | case6 s hend e span next hread noted handler hemit ih =>
    rw [ih]
    exact Handler.stopsAtError_emit hemit

namespace Session

variable {h : Handler} {op : Op} {ops : List Op}

theorem stopsAtError_afterEmit {result : Except Fault Handler}
    (hresult : ∀ after, result = .ok after → after.stopsAtError = h.stopsAtError) :
    (afterEmit h result).2.stopsAtError = h.stopsAtError := by
  cases result with
  | error fault => rfl
  | ok after => exact hresult after rfl

theorem stopsAtError_perform (h : Handler) (op : Op) :
    (perform h op).2.stopsAtError = h.stopsAtError := by
  cases op with
  | run source =>
    unfold perform
    have hrun := Scan.stopsAtError_toEnd (Scan.begin source h)
    dsimp only
    cases (Scan.run source h).result <;> exact hrun
  | error line message => exact stopsAtError_afterEmit fun _ => Handler.stopsAtError_emit
  | emit d => exact stopsAtError_afterEmit fun _ => Handler.stopsAtError_emit
  | build message settings => exact stopsAtError_afterEmit fun _ => Handler.stopsAtError_emit
  | abortIfErrors =>
    unfold perform
    cases h.abortIfErrors <;> rfl
  | diagnostics => rfl
  | take => rfl
  | clear => rfl
  | inspect => rfl

theorem stopsAtError_performAll (h : Handler) (ops : List Op) :
    (performAll h ops).stopsAtError = h.stopsAtError := by
  induction ops generalizing h with
  | nil => rfl
  | cons op ops ih =>
    have hstep := ih (perform h op).2
    rw [stopsAtError_perform] at hstep
    exact hstep

end Session

/-! ## One scan -/

/-- **A scan with any handler that collects** finds what it finds with its own, and hands it on. -/
theorem Scan.run_of_tokenize {source : String} {h : Handler} {s : Scanned}
    (hfit : LinesFit source.toList) (hcollects : h.stopsAtError = false)
    (hs : tokenize source = .ok s) :
    (run source h).result = .ok s.tokens ∧ (run source h).handler = h.collectAll s.diagnostics := by
  rw [tokenize_eq hfit] at hs
  obtain rfl := Except.ok.inj hs
  exact ⟨result_run hfit hcollects, handler_run hfit hcollects⟩

/-- **A scan in the middle of a session** gives the tokens of its source and adds the diagnostics
of its source to what the handler holds, whatever was done with the handler before. -/
theorem Session.run_appends {source : String} {start : Handler} (hfit : LinesFit source.toList)
    (hcollects : start.stopsAtError = false) :
    ∃ s, tokenize source = .ok s ∧ ∀ ops : List Op,
      (Scan.run source (performAll start ops)).result = .ok s.tokens ∧
        Reported (performAll start ops) (Scan.run source (performAll start ops)).handler
          s.diagnostics := by
  refine ⟨_, tokenize_eq hfit, fun ops => ?_⟩
  have hcollects' : (performAll start ops).stopsAtError = false := by
    rw [stopsAtError_performAll, hcollects]
  obtain ⟨hresult, hhandler⟩ := Scan.run_of_tokenize hfit hcollects' (tokenize_eq hfit)
  rw [hhandler]
  exact ⟨hresult, Handler.reported_collectAll _ _⟩

theorem Session.run_appends_listening :
    LinesFit "a ? \"b".toList ∧ Handler.listening.stopsAtError = false ∧
      ∃ s, tokenize "a ? \"b" = .ok s ∧ ∀ ops : List Op,
        (Scan.run "a ? \"b" (performAll .listening ops)).result = .ok s.tokens ∧
          Reported (performAll .listening ops)
            (Scan.run "a ? \"b" (performAll .listening ops)).handler s.diagnostics :=
  ⟨by decide, rfl, run_appends (by decide) rfl⟩

end Lexical
