import Lexical.Proofs.Reporting
import Mathlib.Data.List.DropRight

/-!
# The history of a handler

What a handler holds, what it answers and what its listener has heard are functions of the
operations that were done with it, and this file says which. Nothing here looks at a handler: an
operation is known by what it reports (`Op.reports`) and by whether it empties the handler
(`Op.empties`). A handler holds what was reported since it was last emptied (`held`). A listener
has heard everything that was ever reported, each time with the number of diagnostics that were
held at that moment (`calls`).

`perform_collects` is the one step, with one case for each operation. From it the state after any
row of operations follows (`performAll_eq`), and everything else is read off that state.

How many errors a handler has is a function of the handler, so asking for it is no operation: it
is answered for the state after every row of operations.
-/

set_option autoImplicit false

namespace Lexical

open Text Cursor

namespace Session

/-! ## What operations do -/

namespace Op

/-- The diagnostics that an operation hands to the handler. -/
def reports : Op → List Diagnostic
  | run source =>
    match tokenize source with
    | .ok s => s.diagnostics
    | .error _ => []
  | error line message => [{ message, line, span := .dummy, code := none, notes := [] }]
  | emit d => [d]
  | build message settings => [((Draft.error message).setAll settings).build]
  | _ => []

/-- Whether the handler holds nothing after an operation. -/
def empties : Op → Bool
  | take => true
  | clear => true
  | _ => false

/-- The lines of a source that is scanned can be numbered. -/
def Fits : Op → Prop
  | run source => LinesFit source.toList
  | _ => True

instance (op : Op) : Decidable op.Fits :=
  match op with
  | run source => inferInstanceAs (Decidable (LinesFit source.toList))
  | error .. | emit _ | build .. | diagnostics | take | clear | abortIfErrors | inspect =>
    isTrue trivial

end Op

/-- What was reported since the last operation that empties the handler. -/
def held (ops : List Op) : List Diagnostic :=
  (ops.rtakeWhile fun op => !op.empties).flatMap Op.reports

/-- What a listener hears: at each operation what it reports, with the number of diagnostics that
the operations before it left. -/
def calls (ops : List Op) : List Heard :=
  ops.zipIdx.flatMap fun step => callsFrom (held (ops.take step.2)).length step.1.reports

/-- What was taken out of the handler by one operation, from its answer. -/
def takenBy : Op → Answer → List Diagnostic
  | .take, .diagnostics ds => ds
  | _, _ => []

/-- What was taken out of the handler by operations, in order. -/
def taken (h : Handler) : List Op → List Diagnostic
  | [] => []
  | op :: ops => takenBy op (perform h op).1 ++ taken (perform h op).2 ops

/-! ## One operation -/

section Step

variable {h : Handler} {op : Op}

theorem reports_run {source : String} {s : Scanned} (hs : tokenize source = .ok s) :
    (Op.run source).reports = s.diagnostics := by
  rw [Op.reports, hs]

theorem reports_of_empties (hop : op.empties = true) : op.reports = [] := by
  cases op <;> first | rfl | cases hop

theorem takenBy_of_keeps (hop : op.empties = false) (answer : Answer) : takenBy op answer = [] := by
  cases op <;> first | rfl | cases hop

theorem perform_emit (hcollects : h.stopsAtError = false) (d : Diagnostic) :
    afterEmit h (h.emit d) = (.done, h.collect d) := by
  rw [Handler.emit_of_collects hcollects, afterEmit]

theorem perform_run (hcollects : h.stopsAtError = false) {source : String} {s : Scanned}
    (hfit : LinesFit source.toList) (hs : tokenize source = .ok s) :
    perform h (.run source) = (.tokens s.tokens, h.collectAll s.diagnostics) := by
  obtain ⟨hresult, hhandler⟩ := Scan.run_of_tokenize hfit hcollects hs
  simp only [perform, hresult, hhandler]

/-- **One operation** with a handler that collects is answered, and it empties the handler or adds
what it reports. -/
theorem perform_collects (hcollects : h.stopsAtError = false) (hfit : op.Fits) :
    ∃ answer, (∀ fault, answer ≠ .fault fault) ∧
      perform h op = (answer, if op.empties then h.clear else h.collectAll op.reports) := by
  cases op with
  | run source =>
    have hs := tokenize_eq hfit
    have hrun := perform_run hcollects hfit hs
    rw [← reports_run hs] at hrun
    exact ⟨_, by simp, hrun⟩
  | error line message => exact ⟨.done, by simp, perform_emit hcollects _⟩
  | emit d => exact ⟨.done, by simp, perform_emit hcollects d⟩
  | build message settings => exact ⟨.done, by simp, perform_emit hcollects _⟩
  | abortIfErrors =>
    cases habort : h.abortIfErrors with
    | ok _ => exact ⟨.done, by simp, by rw [perform, habort]; rfl⟩
    | error errors => exact ⟨.aborted errors, by simp, by rw [perform, habort]; rfl⟩
  | diagnostics => exact ⟨.diagnostics h.diagnostics, by simp, rfl⟩
  | take => exact ⟨.diagnostics h.diagnostics, by simp, rfl⟩
  | clear => exact ⟨.done, by simp, rfl⟩
  | inspect => exact ⟨.text h.inspect, by simp, rfl⟩

end Step

/-! ## One operation more -/

section More

variable {start : Handler} {ops : List Op} {op : Op}

theorem performAll_concat (start : Handler) (ops : List Op) (op : Op) :
    performAll start (ops ++ [op]) = (perform (performAll start ops) op).2 := by
  rw [performAll, List.foldl_append]
  rfl

theorem held_concat (ops : List Op) (op : Op) :
    held (ops ++ [op]) = if op.empties then [] else held ops ++ op.reports := by
  rw [held, List.rtakeWhile_concat]
  cases hop : op.empties with
  | true => rfl
  | false => simp [held]

theorem calls_concat (ops : List Op) (op : Op) :
    calls (ops ++ [op]) = calls ops ++ callsFrom (held ops).length op.reports := by
  have hearlier : ∀ step ∈ ops.zipIdx, (ops ++ [op]).take step.2 = ops.take step.2 := by
    intro step hstep
    have hlt := List.snd_lt_of_mem_zipIdx hstep
    exact List.take_append_of_le_length (by omega)
  have hfront : ops.zipIdx.flatMap (fun step =>
      callsFrom (held ((ops ++ [op]).take step.2)).length step.1.reports) = calls ops := by
    apply List.flatMap_congr
    intro step hstep
    rw [hearlier step hstep]
  rw [calls, List.zipIdx_append, List.flatMap_append, hfront]
  simp

theorem taken_concat (start : Handler) (ops : List Op) (op : Op) :
    taken start (ops ++ [op]) =
      taken start ops ++ takenBy op (perform (performAll start ops) op).1 := by
  induction ops generalizing start with
  | nil => simp [taken, performAll]
  | cons first ops ih =>
    rw [List.cons_append, taken, ih, taken, List.append_assoc]
    rfl

end More

/-! ## Any number of operations -/

section All

variable {start : Handler} {ops : List Op}

/-- **The state after operations with a new handler**, in terms of the operations alone. -/
theorem performAll_eq (hnew : start = .collecting ∨ start = .listening)
    (hfit : ∀ op ∈ ops, op.Fits) :
    performAll start ops =
      { stored := (held ops).toArray
        stopsAtError := false
        listener := start.listener.map fun _ => (calls ops).toArray } := by
  induction ops using List.reverseRecOn with
  | nil => rcases hnew with rfl | rfl <;> rfl
  | append_singleton ops op ih =>
    have hstate := ih fun op hop => hfit op (List.mem_append_left _ hop)
    have hcollects : (performAll start ops).stopsAtError = false := by rw [hstate]
    obtain ⟨answer, -, hstep⟩ := perform_collects hcollects (hfit op (by simp))
    rw [performAll_concat, hstep, hstate, held_concat, calls_concat]
    cases hop : op.empties with
    | true => simp [Handler.clear, reports_of_empties hop, callsFrom]
    | false =>
      simp [Handler.collectAll_eq, Handler.errorCount, Function.comp_def]

theorem map_calls (ops : List Op) :
    (calls ops).map Heard.diagnostic = ops.flatMap Op.reports := by
  induction ops using List.reverseRecOn with
  | nil => rfl
  | append_singleton ops op ih =>
    rw [calls_concat, List.map_append, ih, map_callsFrom, List.flatMap_append,
      List.flatMap_singleton]

/-- Whatever was reported is held or was taken out, once and in order, unless it was cleared. -/
theorem taken_append_held (hnew : start = .collecting ∨ start = .listening)
    (hfit : ∀ op ∈ ops, op.Fits) (hkept : Op.clear ∉ ops) :
    taken start ops ++ held ops = ops.flatMap Op.reports := by
  induction ops using List.reverseRecOn with
  | nil => rfl
  | append_singleton ops op ih =>
    have hfits : ∀ op ∈ ops, op.Fits := fun op hop => hfit op (List.mem_append_left _ hop)
    have hbefore := ih hfits fun hop => hkept (List.mem_append_left _ hop)
    rw [taken_concat, held_concat, List.flatMap_append, List.flatMap_singleton, ← hbefore]
    cases hop : op.empties with
    | false =>
      rw [takenBy_of_keeps hop, List.append_nil]
      exact (List.append_assoc _ _ _).symm
    | true =>
      cases op with
      | take =>
        have hanswer : takenBy .take (perform (performAll start ops) .take).1 = held ops := by
          rw [performAll_eq hnew hfits]
          rfl
        rw [hanswer]
        rfl
      | clear => exact absurd (by simp) hkept
      | _ => cases hop

/-- What operations with a new handler lead to: what is held, how whoever asks is answered, what
the listener has heard, and where everything went. -/
structure Accounted (start : Handler) (ops : List Op) : Prop where
  stored : (performAll start ops).diagnostics = held ops
  count : (performAll start ops).errorCount = (held ops).length
  hasErrors_iff : (performAll start ops).hasErrors = true ↔ held ops ≠ []
  goes_on : (performAll start ops).abortIfErrors =
    if held ops = [] then .ok () else .error ⟨(held ops).length⟩
  listed : perform (performAll start ops) .diagnostics =
    (.diagnostics (held ops), performAll start ops)
  taken_out : (perform (performAll start ops) .take).1 = .diagnostics (held ops) ∧
    (perform (performAll start ops) .take).2.diagnostics = []
  asked : perform (performAll start ops) .abortIfErrors =
    (if held ops = [] then .done else .aborted ⟨(held ops).length⟩, performAll start ops)
  faultless : ∀ op : Op, op.Fits → ∀ fault, (perform (performAll start ops) op).1 ≠ .fault fault
  heard : (performAll start ops).listener = start.listener.map fun _ => (calls ops).toArray
  heard_once : (calls ops).map Heard.diagnostic = ops.flatMap Op.reports
  nothing_lost : Op.clear ∉ ops → taken start ops ++ held ops = ops.flatMap Op.reports

/-- **A handler loses nothing, repeats nothing and keeps the order**, whatever is done with it. -/
theorem performAll_accounted (hnew : start = .collecting ∨ start = .listening)
    (hfit : ∀ op ∈ ops, op.Fits) : Accounted start ops := by
  have hstate := performAll_eq hnew hfit
  have hgoes : (performAll start ops).abortIfErrors =
      if held ops = [] then .ok () else .error ⟨(held ops).length⟩ := by
    rw [hstate]
    simp [Handler.abortIfErrors, Handler.errorCount]
  constructor
  case stored => rw [hstate]; rfl
  case count => rw [hstate]; rfl
  case hasErrors_iff =>
    rw [hstate]
    simp [Handler.hasErrors]
  case goes_on => exact hgoes
  case listed =>
    rw [perform, hstate]
    rfl
  case taken_out =>
    rw [hstate]
    exact ⟨rfl, rfl⟩
  case asked =>
    rw [perform, hgoes]
    by_cases hheld : held ops = []
    · rw [if_pos hheld, if_pos hheld]
    · rw [if_neg hheld, if_neg hheld]
  case faultless =>
    intro op hop
    have hcollects : (performAll start ops).stopsAtError = false := by rw [hstate]
    obtain ⟨answer, hanswer, hstep⟩ := perform_collects hcollects hop
    rw [hstep]
    exact hanswer
  case heard => rw [hstate]
  case heard_once => exact map_calls ops
  case nothing_lost => exact taken_append_held hnew hfit

theorem performAll_accounted_listening :
    (Handler.listening = .collecting ∨ Handler.listening = .listening) ∧
      (∀ op ∈ [Op.error 3 "earlier", .run "? \"é", .take, .build "late" [.line 2], .run "@"],
        op.Fits) ∧
      Accounted .listening
        [.error 3 "earlier", .run "? \"é", .take, .build "late" [.line 2], .run "@"] :=
  ⟨Or.inr rfl, by decide, performAll_accounted (Or.inr rfl) (by decide)⟩

end All

end Session
end Lexical
