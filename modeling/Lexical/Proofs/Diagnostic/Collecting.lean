import Lexical.Diagnostic.Handler

/-!
# Handlers that collect

A handler that does not stop at a diagnostic stores it, and its listener hears it before that.
`Handler.collect` is this for one diagnostic, without the case of a fault, and `Handler.collectAll`
for a row of them. What a row of diagnostics does to a handler is one equation, `collectAll_eq`,
and nobody needs to look at the handler in between.
-/

set_option autoImplicit false

namespace Lexical

/-- What a listener hears of diagnostics that come in a row, if `stored` are held before: each of
them, with the number of those before it. -/
def callsFrom (stored : Nat) (ds : List Diagnostic) : List Heard :=
  (ds.zipIdx stored).map fun call => ⟨call.1, call.2⟩

theorem callsFrom_cons (stored : Nat) (d : Diagnostic) (ds : List Diagnostic) :
    callsFrom stored (d :: ds) = ⟨d, stored⟩ :: callsFrom (stored + 1) ds := by
  rw [callsFrom, List.zipIdx_cons, List.map_cons, callsFrom]

theorem map_callsFrom (stored : Nat) (ds : List Diagnostic) :
    (callsFrom stored ds).map Heard.diagnostic = ds := by
  induction ds generalizing stored with
  | nil => rfl
  | cons d ds ih => rw [callsFrom_cons, List.map_cons, ih]

namespace Handler

/-- The handler after a diagnostic that it stored. -/
def collect (h : Handler) (d : Diagnostic) : Handler :=
  { h with
    stored := h.stored.push d
    listener := h.listener.map fun calls => calls.push ⟨d, h.stored.size⟩ }

theorem emit_of_collects {h : Handler} (hc : h.stopsAtError = false) (d : Diagnostic) :
    h.emit d = .ok (h.collect d) := by
  obtain ⟨stored, stops, listener⟩ := h
  obtain rfl : stops = false := hc
  rfl

theorem emit_of_stops {h : Handler} (hs : h.stopsAtError = true) (d : Diagnostic) :
    h.emit d = .error (.stopped d.text) := by
  obtain ⟨stored, stops, listener⟩ := h
  obtain rfl : stops = true := hs
  rfl

/-- The handler after diagnostics that it stored one after the other. -/
def collectAll (h : Handler) (ds : List Diagnostic) : Handler := ds.foldl collect h

theorem collectAll_eq (h : Handler) (ds : List Diagnostic) :
    h.collectAll ds =
      { h with
        stored := h.stored ++ ds.toArray
        listener :=
          h.listener.map fun calls => calls ++ (callsFrom h.errorCount ds).toArray } := by
  induction ds generalizing h with
  | nil =>
    obtain ⟨stored, stops, listener⟩ := h
    cases listener <;> simp [collectAll, callsFrom]
  | cons d ds ih =>
    obtain ⟨stored, stops, listener⟩ := h
    refine (ih (collect ⟨stored, stops, listener⟩ d)).trans ?_
    cases listener <;> simp [collect, errorCount, callsFrom_cons]

theorem diagnostics_collectAll (h : Handler) (ds : List Diagnostic) :
    (h.collectAll ds).diagnostics = h.diagnostics ++ ds := by
  simp [collectAll_eq, diagnostics]

end Handler
end Lexical
