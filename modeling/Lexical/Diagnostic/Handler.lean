import Lexical.Diagnostic.Draft

/-!
# Handlers

A handler is where the phases of a front end put their diagnostics. It keeps them in the order
they came, so that whoever owns it can decide at the end whether to go on. It may have a
listener, which hears each diagnostic before it is stored; what the listener heard is part of
the handler here, so that it can be spoken about. A handler may also be told to stop at the
first diagnostic, and then it never stores one.
-/

set_option autoImplicit false

namespace Lexical

/-- One call of a listener: the diagnostic, and how many the handler held at that moment. -/
structure Heard where
  diagnostic : Diagnostic
  stored : Nat
  deriving DecidableEq

/-- A collection of diagnostics with its rules. -/
structure Handler where
  /-- The diagnostics held, the oldest first. -/
  stored : Array Diagnostic
  /-- Whether the first diagnostic is a fault. -/
  stopsAtError : Bool
  /-- What the listener has heard, if there is a listener. -/
  listener : Option (Array Heard)
  deriving DecidableEq

/-- The answer of a phase that will not go on: so many errors were reported. -/
structure ErrorsEmitted where
  count : Nat
  deriving DecidableEq

namespace ErrorsEmitted

/-- The wording, with the plural where it is one. -/
def message (e : ErrorsEmitted) : String :=
  "aborting due to " ++ e.count.repr ++ " previous error" ++ (if e.count = 1 then "" else "s")

/-- The answer with its field named. -/
def inspect (e : ErrorsEmitted) : String :=
  Text.Inspection.record "ErrorsEmitted" [("count", e.count.repr)]

end ErrorsEmitted

namespace Handler

/-- A handler that collects, without a listener. -/
def collecting : Handler := { stored := #[], stopsAtError := false, listener := none }

/-- A handler that stops at the first diagnostic. -/
def stopping : Handler := { stored := #[], stopsAtError := true, listener := none }

/-- A handler that collects, with a listener that has heard nothing yet. -/
def listening : Handler := { stored := #[], stopsAtError := false, listener := some #[] }

/-- How many diagnostics are held. -/
def errorCount (h : Handler) : Nat := h.stored.size

/-- Whether any diagnostic is held. -/
def hasErrors (h : Handler) : Bool := !h.stored.isEmpty

/-- The diagnostics held, the oldest first. -/
def diagnostics (h : Handler) : List Diagnostic := h.stored.toList

/-- All that the listener has heard, the earliest first. -/
def heard (h : Handler) : List Heard := (h.listener.getD #[]).toList

/-- Hands a diagnostic to the handler. The listener hears it before it is stored. -/
def emit (h : Handler) (d : Diagnostic) : Except Fault Handler :=
  match h with
  | { stored, stopsAtError, listener } =>
    if stopsAtError then .error (.stopped d.text)
    else
      let count := stored.size
      .ok { stored := stored.push d, stopsAtError,
            listener := listener.map fun calls => calls.push ⟨d, count⟩ }

/-- Reports a message on a line, about no place in particular. -/
def error (h : Handler) (line : Nat) (message : String) : Except Fault Handler :=
  h.emit ((Draft.error message).set (.line line)).build

/-- Forgets the diagnostics held. What the listener heard stays heard. -/
def clear (h : Handler) : Handler := { h with stored := #[] }

/-- The diagnostics held, and the handler without them. -/
def take (h : Handler) : List Diagnostic × Handler := (h.diagnostics, h.clear)

/-- Whether to go on: an error if any diagnostic is held. -/
def abortIfErrors (h : Handler) : Except ErrorsEmitted Unit :=
  if h.errorCount = 0 then .ok () else .error ⟨h.errorCount⟩

def inspect (h : Handler) : String :=
  Text.Inspection.record "Handler"
    [("diagnostics", Text.Inspection.list (h.diagnostics.map Diagnostic.inspect)),
      ("panic_on_error", Text.Inspection.bool h.stopsAtError),
      ("emitter", Text.Inspection.bool h.listener.isSome)]

end Handler
end Lexical
