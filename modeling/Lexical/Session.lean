import Lexical.Scan.Basic

/-!
# Sessions

A front end keeps one handler through many phases and many sources. The operations on it are
data here, and a session is a list of them, so that what a handler holds after any history is
a statement about a list. An operation that ends in a fault leaves the handler as the fault
found it, and the session goes on.
-/

set_option autoImplicit false

namespace Lexical
namespace Session

inductive Op where
  /-- Scans a source. -/
  | run (source : String)
  /-- Reports a message on a line. -/
  | error (line : Nat) (message : String)
  /-- Reports a finished diagnostic. -/
  | emit (diagnostic : Diagnostic)
  /-- Builds a diagnostic and reports it. -/
  | build (message : String) (settings : List Draft.Setting)
  | diagnostics
  | take
  | clear
  | abortIfErrors
  | inspect
  deriving DecidableEq

inductive Answer where
  | done
  | tokens (tokens : List Token)
  | diagnostics (diagnostics : List Diagnostic)
  | aborted (errors : ErrorsEmitted)
  | text (text : String)
  | fault (fault : Fault)

/-- The answer and the handler after something was handed to it. -/
def afterEmit (before : Handler) : Except Fault Handler → Answer × Handler
  | .ok after => (.done, after)
  | .error fault => (.fault fault, before)

def perform (h : Handler) : Op → Answer × Handler
  | .run source =>
    let outcome := Scan.run source h
    match outcome.result with
    | .ok tokens => (.tokens tokens, outcome.handler)
    | .error fault => (.fault fault, outcome.handler)
  | .error line message => afterEmit h (h.error line message)
  | .emit diagnostic => afterEmit h (h.emit diagnostic)
  | .build message settings => afterEmit h (h.emit ((Draft.error message).setAll settings).build)
  | .diagnostics => (.diagnostics h.diagnostics, h)
  | .take => (.diagnostics h.take.1, h.take.2)
  | .clear => (.done, h.clear)
  | .abortIfErrors =>
    match h.abortIfErrors with
    | .ok () => (.done, h)
    | .error errors => (.aborted errors, h)
  | .inspect => (.text h.inspect, h)

/-- What the listener heard while a handler went from one state to the other. -/
def heardBetween (before after : Handler) : List Heard := after.heard.drop before.heard.length

/-- Performs operations one after the other and gives the handler that is reached. -/
def performAll (h : Handler) (ops : List Op) : Handler :=
  ops.foldl (fun reached op => (perform reached op).2) h

end Session
end Lexical
