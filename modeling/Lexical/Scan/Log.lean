import Lexical.Diagnostic.Basic

/-!
# The log of a scan

What a scan says about itself while it runs: one scope that it enters and leaves, in it an
event for each lexical error, and at the end an event that sums up. An error is logged before
it is handed on, so the log of a scan that is stopped by its handler ends with the error that
stopped it.

An entry holds everything that is recorded of it. What no source can change, the names, the level
and the wording of the summary, is implicit in it: whoever takes an entry apart has to name only
the rest.
-/

set_option autoImplicit false

namespace Lexical

/-- A value that is logged as the text it is shown by. -/
structure Shown where
  text : String
  deriving DecidableEq

inductive LogEntry where
  /-- The scope of a scan was made, for a source of so many bytes. -/
  | opened {name level : String} (bytes : Nat)
  | entered
  /-- An error is about to be reported on a line. -/
  | error {level : String} (line : Nat) (code : Shown) (message : String)
  /-- The source was read to its end: the counts of tokens and errors, and the last line. -/
  | finished {level message : String} (tokens errors lines : Nat)
  | exited
  deriving DecidableEq

namespace LogEntry

def scope : String := "scan_tokens"

def level : String := "DEBUG"

/-- The wording of the event that sums up. -/
def finishedMessage : String := "scan finished"

def ofScope (bytes : Nat) : LogEntry := @opened scope level bytes

def ofError (line : Nat) (code : Code) (message : String) : LogEntry :=
  @error level line ⟨code.text⟩ message

def ofSummary (tokens errors lines : Nat) : LogEntry :=
  @finished level finishedMessage tokens errors lines

end LogEntry
end Lexical
