import Lexical.Diagnostic.Handler
import Lexical.Scan.Item
import Lexical.Scan.Log

/-!
# Scanning a source

A scan takes the items of a source one after the other. It keeps the tokens, hands each error
to a handler as it comes, and writes a log. Errors do not end it: the list of tokens always
covers the whole source and is closed by an end token. Only a fault ends it early, and the one
fault that a source can bring about is that its handler stops at a diagnostic. What had been
handed on and logged by then remains, so an `Outcome` has a handler and a log either way.

The scan ends because an item is never empty (`Item.read_unread_lt`).
-/

set_option autoImplicit false

namespace Lexical

/-- A scan that is under way. -/
structure Scan where
  cursor : Cursor
  tokens : Array Token
  /-- How many errors were reported by this scan. -/
  errors : Nat
  handler : Handler
  log : Array LogEntry

namespace Scan

/-- A scan that is over: the tokens or the fault that ended it, the handler, and the log. -/
structure Outcome where
  result : Except Fault (List Token)
  handler : Handler
  log : List LogEntry

/-- A scan of a source that has not read anything. -/
def begin (source : String) (handler : Handler) : Scan :=
  { cursor := .ofSource source, tokens := #[], errors := 0, handler,
    log := #[.ofScope source.utf8ByteSize, .entered] }

def stop (s : Scan) (fault : Fault) : Outcome :=
  { result := .error fault, handler := s.handler, log := (s.log.push .exited).toList }

/-- Ends a scan that has read everything. -/
def finish (s : Scan) : Outcome :=
  let tokens := s.tokens.push (.endOfSource s.cursor.position s.cursor.line)
  let summary := .ofSummary tokens.size s.errors s.cursor.line
  { result := .ok tokens.toList, handler := s.handler,
    log := ((s.log.push summary).push .exited).toList }

/-- Logs an error that is reported on `line`. -/
def note (s : Scan) (e : Error) (line : Nat) : Scan :=
  { s with log := s.log.push (.ofError line e.code e.message) }

/-- Takes the items up to the end of the source. An error is reported on the line the cursor
is on after it. -/
def toEnd (s : Scan) : Outcome :=
  if _hend : s.cursor.isAtEnd then s.finish
  else
    match _hread : Item.read s.cursor with
    | .error fault => s.stop fault
    | .ok (.blank, next) => toEnd { s with cursor := next }
    | .ok (.token t, next) => toEnd { s with cursor := next, tokens := s.tokens.push t }
    | .ok (.error e span, next) =>
      let noted := s.note e next.line
      match noted.handler.emit (e.diagnostic span next.line) with
      | .error fault => noted.stop fault
      | .ok handler => toEnd { noted with cursor := next, handler, errors := s.errors + 1 }
termination_by s.cursor.unread
decreasing_by all_goals exact Item.read_unread_lt (by simpa using _hend) _hread

/-- Scans a source, reporting errors to a handler. -/
def run (source : String) (handler : Handler) : Outcome := (begin source handler).toEnd

end Scan

/-- The tokens of a source, with the diagnostics about it. -/
structure Scanned where
  tokens : List Token
  diagnostics : List Diagnostic
  deriving DecidableEq

namespace Scanned

def hasErrors (s : Scanned) : Bool := !s.diagnostics.isEmpty

/-- Equality of token lists, numbers being compared as numbers. -/
def tokensEqual (s t : Scanned) : Bool := s.tokens.isEqv t.tokens Token.equal

def equal (s t : Scanned) : Bool := s.tokensEqual t && s.diagnostics = t.diagnostics

end Scanned

/-- Scans a source with a handler of its own. -/
def tokenize (source : String) : Except Fault Scanned :=
  let outcome := Scan.run source .collecting
  outcome.result.map fun tokens => ⟨tokens, outcome.handler.diagnostics⟩

end Lexical
