/-!
# Faults

A lexical error is part of a scan's result: it is reported and the scan goes on. A fault is
something else: an operation that was asked for what it cannot do, after which nothing more is
done. The partial operations of this library answer with a `Fault` where they have no answer,
so that "this never happens" is a statement one can prove about a run.
-/

set_option autoImplicit false

namespace Lexical

inductive Fault where
  /-- A span was to end before it starts. -/
  | reversedSpan
  /-- The length of a span that ends before it starts was asked for. -/
  | negativeLength
  /-- A text was to be cut inside a character, past its end, or backwards. -/
  | offBoundary
  /-- The line counter is at its greatest value and a line break follows. -/
  | lineOverflow
  /-- The text of a number token is not a numeral. -/
  | unreadableNumeral
  /-- A diagnostic reached a handler that stops at the first one; `report` is its text. -/
  | stopped (report : String)
  deriving DecidableEq

namespace Fault

def message : Fault → String
  | reversedSpan => "assertion failed: start <= end"
  | negativeLength => "attempt to subtract with overflow"
  | offBoundary => "offset is not a character boundary"
  | lineOverflow => "attempt to add with overflow"
  | unreadableNumeral => "number lexeme did not parse"
  | stopped report => "Diagnostic error: " ++ report

/-! ## Steps in a row

A row of steps succeeds exactly when each step does. Every statement about a successful run is
taken apart with these. -/

theorem bind_eq_ok_iff {α β : Type} {x : Except Fault α} {f : α → Except Fault β} {b : β} :
    (x >>= f) = .ok b ↔ ∃ a, x = .ok a ∧ f a = .ok b := by
  cases x with
  | error fault => simp [bind, Except.bind]
  | ok a => simp [bind, Except.bind]

theorem map_eq_ok_iff {α β : Type} {x : Except Fault α} {f : α → β} {b : β} :
    x.map f = .ok b ↔ ∃ a, x = .ok a ∧ f a = b := by
  cases x with
  | error fault => simp [Except.map]
  | ok a => simp [Except.map]

theorem pure_eq_ok_iff {α : Type} {a b : α} : (pure a : Except Fault α) = .ok b ↔ a = b := by
  simp [pure, Except.pure]

end Fault
end Lexical
