import Lexical.Fault
import Lexical.Text.Inspection
import Lexical.Text.Offset

/-!
# Spans

A piece of source text is named by where it starts and stops, in bytes, and by the line it
starts on. The span itself holds no text: `Span.slice` looks it up, and answers with the empty
text for a span that does not fit the source it is given, because a message about a source is
better short than missing.
-/

set_option autoImplicit false

namespace Lexical

/-- A piece of source text: byte offsets and the line of the first one. -/
structure Span where
  start : Nat
  stop : Nat
  line : Nat
  deriving DecidableEq

namespace Span

/-- The span between two offsets, the later one second. -/
def between (start stop line : Nat) : Except Fault Span :=
  if start ≤ stop then .ok ⟨start, stop, line⟩ else .error .reversedSpan

def point (offset line : Nat) : Span := ⟨offset, offset, line⟩

/-- The span of what has no place in a source. Lines count from one, so no other span made
from a source equals it. -/
def dummy : Span := ⟨0, 0, 0⟩

def length (s : Span) : Except Fault Nat :=
  if s.start ≤ s.stop then .ok (s.stop - s.start) else .error .negativeLength

def isEmpty (s : Span) : Bool := s.start == s.stop

/-- Whether this is the span of what has no place. -/
def isDummy (s : Span) : Bool := s = dummy

/-- The text the span names in a source, empty where the span does not fit it. -/
def slice (s : Span) (source : String) : String :=
  (Text.slice? source s.start s.stop).getD ""

/-- The span in words. -/
def describe (s : Span) : String :=
  s.start.repr ++ ".." ++ s.stop.repr ++ " (line " ++ s.line.repr ++ ")"

def inspect (s : Span) : String :=
  Text.Inspection.record "Span"
    [("start", s.start.repr), ("end", s.stop.repr), ("line", s.line.repr)]

end Span
end Lexical
