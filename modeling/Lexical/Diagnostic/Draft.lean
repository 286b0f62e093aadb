import Lexical.Diagnostic.Basic

/-!
# Diagnostics in the making

A diagnostic is often put together piece by piece, by code that learns the pieces in no fixed
order. A `Draft` holds what has been said so far. Its line is kept apart from its span: a line
that was given wins over the span's, whichever of the two came first.
-/

set_option autoImplicit false

namespace Lexical

structure Draft where
  message : String
  span : Span
  line : Option Nat
  code : Option Code
  notes : List String
  deriving DecidableEq

namespace Draft

/-- A draft that has a message and nothing else, about no place. -/
def error (message : String) : Draft :=
  { message, span := Span.dummy, line := none, code := none, notes := [] }

inductive Setting where
  | code (code : Code)
  | span (span : Span)
  | line (line : Nat)
  | note (note : String)
  deriving DecidableEq

/-- Adds a setting. A note is put after the earlier ones; any other setting replaces the
earlier one of its kind. -/
def set (d : Draft) : Setting → Draft
  | .code code => { d with code := some code }
  | .span span => { d with span }
  | .line line => { d with line := some line }
  | .note note => { d with notes := d.notes ++ [note] }

def setAll (d : Draft) (settings : List Setting) : Draft := settings.foldl set d

/-- The finished diagnostic. It is reported on the line that was given, or else on the line of
its span. -/
def build (d : Draft) : Diagnostic :=
  { message := d.message, line := d.line.getD d.span.line, span := d.span, code := d.code,
    notes := d.notes }

end Draft
end Lexical
