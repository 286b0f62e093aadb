import Lexical.Diagnostic.Draft

/-!
# What a built diagnostic is

The settings of a draft come in any order, and two settings of different kinds may change places without
a difference to what is built. Of each kind the last setting counts, and of the notes all do. The line
and the span both have a say in where the diagnostic is reported, and there the kind decides and not the
order: a line that was given counts, even if a span is given after it.

`BuiltFrom` says this of each field by what stands in the row of settings, with no draft in between. It
pins down the diagnostic (`BuiltFrom.unique`), so two rows that give the same of each kind build the
same, and a diagnostic that is made without a draft is the built one as soon as `BuiltFrom` holds of it.
`Drafted` is the invariant behind it: one setting keeps it, and so does a row of them.
-/

set_option autoImplicit false

namespace Lexical
namespace Draft

namespace Setting

/-- The code that a setting gives, if it is of that kind. -/
def code? : Setting → Option Code
  | code c => some c
  | _ => none

/-- The span that a setting gives, if it is of that kind. -/
def span? : Setting → Option Span
  | span s => some s
  | _ => none

/-- The line that a setting gives, if it is of that kind. -/
def line? : Setting → Option Nat
  | line n => some n
  | _ => none

/-- The note that a setting gives, if it is of that kind. -/
def note? : Setting → Option String
  | note n => some n
  | _ => none

end Setting

/-- The last that settings give of one kind. -/
def lastOf {α : Type} (kind : Setting → Option α) (settings : List Setting) : Option α :=
  (settings.filterMap kind).getLast?

/-- What a diagnostic is that was built from a message and a row of settings. -/
structure BuiltFrom (message : String) (settings : List Setting) (d : Diagnostic) : Prop where
  message_eq : d.message = message
  code_eq : d.code = lastOf Setting.code? settings
  span_eq : d.span = (lastOf Setting.span? settings).getD .dummy
  notes_eq : d.notes = settings.filterMap Setting.note?
  line_given : ∀ line, lastOf Setting.line? settings = some line → d.line = line
  line_of_span : settings.filterMap Setting.line? = [] → d.line = d.span.line
  line_of_none : settings.filterMap Setting.line? = [] → settings.filterMap Setting.span? = [] →
    d.line = 0

/-- Two rows of settings give the same of each kind, in the same order. How the kinds are mixed may
differ. -/
structure Alike (settings others : List Setting) : Prop where
  codes : settings.filterMap Setting.code? = others.filterMap Setting.code?
  spans : settings.filterMap Setting.span? = others.filterMap Setting.span?
  lines : settings.filterMap Setting.line? = others.filterMap Setting.line?
  notes : settings.filterMap Setting.note? = others.filterMap Setting.note?

/-- A diagnostic that is made without a draft, and given a code if there is one. -/
def inOneGo (message : String) (span : Span) : Option Code → Diagnostic
  | none => .error message span
  | some code => (Diagnostic.error message span).withCode code

variable {message : String} {settings others : List Setting}

/-! ## One setting

It takes the place of what was set of its kind, and all else stays. -/

theorem set_message (d : Draft) (s : Setting) : (d.set s).message = d.message := by
  cases s <;> rfl

theorem set_code (d : Draft) (s : Setting) : (d.set s).code = s.code?.or d.code := by
  cases s <;> rfl

theorem set_span (d : Draft) (s : Setting) : (d.set s).span = s.span?.getD d.span := by
  cases s <;> rfl

theorem set_line (d : Draft) (s : Setting) : (d.set s).line = s.line?.or d.line := by
  cases s <;> rfl

theorem set_notes (d : Draft) (s : Setting) : (d.set s).notes = d.notes ++ s.note?.toList := by
  cases s with
  | note n => rfl
  | _ => exact (List.append_nil _).symm

theorem lastOf_concat {α : Type} (kind : Setting → Option α) (settings : List Setting)
    (s : Setting) : lastOf kind (settings ++ [s]) = (kind s).or (lastOf kind settings) := by
  rw [lastOf, lastOf, List.filterMap_append]
  cases hkind : kind s with
  | none => simp [hkind]
  | some a => simp [hkind]

/-! ## A row of settings -/

/-- What a draft holds after a row of settings. -/
structure Drafted (message : String) (settings : List Setting) (d : Draft) : Prop where
  message_eq : d.message = message
  code_eq : d.code = lastOf Setting.code? settings
  span_eq : d.span = (lastOf Setting.span? settings).getD .dummy
  notes_eq : d.notes = settings.filterMap Setting.note?
  line_eq : d.line = lastOf Setting.line? settings

theorem drafted_error (message : String) : Drafted message [] (error message) :=
  ⟨rfl, rfl, rfl, rfl, rfl⟩

theorem Drafted.set {d : Draft} (h : Drafted message settings d) (s : Setting) :
    Drafted message (settings ++ [s]) (d.set s) := by
  constructor
  case message_eq => rw [set_message, h.message_eq]
  case code_eq => rw [set_code, lastOf_concat, h.code_eq]
  case span_eq =>
    rw [set_span, lastOf_concat, h.span_eq]
    cases s.span? <;> rfl
  case notes_eq =>
    rw [set_notes, h.notes_eq, List.filterMap_append]
    cases hnote : s.note? <;> simp [hnote]
  case line_eq => rw [set_line, lastOf_concat, h.line_eq]

theorem Drafted.setAll {d : Draft} (h : Drafted message settings d) (more : List Setting) :
    Drafted message (settings ++ more) (d.setAll more) := by
  induction more generalizing settings d with
  | nil =>
    rw [List.append_nil]
    exact h
  | cons s more ih =>
    have hrest := ih (h.set s)
    rw [List.append_assoc, List.singleton_append] at hrest
    exact hrest

theorem Drafted.build {d : Draft} (h : Drafted message settings d) :
    BuiltFrom message settings d.build := by
  have hline : d.build.line = (lastOf Setting.line? settings).getD d.span.line := by
    rw [Draft.build, h.line_eq]
  constructor
  case message_eq => exact h.message_eq
  case code_eq => exact h.code_eq
  case span_eq => exact h.span_eq
  case notes_eq => exact h.notes_eq
  case line_given =>
    intro line hgiven
    rw [hline, hgiven, Option.getD_some]
  case line_of_span =>
    intro hlines
    rw [hline, lastOf, hlines]
    rfl
  case line_of_none =>
    intro hlines hspans
    rw [hline, h.span_eq, lastOf, lastOf, hlines, hspans]
    rfl

/-- **Every row of settings builds what it gives.** -/
theorem builtFrom_build (message : String) (settings : List Setting) :
    BuiltFrom message settings ((error message).setAll settings).build :=
  ((drafted_error message).setAll settings).build

/-! ## What follows without a draft -/

theorem BuiltFrom.line_eq {d : Diagnostic} (h : BuiltFrom message settings d) :
    d.line = (lastOf Setting.line? settings).getD d.span.line := by
  cases hlast : lastOf Setting.line? settings with
  | none => exact h.line_of_span (List.getLast?_eq_none_iff.mp hlast)
  | some line => exact h.line_given line hlast

/-- A message and a row of settings leave no choice. -/
theorem BuiltFrom.unique {d e : Diagnostic} (h : BuiltFrom message settings d)
    (h' : BuiltFrom message settings e) : d = e := by
  have hmessage : d.message = e.message := h.message_eq.trans h'.message_eq.symm
  have hspan : d.span = e.span := h.span_eq.trans h'.span_eq.symm
  have hline : d.line = e.line := by rw [h.line_eq, h'.line_eq, hspan]
  have hcode : d.code = e.code := h.code_eq.trans h'.code_eq.symm
  have hnotes : d.notes = e.notes := h.notes_eq.trans h'.notes_eq.symm
  cases d
  cases e
  rw [Diagnostic.mk.injEq]
  exact ⟨hmessage, hline, hspan, hcode, hnotes⟩

theorem BuiltFrom.of_alike {d : Diagnostic} (h : BuiltFrom message settings d)
    (halike : Alike settings others) : BuiltFrom message others d := by
  obtain ⟨hcodes, hspans, hlines, hnotes⟩ := halike
  obtain ⟨hmessage, hcode, hspan, hnote, hgiven, hofSpan, hofNone⟩ := h
  rw [lastOf, hcodes] at hcode
  rw [lastOf, hspans] at hspan
  rw [lastOf, hlines] at hgiven
  rw [hlines] at hofSpan
  rw [hlines, hspans] at hofNone
  rw [hnotes] at hnote
  exact ⟨hmessage, hcode, hspan, hnote, hgiven, hofSpan, hofNone⟩

/-- Without lines and notes there is nothing that a draft is needed for. -/
theorem builtFrom_inOneGo (hlines : settings.filterMap Setting.line? = [])
    (hnotes : settings.filterMap Setting.note? = []) :
    BuiltFrom message settings (inOneGo message ((lastOf Setting.span? settings).getD .dummy)
      (lastOf Setting.code? settings)) := by
  have hmade : ∀ span code, inOneGo message span code =
      { message, line := span.line, span, code, notes := [] } := by
    intro span code
    cases code <;> rfl
  rw [hmade]
  constructor
  case message_eq => rfl
  case code_eq => rfl
  case span_eq => rfl
  case notes_eq => exact hnotes.symm
  case line_given =>
    intro line hgiven
    rw [lastOf, hlines] at hgiven
    cases hgiven
  case line_of_span => exact fun _ => rfl
  case line_of_none =>
    intro _ hspans
    rw [lastOf, hspans]
    rfl

/-- **A built diagnostic depends only on the last setting of each kind**, and on all notes. Settings of
different kinds may change places, and without lines and notes a draft builds what is made without
one. -/
theorem build_setAll (message : String) (settings : List Setting) :
    BuiltFrom message settings ((error message).setAll settings).build ∧
      (∀ others, Alike settings others →
        ((error message).setAll others).build = ((error message).setAll settings).build) ∧
      (settings.filterMap Setting.line? = [] → settings.filterMap Setting.note? = [] →
        ((error message).setAll settings).build =
          inOneGo message ((lastOf Setting.span? settings).getD .dummy)
            (lastOf Setting.code? settings)) := by
  have hbuilt := builtFrom_build message settings
  refine ⟨hbuilt, ?_, ?_⟩
  · intro others halike
    exact (builtFrom_build message others).unique (hbuilt.of_alike halike)
  · intro hlines hnotes
    exact hbuilt.unique (builtFrom_inOneGo hlines hnotes)

example : ((error "x").setAll [.line 3, .span ⟨0, 4, 1⟩, .span ⟨2, 4, 2⟩]).build =
    { message := "x", line := 3, span := ⟨2, 4, 2⟩, code := none, notes := [] } := rfl

end Draft
end Lexical
