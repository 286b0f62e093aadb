import Lexical.Proofs.ReadingBack

/-!
# Reading tokens and diagnostics back from their JSON form

A diagnostic is read back from its JSON form whatever it holds. A token is not: an infinite number
and no literal at all are both written as null. What the form does tell of a token is
`Token.Told`, and it is enough for a token that carries the value of its text, because kind and
text then say which of the two a null stands for.
-/

set_option autoImplicit false

namespace Lexical

/-! ## Every form is well formed -/

namespace Json

theorem wellFormed_nat (n : Nat) : (nat n).WellFormed := .number (isNumeral_nat n)

theorem wellFormed_optional {j : Option Json} (h : ∀ value ∈ j, value.WellFormed) :
    (optional j).WellFormed := by
  cases j with
  | none => exact .null
  | some value => exact h value rfl

end Json

open Json

theorem Binary64.wellFormed_toJson (x : Binary64) : x.toJson.WellFormed := by
  unfold toJson
  split
  · exact .number (Style.isNumeral_finite .serialized x)
  · exact .null

theorem Literal.wellFormed_toJson (l : Literal) : l.toJson.WellFormed := by
  cases l with
  | number value => exact value.wellFormed_toJson
  | string value => exact .string value

theorem Span.wellFormed_toJson (s : Span) : s.toJson.WellFormed :=
  .object (by simp [wellFormed_nat])

theorem Code.wellFormed_toJson (c : Code) : c.toJson.WellFormed :=
  .object (by simp [wellFormed_nat, WellFormed.string])

theorem Token.wellFormed_toJson (t : Token) : t.toJson.WellFormed := by
  have hliteral : (Json.optional (t.literal.map Literal.toJson)).WellFormed :=
    wellFormed_optional (by simp [Literal.wellFormed_toJson])
  exact .object (by
    simp [wellFormed_nat, WellFormed.string, hliteral, Kind.toJson, Span.wellFormed_toJson])

theorem Diagnostic.wellFormed_toJson (d : Diagnostic) : d.toJson.WellFormed := by
  have hcode : (Json.optional (d.code.map Code.toJson)).WellFormed :=
    wellFormed_optional (by simp [Code.wellFormed_toJson])
  have hnotes : (array (d.notes.map string)).WellFormed := .array (by simp [WellFormed.string])
  exact .object (by
    simp [wellFormed_nat, WellFormed.string, hcode, hnotes, Span.wellFormed_toJson])

theorem denotes_tokensText (tokens : List Token) :
    Denotes (tokensText tokens) (.array (tokens.map Token.toJson)) :=
  (WellFormed.array (by simp [Token.wellFormed_toJson])).denotes_text

theorem denotes_diagnosticsText (diagnostics : List Diagnostic) :
    Denotes (diagnosticsText diagnostics) (.array (diagnostics.map Diagnostic.toJson)) :=
  (WellFormed.array (by simp [Diagnostic.wellFormed_toJson])).denotes_text

/-! ## Readers -/

namespace Json

def member? (key : String) : Json → Option Json
  | object members => members.lookup key
  | _ => none

def string? : Json → Option String
  | string value => some value
  | _ => none

/-- The natural number that digits alone denote. -/
def nat? : Json → Option Nat
  | number written =>
    if IsDigits written.toList then some (Nat.ofDigitChars 10 written.toList 0) else none
  | _ => none

/-- A list, if each of its items can be read. -/
def list? {α : Type} (read : Json → Option α) : Json → Option (List α)
  | array items => items.mapM read
  | _ => none

/-- Null, or what can be read. -/
def optional? {α : Type} (read : Json → Option α) : Json → Option (Option α)
  | null => some none
  | j => (read j).map some

@[simp] theorem member?_object (key : String) (members : List (String × Json)) :
    (object members).member? key = members.lookup key := rfl

@[simp] theorem string?_string (value : String) : string? (string value) = some value := rfl

@[simp] theorem nat?_nat (n : Nat) : nat? (nat n) = some n := by
  have hdigits : n.repr.toList = Style.digits n := Nat.toList_repr
  rw [nat, nat?, hdigits, if_pos (Style.isDigits_digits n)]
  exact congrArg some Nat.ofDigitChars_ten_toDigits

theorem list?_array {α : Type} {read : Json → Option α} {write : α → Json} {as : List α}
    (h : ∀ a ∈ as, read (write a) = some a) : list? read (array (as.map write)) = some as := by
  induction as with
  | nil => rfl
  | cons a as ih =>
    obtain ⟨ha, has⟩ := List.forall_mem_cons.mp h
    have hrest := ih has
    rw [list?] at hrest ⊢
    rw [List.map_cons, List.mapM_cons, ha, hrest]
    rfl

end Json

/-! ## Diagnostics -/

def Span.ofJson? (j : Json) : Option Span := do
  let start ← (← j.member? "start").nat?
  let stop ← (← j.member? "end").nat?
  let line ← (← j.member? "line").nat?
  return { start, stop, line }

def Code.ofJson? (j : Json) : Option Code := do
  let family ← (← j.member? "prefix").string?
  let number ← (← j.member? "number").nat?
  return { family, number }

def Diagnostic.ofJson? (j : Json) : Option Diagnostic := do
  let message ← (← j.member? "message").string?
  let line ← (← j.member? "line").nat?
  let span ← Span.ofJson? (← j.member? "span")
  let code ← (← j.member? "code").optional? Code.ofJson?
  let notes ← (← j.member? "notes").list? string?
  return { message, line, span, code, notes }

@[simp] theorem Span.ofJson?_toJson (s : Span) : ofJson? s.toJson = some s := by
  simp [ofJson?, toJson, List.lookup_cons]

theorem Code.ofJson?_toJson (c : Code) : ofJson? c.toJson = some c := by
  simp [ofJson?, toJson, List.lookup_cons]

theorem Diagnostic.ofJson?_toJson (d : Diagnostic) : ofJson? d.toJson = some d := by
  have hcode : optional? Code.ofJson? (Json.optional (d.code.map Code.toJson)) = some d.code := by
    cases d.code with
    | none => rfl
    | some c => exact congrArg (Option.map some) c.ofJson?_toJson
  have hnotes : list? string? (array (d.notes.map string)) = some d.notes :=
    list?_array fun _ _ => rfl
  simp [ofJson?, toJson, List.lookup_cons, hcode, hnotes]

/-! ## Tokens -/

namespace Kind

def ofName? (name : String) : Option Kind :=
  (kindNames.find? fun row => row.2 == name).map Prod.fst

/-- No two kinds share a name. -/
@[simp] theorem ofName?_name (k : Kind) : ofName? k.name = some k := by
  have hall : ∀ row ∈ kindNames, ofName? row.2 = some row.1 := by decide +kernel
  exact hall (k, k.name) (mem_kindNames k)

/-- Words in capitals with underscores between them. -/
def isScreamingSnake (name : String) : Bool :=
  (name.toList.splitOn '_').all fun word => !word.isEmpty && word.all Char.isUpper

theorem isScreamingSnake_name (k : Kind) : isScreamingSnake k.name = true := by
  have hall : ∀ row ∈ kindNames, isScreamingSnake row.2 = true := by decide +kernel
  exact hall (k, k.name) (mem_kindNames k)

end Kind

/-- How the value of a token stands in its JSON form: as a string for a string and nothing else, as
a number that is read back as the value for a finite number and nothing else, and as null for the
rest. -/
inductive LiteralForm : Kind → Option Literal → Json → Prop
  | string (value : String) : LiteralForm .string (some (.string value)) (.string value)
  | finite {x : Binary64} : x.isFinite = true → ReadsBack (Style.serialized.finite x).toList x →
      LiteralForm .number (some (.number x)) (.number (Style.serialized.finite x))
  | infinite {x : Binary64} : x.isFinite = false → LiteralForm .number (some (.number x)) .null
  | absent {kind : Kind} : Valueless kind → LiteralForm kind none .null

/-- What the JSON form of a token tells of it. -/
structure Token.Told (t : Token) (j : Json) : Prop where
  kind : (j.member? "kind").bind string? = some t.kind.name
  named : (t.kind, t.kind.name) ∈ kindNames
  capitals : Kind.isScreamingSnake t.kind.name = true
  lexeme : (j.member? "lexeme").bind string? = some t.lexeme
  literal : ∃ value, j.member? "literal" = some value ∧ LiteralForm t.kind t.literal value
  line : (j.member? "line").bind nat? = some t.line
  span : (j.member? "span").bind Span.ofJson? = some t.span

/-- Reads a token. Its value is not read: it is the value of its text. -/
def Token.ofJson? (j : Json) : Option Token := do
  let kind ← Kind.ofName? (← (← j.member? "kind").string?)
  let lexeme ← (← j.member? "lexeme").string?
  let line ← (← j.member? "line").nat?
  let span ← Span.ofJson? (← j.member? "span")
  return { kind, lexeme, literal := literalOf kind lexeme.toList, line, span }

theorem literalForm_of_carries {kind : Kind} {text : List Char} {literal : Option Literal}
    (h : Carries kind text literal) :
    LiteralForm kind literal (Json.optional (literal.map Literal.toJson)) := by
  unfold Carries at h
  split at h
  next =>
    obtain ⟨body, -, rfl⟩ := h
    exact .string (String.ofList body)
  next =>
    obtain ⟨x, rfl⟩ := h
    show LiteralForm .number _ x.toJson
    unfold Binary64.toJson
    split
    next hfinite => exact .finite hfinite (Style.serialized.readsBack_finite hfinite)
    next hinfinite => exact .infinite ((Bool.not_eq_true _).mp hinfinite)
  next hstring hnumber =>
    subst h
    exact .absent ⟨hstring, hnumber⟩

theorem Token.told_toJson {t : Token} (h : Carries t.kind t.lexeme.toList t.literal) :
    t.Told t.toJson where
  kind := by simp [toJson, Kind.toJson]
  named := mem_kindNames t.kind
  capitals := t.kind.isScreamingSnake_name
  lexeme := by simp [toJson, List.lookup_cons]
  literal := ⟨_, by simp [toJson, List.lookup_cons], literalForm_of_carries h⟩
  line := by simp [toJson, List.lookup_cons]
  span := by simp [toJson, List.lookup_cons]

theorem Token.Valued.ofJson?_toJson {t : Token} (h : t.Valued) : ofJson? t.toJson = some t := by
  rw [Valued] at h
  simp [ofJson?, toJson, List.lookup_cons, Kind.toJson, ← h]

end Lexical
