import Lexical.Proofs.Cursor.Cut
import Lexical.Proofs.Text.Run
import Lexical.Scan.Item

/-!
# The piece at the front of a text

`Item.read` takes an item at a cursor. What it takes depends on nothing but the characters
ahead: not on what was read before, not on the offset and not on the line. `Piece.first` is that
dependency by itself, a function from the characters ahead to a piece and the characters after
it. That the item at a cursor is the first piece, put in its place, is proved in
`Scan/Read.lean`; this file says what the function itself does with a text.
-/

set_option autoImplicit false

namespace Lexical

open CharClass Text Cursor

/-- What a piece of text is, wherever it stands. -/
inductive Content where
  | blank
  | token (kind : Kind) (literal : Option Literal)
  | error (error : Error)

/-- Some characters and what they are. -/
structure Piece where
  content : Content
  text : List Char

namespace Piece

/-! ## One function for each rule

Each answers with the piece and with what is left. -/

/-- An operator: an equals sign extends it. -/
def operator (alone extended : Kind) (c : Char) : List Char → Piece × List Char
  | '=' :: rest => (⟨.token extended none, [c, '=']⟩, rest)
  | rest => (⟨.token alone none, [c]⟩, rest)

/-- A comment, up to the line break and without it. -/
def comment (c : Char) (rest : List Char) : Piece × List Char :=
  (⟨.blank, c :: rest.takeWhile (· ≠ '\n')⟩, rest.dropWhile (· ≠ '\n'))

/-- A string, or the start of one that no quote closes. -/
def string (c : Char) (rest : List Char) : Piece × List Char :=
  let body := rest.takeWhile (· ≠ '"')
  match rest.dropWhile (· ≠ '"') with
  | [] => (⟨.error .unterminatedString, c :: body⟩, [])
  | quote :: after =>
    (⟨.token .string (some (.string (String.ofList body))), c :: body ++ [quote]⟩, after)

/-- The fraction that a text starts with: a point and the digits after it, if there are any. -/
def fraction : List Char → List Char × List Char
  | '.' :: d :: rest =>
    if isDigit d then ('.' :: (d :: rest).takeWhile isDigit, (d :: rest).dropWhile isDigit)
    else ([], '.' :: d :: rest)
  | rest => ([], rest)

def numberLiteral (text : List Char) : Option Literal :=
  (Decimal.read? text).map fun d => .number (.nearest d)

def number (c : Char) (rest : List Char) : Piece × List Char :=
  let (point, after) := fraction (rest.dropWhile isDigit)
  let text := c :: rest.takeWhile isDigit ++ point
  (⟨.token .number (numberLiteral text), text⟩, after)

def word (c : Char) (rest : List Char) : Piece × List Char :=
  let text := c :: rest.takeWhile isAlphaNumeric
  (⟨.token (.ofWord (String.ofList text)) none, text⟩, rest.dropWhile isAlphaNumeric)

/-- The piece that a text starting with `c` starts with, and the text after it. -/
def first (c : Char) (rest : List Char) : Piece × List Char :=
  match Kind.punctuator? c, Kind.operator? c with
  | some kind, _ => (⟨.token kind none, [c]⟩, rest)
  | none, some (alone, extended) => operator alone extended c rest
  | none, none =>
    if c = '#' then comment c rest
    else if isBlank c then (⟨.blank, [c]⟩, rest)
    else if c = '"' then string c rest
    else if isDigit c then number c rest
    else if isAlpha c then word c rest
    else (⟨.error (.unexpectedCharacter c), [c]⟩, rest)

/-! ## A piece and what is left are the text -/

theorem operator_append (alone extended : Kind) (c : Char) (rest : List Char) :
    (operator alone extended c rest).1.text ++ (operator alone extended c rest).2 = c :: rest := by
  fun_cases operator alone extended c rest <;> simp

theorem string_append (c : Char) (rest : List Char) :
    (string c rest).1.text ++ (string c rest).2 = c :: rest := by
  have hrest := List.takeWhile_append_dropWhile (p := (· ≠ '"')) (l := rest)
  unfold string
  cases hd : rest.dropWhile (· ≠ '"') with
  | nil =>
    rw [hd, List.append_nil] at hrest
    simp only [List.append_nil, hrest]
  | cons quote after =>
    rw [hd] at hrest
    simp only [List.cons_append, List.append_assoc, List.nil_append, hrest]

theorem fraction_append (rest : List Char) : (fraction rest).1 ++ (fraction rest).2 = rest := by
  fun_cases fraction rest
  case case1 => simp only [List.cons_append, List.takeWhile_append_dropWhile]
  case case2 => rfl
  case case3 => rfl

theorem number_append (c : Char) (rest : List Char) :
    (number c rest).1.text ++ (number c rest).2 = c :: rest := by
  unfold number
  simp only [List.cons_append, List.append_assoc, fraction_append,
    List.takeWhile_append_dropWhile]

theorem first_append (c : Char) (rest : List Char) :
    (first c rest).1.text ++ (first c rest).2 = c :: rest := by
  fun_cases first c rest
  case case1 kind h => rfl
  case case2 alone extended h h' => exact operator_append alone extended c rest
  case case3 => simp only [comment, List.cons_append, List.takeWhile_append_dropWhile]
  case case4 => rfl
  case case5 => exact string_append c rest
  case case6 => exact number_append c rest
  case case7 => simp only [word, List.cons_append, List.takeWhile_append_dropWhile]
  case case8 => rfl

/-! ## A number is a numeral -/

theorem fraction_point {d : Char} (hd : isDigit d = true) (rest : List Char) :
    (fraction ('.' :: d :: rest)).1 = '.' :: (d :: rest).takeWhile isDigit := by
  rw [fraction, if_pos hd]

/-- A fraction is empty, or a point and at least one digit. -/
theorem fraction_eq (text : List Char) :
    (fraction text).1 = [] ∨
      ∃ ds, (fraction text).1 = '.' :: ds ∧ ds ≠ [] ∧ ∀ d ∈ ds, isDigit d = true := by
  fun_cases fraction text
  case case1 rest d hd =>
    refine Or.inr ⟨_, rfl, ?_, fun e he => of_mem_takeWhile he⟩
    rw [List.takeWhile_cons_of_pos hd]
    exact List.cons_ne_nil _ _
  case case2 => exact Or.inl rfl
  case case3 => exact Or.inl rfl

theorem exists_read?_number {c : Char} (hc : isDigit c = true) (rest : List Char) :
    ∃ d, Decimal.read? (number c rest).1.text = some d := by
  have hwhole : ∀ d ∈ c :: rest.takeWhile isDigit, isDigit d = true := by
    intro d hd
    rcases List.mem_cons.mp hd with rfl | hd
    · exact hc
    · exact of_mem_takeWhile hd
  show ∃ d, Decimal.read? (c :: rest.takeWhile isDigit ++
    (fraction (rest.dropWhile isDigit)).1) = some d
  unfold Decimal.read?
  rcases fraction_eq (rest.dropWhile isDigit) with hf | ⟨ds, hf, hne, hds⟩
  · rw [hf, takeWhile_run hwhole stops_nil, dropWhile_run hwhole stops_nil]
    exact ⟨_, rfl⟩
  · have hstop : Stops isDigit ('.' :: ds) := stops_cons.mpr (by decide)
    have hok : (!ds.isEmpty && ds.all isDigit) = true := by
      simpa [hne] using hds
    rw [hf, takeWhile_run hwhole hstop, dropWhile_run hwhole hstop]
    exact ⟨_, if_pos hok⟩

/-! ## A piece starts with the first character -/

theorem head?_first (c : Char) (rest : List Char) : (first c rest).1.text.head? = some c := by
  fun_cases first c rest
  case case2 alone extended h h' => fun_cases operator alone extended c rest <;> rfl
  case case5 =>
    unfold string
    cases rest.dropWhile (· ≠ '"') <;> rfl
  all_goals rfl

theorem first_text_ne_nil (c : Char) (rest : List Char) : (first c rest).1.text ≠ [] := by
  intro h
  have hhead := head?_first c rest
  rw [h] at hhead
  cases hhead

/-- Taking a piece leaves fewer characters, which is why a scan ends. -/
theorem length_first_lt (c : Char) (rest : List Char) :
    (first c rest).2.length < (c :: rest).length := by
  have hlen := congrArg List.length (first_append c rest)
  have hpos := List.length_pos_iff.mpr (first_text_ne_nil c rest)
  rw [List.length_append] at hlen
  omega

end Piece
end Lexical
