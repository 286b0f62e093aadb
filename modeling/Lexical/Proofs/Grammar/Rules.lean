import Lexical.CharClass
import Lexical.Token.Basic

/-!
# The token rules

What a token is, said without a scanner: tables for the texts that are listed one by one and for
the names of the kinds, and regular shapes for words, numbers and strings. Nothing here is taken
from the code that reads or writes tokens. The tables are written out again and the classes of
characters are the standard library's, so that a slip in either place shows as a theorem that cannot
be proved.

No two rules start with the same character, apart from the two forms of an operator. That is
why the rules need no order of precedence, and it is what the lemmas under *The first character
decides* are for.
-/

set_option autoImplicit false

namespace Lexical

/-! ## Tables -/

def punctuators : List (Char × Kind) :=
  [('(', .leftParen), (')', .rightParen), ('{', .leftBrace), ('}', .rightBrace), (',', .comma),
    ('.', .dot), ('-', .minus), ('+', .plus), (';', .semicolon), ('*', .star), ('/', .slash)]

def operators : List (List Char × Kind) :=
  [(['!'], .bang), (['!', '='], .bangEqual), (['='], .equal), (['=', '='], .equalEqual),
    (['<'], .less), (['<', '='], .lessEqual), (['>'], .greater), (['>', '='], .greaterEqual)]

def keywords : List (String × Kind) :=
  [("and", .reserved .andWord), ("class", .reserved .classWord), ("else", .reserved .elseWord),
    ("false", .reserved .falseWord), ("fn", .reserved .fnWord), ("for", .reserved .forWord),
    ("if", .reserved .ifWord), ("let", .reserved .letWord), ("nil", .reserved .nilWord),
    ("or", .reserved .orWord), ("print", .reserved .printWord),
    ("return", .reserved .returnWord), ("super", .reserved .superWord),
    ("this", .reserved .thisWord), ("true", .reserved .trueWord),
    ("while", .reserved .whileWord)]

/-- What the kinds are called. -/
def kindNames : List (Kind × String) :=
  [(.leftParen, "LEFT_PAREN"), (.rightParen, "RIGHT_PAREN"), (.leftBrace, "LEFT_BRACE"),
    (.rightBrace, "RIGHT_BRACE"), (.comma, "COMMA"), (.dot, "DOT"), (.minus, "MINUS"),
    (.plus, "PLUS"), (.semicolon, "SEMICOLON"), (.slash, "SLASH"), (.star, "STAR"),
    (.bang, "BANG"), (.bangEqual, "BANG_EQUAL"), (.equal, "EQUAL"),
    (.equalEqual, "EQUAL_EQUAL"), (.greater, "GREATER"), (.greaterEqual, "GREATER_EQUAL"),
    (.less, "LESS"), (.lessEqual, "LESS_EQUAL"), (.identifier, "IDENTIFIER"),
    (.string, "STRING"), (.number, "NUMBER"), (.reserved .andWord, "AND"),
    (.reserved .classWord, "CLASS"), (.reserved .elseWord, "ELSE"),
    (.reserved .falseWord, "FALSE"), (.reserved .fnWord, "FN"), (.reserved .forWord, "FOR"),
    (.reserved .ifWord, "IF"), (.reserved .letWord, "LET"), (.reserved .nilWord, "NIL"),
    (.reserved .orWord, "OR"), (.reserved .printWord, "PRINT"),
    (.reserved .returnWord, "RETURN"), (.reserved .superWord, "SUPER"),
    (.reserved .thisWord, "THIS"), (.reserved .trueWord, "TRUE"),
    (.reserved .whileWord, "WHILE"), (.endOfSource, "EOF")]

/-! ## Shapes -/

/-- A letter or an underscore. -/
def IsLetter (c : Char) : Prop := c.isAlpha = true ∨ c = '_'

instance (c : Char) : Decidable (IsLetter c) :=
  inferInstanceAs (Decidable (c.isAlpha = true ∨ c = '_'))

/-- Words: `[A-Za-z_][A-Za-z0-9_]*`. -/
def IsWord : List Char → Prop
  | [] => False
  | c :: rest => IsLetter c ∧ ∀ d ∈ rest, IsLetter d ∨ d.isDigit = true

instance (text : List Char) : Decidable (IsWord text) :=
  match text with
  | [] => isFalse id
  | c :: rest => @instDecidableAnd _ _ (inferInstanceAs (Decidable (IsLetter c)))
    (List.decidableBAll (fun d => IsLetter d ∨ d.isDigit = true) rest)

/-- Rows of digits: `[0-9]+`. -/
def IsDigits (text : List Char) : Prop := text ≠ [] ∧ ∀ c ∈ text, c.isDigit = true

instance (text : List Char) : Decidable (IsDigits text) :=
  @instDecidableAnd _ _ (inferInstanceAs (Decidable (text ≠ [])))
    (List.decidableBAll (fun c => c.isDigit = true) text)

/-- Numbers: `[0-9]+(\.[0-9]+)?`. -/
def IsNumber (text : List Char) : Prop :=
  IsDigits text ∨
    ∃ whole fraction, text = whole ++ '.' :: fraction ∧ IsDigits whole ∧ IsDigits fraction

/-- The kind of a word: reserved if the whole word is in the table. -/
def IsWordKind (text : List Char) (kind : Kind) : Prop :=
  (String.ofList text, kind) ∈ keywords ∨
    kind = .identifier ∧ ∀ other, (String.ofList text, other) ∉ keywords

/-- **The rules**: `Rule kind text` says that a rule makes a token of that kind of that text. -/
inductive Rule : Kind → List Char → Prop
  | punctuator {c : Char} {kind : Kind} : (c, kind) ∈ punctuators → Rule kind [c]
  | operator {text : List Char} {kind : Kind} : (text, kind) ∈ operators → Rule kind text
  | word {text : List Char} {kind : Kind} : IsWord text → IsWordKind text kind → Rule kind text
  | number {text : List Char} : IsNumber text → Rule .number text
  | string {body : List Char} : '"' ∉ body → Rule .string ('"' :: body ++ ['"'])

/-- The value that goes with a token: the text between the quotes for a string, some number for
a number, and nothing for any other kind. -/
def Carries (kind : Kind) (text : List Char) (literal : Option Literal) : Prop :=
  match kind with
  | .string => ∃ body, text = '"' :: body ++ ['"'] ∧ literal = some (.string (String.ofList body))
  | .number => ∃ value, literal = some (.number value)
  | _ => literal = none

/-- A text is the longest one at the front of `whole` that a rule makes a token of. -/
structure Longest (kind : Kind) (text whole : List Char) : Prop where
  rule : Rule kind text
  front : text <+: whole
  longest : ∀ other otherKind, Rule otherKind other → other <+: whole →
    other.length ≤ text.length

/-! ## The classes of characters agree -/

open CharClass

theorem isDigit_eq (c : Char) : isDigit c = c.isDigit := rfl

theorem isAlpha_iff {c : Char} : isAlpha c = true ↔ IsLetter c := by
  have hupper : c.isUpper = ('A' ≤ c && c ≤ 'Z') :=
    Bool.decide_and ('A'.val ≤ c.val) (c.val ≤ 'Z'.val)
  have halpha : c.isAlpha = (('A' ≤ c && c ≤ 'Z') || ('a' ≤ c && c ≤ 'z')) :=
    congrArg (· || c.isLower) hupper
  rw [IsLetter, halpha, isAlpha, Bool.or_eq_true, decide_eq_true_eq, Bool.or_comm]

theorem isAlphaNumeric_iff {c : Char} :
    isAlphaNumeric c = true ↔ IsLetter c ∨ c.isDigit = true := by
  rw [isAlphaNumeric, Bool.or_eq_true, isAlpha_iff, isDigit_eq]

/-! ## The tables agree -/

theorem mem_punctuators {c : Char} {kind : Kind} :
    (c, kind) ∈ punctuators ↔ Kind.punctuator? c = some kind := by
  constructor
  · intro h
    have hall : ∀ p ∈ punctuators, Kind.punctuator? p.1 = some p.2 := by decide
    exact hall _ h
  · intro h
    unfold Kind.punctuator? at h
    split at h <;> cases h <;> decide

theorem mem_kindNames (k : Kind) : (k, k.name) ∈ kindNames := by
  cases k with
  | reserved word => cases word <;> decide +kernel
  | _ => decide

theorem keywords_eq : keywords = Reserved.all.map fun w => (w.spelling, .reserved w) := by
  decide

theorem isWordKind_ofWord (text : List Char) :
    IsWordKind text (Kind.ofWord (String.ofList text)) := by
  unfold Kind.ofWord Reserved.ofSpelling? IsWordKind
  rw [keywords_eq]
  cases h : Reserved.all.find? fun w => w.spelling == String.ofList text with
  | some w =>
    have hspelling : w.spelling = String.ofList text := by
      simpa using List.find?_some h
    exact Or.inl (List.mem_map.mpr ⟨w, Reserved.mem_all w, by rw [hspelling]; rfl⟩)
  | none =>
    refine Or.inr ⟨rfl, fun other hmem => ?_⟩
    obtain ⟨w, hw, heq⟩ := List.mem_map.mp hmem
    have hspelling : w.spelling = String.ofList text := congrArg Prod.fst heq
    exact absurd (List.find?_eq_none.mp h w hw) (by simp [hspelling])

/-! ## The first character decides -/

theorem not_isAlpha_of_isDigit {c : Char} (hc : isDigit c = true) : isAlpha c = false := by
  rw [Bool.eq_false_iff]
  intro h
  simp only [isAlpha, Bool.or_eq_true, Bool.and_eq_true, decide_eq_true_eq] at h
  rcases h with (h | h) | rfl
  · simp only [isDigit, Bool.and_eq_true, decide_eq_true_eq, Char.le_def,
      UInt32.le_iff_toNat_le] at hc h
    have hnine : '9'.val.toNat = 57 := rfl
    have hfirst : 'a'.val.toNat = 97 := rfl
    omega
  · simp only [isDigit, Bool.and_eq_true, decide_eq_true_eq, Char.le_def,
      UInt32.le_iff_toNat_le] at hc h
    have hnine : '9'.val.toNat = 57 := rfl
    have hfirst : 'A'.val.toNat = 65 := rfl
    omega
  · exact absurd hc (by decide)

/-- A character that starts listed texts only. -/
def OnlyListed (c : Char) : Prop := isDigit c = false ∧ isAlpha c = false ∧ c ≠ '"'

theorem onlyListed_of_punctuator {c : Char} {kind : Kind} (h : Kind.punctuator? c = some kind) :
    OnlyListed c := by
  have hall : ∀ p ∈ punctuators, isDigit p.1 = false ∧ isAlpha p.1 = false ∧ p.1 ≠ '"' := by
    decide
  exact hall _ (mem_punctuators.mpr h)

theorem onlyListed_of_operator {c : Char} {pair : Kind × Kind} (h : Kind.operator? c = some pair) :
    OnlyListed c ∧ Kind.punctuator? c = none := by
  unfold Kind.operator? at h
  split at h <;> cases h <;> exact ⟨⟨by decide, by decide, by decide⟩, rfl⟩

theorem not_listed {c : Char} (hc : ¬ OnlyListed c) :
    Kind.punctuator? c = none ∧ Kind.operator? c = none := by
  constructor
  · cases h : Kind.punctuator? c with
    | none => rfl
    | some kind => exact absurd (onlyListed_of_punctuator h) hc
  · cases h : Kind.operator? c with
    | none => rfl
    | some pair => exact absurd (onlyListed_of_operator h).1 hc

/-- The texts of the operators are one character from the other table, and perhaps an equals
sign. -/
theorem mem_operators {c : Char} {rest : List Char} {kind : Kind} :
    (c :: rest, kind) ∈ operators ↔ ∃ alone extended, Kind.operator? c = some (alone, extended) ∧
      (rest = [] ∧ kind = alone ∨ rest = ['='] ∧ kind = extended) := by
  constructor
  · intro h
    simp only [operators, List.mem_cons, Prod.mk.injEq, List.cons.injEq, List.not_mem_nil,
      or_false] at h
    rcases h with h | h | h | h | h | h | h | h <;> obtain ⟨⟨rfl, rfl⟩, rfl⟩ := h
    all_goals exact ⟨_, _, rfl, by decide⟩
  · rintro ⟨alone, extended, hop, hrest⟩
    unfold Kind.operator? at hop
    split at hop <;> cases hop <;> rcases hrest with ⟨rfl, rfl⟩ | ⟨rfl, rfl⟩ <;> decide

theorem isDigit_of_isNumber {c : Char} {rest : List Char} (h : IsNumber (c :: rest)) :
    isDigit c = true := by
  rcases h with h | ⟨whole, fraction, heq, hwhole, -⟩
  · exact h.2 c List.mem_cons_self
  · cases whole with
    | nil => exact absurd rfl hwhole.1
    | cons d whole =>
      obtain rfl : c = d := (List.cons.inj heq).1
      exact hwhole.2 c List.mem_cons_self

theorem not_rule_nil {kind : Kind} : ¬ Rule kind [] := by
  intro h
  cases h with
  | operator h => exact absurd h (by simp [operators])
  | word hword _ => exact hword
  | number hnumber =>
    rcases hnumber with h | ⟨whole, fraction, heq, -, -⟩
    · exact h.1 rfl
    · cases whole <;> cases heq

theorem exists_cons_of_isNumber {text : List Char} (h : IsNumber text) :
    ∃ d tail, text = d :: tail ∧ d.isDigit = true := by
  cases text with
  | nil => exact absurd (Rule.number h) not_rule_nil
  | cons d tail => exact ⟨d, tail, rfl, isDigit_of_isNumber h⟩

/-- What the rules ask of a text that starts with `c`: there is one rule to look at. -/
def RuleAt (kind : Kind) (c : Char) (rest : List Char) : Prop :=
  match Kind.punctuator? c, Kind.operator? c with
  | some other, _ => kind = other ∧ rest = []
  | none, some (alone, extended) => rest = [] ∧ kind = alone ∨ rest = ['='] ∧ kind = extended
  | none, none =>
    if c = '"' then kind = .string ∧ ∃ body, rest = body ++ ['"'] ∧ '"' ∉ body
    else if isDigit c then kind = .number ∧ IsNumber (c :: rest)
    else if isAlpha c then IsWordKind (c :: rest) kind ∧ IsWord (c :: rest)
    else False

section Head

variable {c : Char} {rest : List Char} {kind other : Kind}

theorem ruleAt_of_isDigit (hc : isDigit c = true) :
    RuleAt kind c rest ↔ kind = .number ∧ IsNumber (c :: rest) := by
  have hlisted : ¬ OnlyListed c := by
    intro h
    simp [h.1] at hc
  have hquote : c ≠ '"' := by
    rintro rfl
    exact absurd hc (by decide)
  rw [RuleAt, (not_listed hlisted).1, (not_listed hlisted).2]
  dsimp only
  rw [if_neg hquote, if_pos hc]

theorem ruleAt_of_isAlpha (hc : isAlpha c = true) :
    RuleAt kind c rest ↔ IsWordKind (c :: rest) kind ∧ IsWord (c :: rest) := by
  have hlisted : ¬ OnlyListed c := by
    intro h
    simp [h.2.1] at hc
  have hdigit : ¬ isDigit c = true := by
    intro h
    simp [not_isAlpha_of_isDigit h] at hc
  have hquote : c ≠ '"' := by
    rintro rfl
    exact absurd hc (by decide)
  rw [RuleAt, (not_listed hlisted).1, (not_listed hlisted).2]
  dsimp only
  rw [if_neg hquote, if_neg hdigit, if_pos hc]

/-- **The first character decides the rule.** -/
theorem Rule.ruleAt (h : Rule kind (c :: rest)) : RuleAt kind c rest := by
  cases h with
  | punctuator hmem =>
    rw [RuleAt, mem_punctuators.mp hmem]
    exact ⟨rfl, rfl⟩
  | operator hmem =>
    obtain ⟨alone, extended, hop, hrest⟩ := mem_operators.mp hmem
    rw [RuleAt, (onlyListed_of_operator hop).2, hop]
    exact hrest
  | word hword hkind => exact (ruleAt_of_isAlpha (isAlpha_iff.mpr hword.1)).mpr ⟨hkind, hword⟩
  | number hnumber => exact (ruleAt_of_isDigit (isDigit_of_isNumber hnumber)).mpr ⟨rfl, hnumber⟩
  | string hbody => exact ⟨rfl, _, rfl, hbody⟩

theorem Rule.of_punctuator (hc : Kind.punctuator? c = some other) (h : Rule kind (c :: rest)) :
    rest = [] := by
  have h := h.ruleAt
  rw [RuleAt, hc] at h
  exact h.2

theorem Rule.of_operator {alone extended : Kind} (hc : Kind.operator? c = some (alone, extended))
    (h : Rule kind (c :: rest)) : rest = [] ∨ rest = ['='] := by
  have h := h.ruleAt
  rw [RuleAt, (onlyListed_of_operator hc).2, hc] at h
  exact h.imp And.left And.left

theorem Rule.of_quote (h : Rule kind ('"' :: rest)) : ∃ body, rest = body ++ ['"'] ∧ '"' ∉ body :=
  h.ruleAt.2

theorem Rule.of_isDigit (hc : isDigit c = true) (h : Rule kind (c :: rest)) :
    IsNumber (c :: rest) :=
  ((ruleAt_of_isDigit hc).mp h.ruleAt).2

theorem Rule.of_isAlpha (hc : isAlpha c = true) (h : Rule kind (c :: rest)) :
    IsWord (c :: rest) :=
  ((ruleAt_of_isAlpha hc).mp h.ruleAt).2

theorem not_rule_cons (hp : Kind.punctuator? c = none) (ho : Kind.operator? c = none)
    (hquote : c ≠ '"') (hdigit : ¬ isDigit c = true) (halpha : ¬ isAlpha c = true) :
    ¬ Rule kind (c :: rest) := by
  intro h
  have h := h.ruleAt
  rw [RuleAt, hp, ho] at h
  dsimp only at h
  rwa [if_neg hquote, if_neg hdigit, if_neg halpha] at h

theorem IsWordKind.unique {text : List Char} (h : IsWordKind text kind)
    (h' : IsWordKind text other) : kind = other := by
  have htable : ∀ p ∈ keywords, ∀ q ∈ keywords, p.1 = q.1 → p.2 = q.2 := by decide
  rcases h with h | ⟨rfl, hnone⟩
  · rcases h' with h' | ⟨-, hnone⟩
    · exact htable _ h _ h' rfl
    · exact absurd h (hnone kind)
  · rcases h' with h' | ⟨rfl, -⟩
    · exact absurd h' (hnone other)
    · rfl

/-- **The rules are unambiguous**: a text is a token of one kind at most. -/
theorem Rule.kind_unique {text : List Char} (h : Rule kind text) (h' : Rule other text) :
    kind = other := by
  cases text with
  | nil => exact absurd h not_rule_nil
  | cons c rest =>
    have h' := h'.ruleAt
    cases h with
    | punctuator hmem =>
      rw [RuleAt, mem_punctuators.mp hmem] at h'
      exact h'.1.symm
    | operator hmem =>
      obtain ⟨alone, extended, hop, hrest⟩ := mem_operators.mp hmem
      rw [RuleAt, (onlyListed_of_operator hop).2, hop] at h'
      -- The two forms of an operator differ in what follows its first character.
      rcases hrest with ⟨rfl, rfl⟩ | ⟨rfl, rfl⟩
      · rcases h' with ⟨-, rfl⟩ | ⟨hrest, -⟩
        · rfl
        · cases hrest
      · rcases h' with ⟨hrest, -⟩ | ⟨-, rfl⟩
        · cases hrest
        · rfl
    | word hword hkind =>
      exact hkind.unique ((ruleAt_of_isAlpha (isAlpha_iff.mpr hword.1)).mp h').1
    | number hnumber =>
      exact ((ruleAt_of_isDigit (isDigit_of_isNumber hnumber)).mp h').1.symm
    | string => exact h'.1.symm

end Head

/-! ## Line breaks -/

theorem isDigit_or_point_of_mem {c : Char} {text : List Char} (h : IsNumber text) (hc : c ∈ text) :
    c.isDigit = true ∨ c = '.' := by
  rcases h with hdigits | ⟨whole, fraction, rfl, hwhole, hfraction⟩
  · exact Or.inl (hdigits.2 c hc)
  · rcases List.mem_append.mp hc with hc | hc
    · exact Or.inl (hwhole.2 c hc)
    · rcases List.mem_cons.mp hc with rfl | hc
      · exact Or.inr rfl
      · exact Or.inl (hfraction.2 c hc)

/-- Only a string goes over the end of a line. -/
theorem Rule.not_mem_break {kind : Kind} {c : Char} {rest : List Char} (h : Rule kind (c :: rest))
    (hquote : c ≠ '"') : '\n' ∉ c :: rest := by
  have hpunctuators : ∀ p ∈ punctuators, '\n' ≠ p.1 := by decide
  have hoperators : ∀ p ∈ operators, '\n' ∉ p.1 := by decide
  intro hmem
  cases h with
  | punctuator htable => exact hpunctuators _ htable (List.mem_singleton.mp hmem)
  | operator htable => exact hoperators _ htable hmem
  | word hword _ =>
    rcases List.mem_cons.mp hmem with rfl | hmem
    · exact absurd hword.1 (by decide)
    · exact absurd (hword.2 _ hmem) (by decide)
  | number hnumber => exact absurd (isDigit_or_point_of_mem hnumber hmem) (by decide)
  | string => exact hquote rfl

/-! ## Kinds whose tokens have no value -/

def Valueless (kind : Kind) : Prop := kind ≠ .string ∧ kind ≠ .number

theorem valueless_of_punctuator {c : Char} {kind : Kind} (h : (c, kind) ∈ punctuators) :
    Valueless kind := by
  have hall : ∀ p ∈ punctuators, p.2 ≠ .string ∧ p.2 ≠ .number := by decide
  exact hall _ h

theorem valueless_of_operator {text : List Char} {kind : Kind} (h : (text, kind) ∈ operators) :
    Valueless kind := by
  have hall : ∀ p ∈ operators, p.2 ≠ .string ∧ p.2 ≠ .number := by decide
  exact hall _ h

theorem IsWordKind.valueless {text : List Char} {kind : Kind} (h : IsWordKind text kind) :
    Valueless kind := by
  have hall : ∀ p ∈ keywords, p.2 ≠ .string ∧ p.2 ≠ .number := by decide
  rcases h with hmem | ⟨rfl, -⟩
  · exact hall _ hmem
  · exact ⟨by decide, by decide⟩

theorem Rule.isNumber {text : List Char} (h : Rule .number text) : IsNumber text := by
  cases h with
  | punctuator hmem => exact absurd rfl (valueless_of_punctuator hmem).2
  | operator hmem => exact absurd rfl (valueless_of_operator hmem).2
  | word _ hkind => exact absurd rfl hkind.valueless.2
  | number hnumber => exact hnumber

theorem Rule.kind_ne_endOfSource {kind : Kind} {text : List Char} (h : Rule kind text) :
    kind ≠ .endOfSource := by
  have hpunctuators : ∀ p ∈ punctuators, p.2 ≠ .endOfSource := by decide
  have hoperators : ∀ p ∈ operators, p.2 ≠ .endOfSource := by decide
  have hkeywords : ∀ p ∈ keywords, p.2 ≠ .endOfSource := by decide
  cases h with
  | punctuator hmem => exact hpunctuators _ hmem
  | operator hmem => exact hoperators _ hmem
  | word _ hkind =>
    rcases hkind with hmem | ⟨rfl, -⟩
    · exact hkeywords _ hmem
    · decide
  | number => decide
  | string => decide

end Lexical
