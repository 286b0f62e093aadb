import Lexical.Proofs.Text.Line
import Lexical.Proofs.Text.Run

/-!
# Line ends of two characters

A text may come with a carriage return in front of each line break. `crlf` is that text, made
from the one without. A line break that has a carriage return already gets another one, so that
nothing is asked of the text.

What is read "as long as a test holds" is the same in both forms, if the test makes no difference
between the two characters (`takeWhile_crlf`). Lines are counted by their breaks, so no line
changes its number (`lineAt_crlf`), and an offset moves by one byte for each line break before it
(`crlfOffset_width`).
-/

set_option autoImplicit false

namespace Lexical
namespace Text

open Cursor

/-- The text with a carriage return in front of each line break. -/
def crlf (text : List Char) : List Char :=
  text.flatMap fun c => if c = '\n' then ['\r', '\n'] else [c]

def withCrlf (s : String) : String := String.ofList (crlf s.toList)

/-- The line breaks in the bytes before an offset. -/
def breaksBefore (source : String) (offset : Nat) : Nat :=
  ((bytes source).take offset).count 0x0a

/-- Where an offset of a source is after `withCrlf`. -/
def crlfOffset (source : String) (offset : Nat) : Nat := offset + breaksBefore source offset

section Characters

variable {c : Char} {text rest : List Char} {test : Char → Bool}

@[simp] theorem crlf_nil : crlf [] = [] := rfl

@[simp] theorem crlf_break (rest : List Char) : crlf ('\n' :: rest) = '\r' :: '\n' :: crlf rest :=
  rfl

theorem crlf_cons (hc : c ≠ '\n') (rest : List Char) : crlf (c :: rest) = c :: crlf rest := by
  simp [crlf, hc]

@[simp] theorem crlf_append (a b : List Char) : crlf (a ++ b) = crlf a ++ crlf b :=
  List.flatMap_append

theorem crlf_of_not_mem (h : '\n' ∉ text) : crlf text = text := by
  induction text with
  | nil => rfl
  | cons c rest ih =>
    simp only [List.mem_cons, not_or] at h
    rw [crlf_cons (Ne.symm h.1), ih h.2]

/-- A text in the longer form starts as the text does, unless it starts with a carriage return. -/
theorem exists_of_crlf_eq_cons {more : List Char} (hc : c ≠ '\r') (h : crlf text = c :: more) :
    ∃ rest, text = c :: rest ∧ more = crlf rest := by
  cases text with
  | nil => cases h
  | cons d rest =>
    by_cases hd : d = '\n'
    · subst hd
      exact absurd (List.cons.inj h).1.symm hc
    · rw [crlf_cons hd] at h
      obtain ⟨rfl, rfl⟩ := List.cons.inj h
      exact ⟨rest, rfl, rfl⟩

theorem count_crlf (text : List Char) : (crlf text).count '\n' = text.count '\n' := by
  induction text with
  | nil => rfl
  | cons c rest ih =>
    by_cases hc : c = '\n'
    · subst hc
      simp [ih]
    · rw [crlf_cons hc, List.count_cons, List.count_cons, ih]

theorem width_crlf (text : List Char) : width (crlf text) = width text + text.count '\n' := by
  induction text with
  | nil => rfl
  | cons c rest ih =>
    by_cases hc : c = '\n'
    · subst hc
      have hreturn : '\r'.utf8Size = 1 := rfl
      simp [ih, hreturn]
      omega
    · simp only [crlf_cons hc, width_cons, ih, List.count_cons_of_ne hc]
      omega

theorem lineAt_crlf (text : List Char) : lineAt (crlf text) = lineAt text := by
  rw [lineAt, count_crlf, lineAt]

theorem linesFit_crlf (h : LinesFit text) : LinesFit (crlf text) := by
  rwa [LinesFit, count_crlf]

/-- A test that makes no difference between the two characters holds as long in both forms. -/
theorem takeWhile_crlf (htest : test '\r' = test '\n') (text : List Char) :
    (crlf text).takeWhile test = crlf (text.takeWhile test) := by
  induction text with
  | nil => rfl
  | cons c rest ih =>
    by_cases hc : c = '\n'
    · subst hc
      cases hbreak : test '\n' with
      | true => simp [hbreak, htest, ih]
      | false => simp [hbreak, htest]
    · rw [crlf_cons hc]
      cases hpass : test c with
      | true => simp [hpass, ih, crlf_cons hc]
      | false => simp [hpass]

theorem dropWhile_crlf (htest : test '\r' = test '\n') (text : List Char) :
    (crlf text).dropWhile test = crlf (text.dropWhile test) := by
  have hsplit := List.takeWhile_append_dropWhile (p := test) (l := crlf text)
  have hparts : crlf (text.takeWhile test) ++ crlf (text.dropWhile test) = crlf text := by
    rw [← crlf_append, List.takeWhile_append_dropWhile]
  rw [takeWhile_crlf htest] at hsplit
  exact List.append_cancel_left (hsplit.trans hparts.symm)

theorem crlf_takeWhile (hbreak : test '\n' = false) (text : List Char) :
    crlf (text.takeWhile test) = text.takeWhile test := by
  apply crlf_of_not_mem
  intro hmem
  rw [of_mem_takeWhile hmem] at hbreak
  cases hbreak

end Characters

theorem breaksBefore_width (before after : List Char) :
    breaksBefore (String.ofList (before ++ after)) (width before) = before.count '\n' :=
  Nat.add_left_cancel (lineOf_width before after)

theorem crlfOffset_width (before after : List Char) :
    crlfOffset (String.ofList (before ++ after)) (width before) = width (crlf before) := by
  rw [crlfOffset, breaksBefore_width, width_crlf]

end Text
end Lexical
