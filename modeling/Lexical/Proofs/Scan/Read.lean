import Lexical.Proofs.Scan.Piece

/-!
# An item is the first piece, in its place

`Piece.first` is a function of the characters ahead. This file proves that the code computes it:
`read_cut` says which item `Item.read` answers with and where it leaves the cursor. Each rule has
its own equation, so a change to one rule changes one of them.

The equations answer with `.ok`, so they also settle that reading an item never faults: each
slice it cuts lies between two characters, the quotes it takes off are there, and the digits it
collects are a numeral (`exists_read?_number`).
-/

set_option autoImplicit false

namespace Lexical

open CharClass Text Cursor

/-- The span of the characters `text` where they follow `before`. -/
def Span.after (before text : List Char) : Span :=
  ⟨width before, width (before ++ text), lineAt before⟩

namespace Piece

/-- The item a piece is where it follows `before`. -/
def item (p : Piece) (before : List Char) : Item :=
  match p.content with
  | .blank => .blank
  | .token kind literal =>
    .token (.ofLexeme kind (String.ofList p.text) literal (.after before p.text))
  | .error e => .error e (.after before p.text)

/-- A piece in its place, with the cursor behind it. -/
def place (before : List Char) (taken : Piece × List Char) : Item × Cursor :=
  (taken.1.item before, cut (before ++ taken.1.text) taken.2)

end Piece

namespace Item

open Piece

variable {before rest : List Char} {c : Char}

theorem ok_bind {α β : Type} (a : α) (f : α → Except Fault β) : (Except.ok a >>= f) = f a := rfl

/-! ## Cutting out what was read -/

theorem spanTo_cut (before whole text after : List Char) :
    spanTo (cut before whole) (cut (before ++ text) after) = .ok (.after before text) := by
  have hle : width before ≤ width (before ++ text) := by simp
  unfold spanTo Span.between
  rw [cut_position, cut_position, cut_line, if_pos hle]
  rfl

theorem makeToken_cut (kind : Kind) (literal : Option Literal)
    (before whole text after : List Char) :
    makeToken kind literal (cut before whole) (cut (before ++ text) after) =
      .ok (place before (⟨.token kind literal, text⟩, after)) := by
  unfold makeToken
  rw [cut_position, sliceFrom_cut, spanTo_cut]
  rfl

theorem makeError_cut (e : Error) (before whole text after : List Char) :
    makeError e (cut before whole) (cut (before ++ text) after) =
      .ok (place before (⟨.error e, text⟩, after)) := by
  unfold makeError
  rw [spanTo_cut]
  rfl

/-! ## The rules, one by one -/

theorem readOperator_cut (hfit : LinesFit (before ++ c :: rest)) (alone extended : Kind) :
    readOperator alone extended (cut before (c :: rest)) (cut (before ++ [c]) rest) =
      .ok (place before (operator alone extended c rest)) := by
  unfold readOperator
  cases rest with
  | nil =>
    rw [accept_cut_nil]
    exact makeToken_cut alone none before [c] [c] []
  | cons d rest =>
    rw [accept_cut_cons hfit.move]
    by_cases hd : d = '='
    · subst hd
      rw [if_pos rfl, List.append_assoc]
      exact makeToken_cut extended none before _ [c, '='] rest
    · rw [if_neg hd]
      have hop : operator alone extended c (d :: rest) =
          (⟨.token alone none, [c]⟩, d :: rest) := by
        unfold operator
        split
        · next heq => exact absurd (List.cons.inj heq).1 hd
        · rfl
      rw [hop]
      exact makeToken_cut alone none before _ [c] (d :: rest)

theorem readComment_cut (hfit : LinesFit (before ++ c :: rest)) :
    readComment (cut (before ++ [c]) rest) = .ok (place before (comment c rest)) := by
  unfold readComment
  rw [eatWhile_cut hfit.move, List.append_assoc]
  rfl

theorem unquote_ofList (body : List Char) :
    unquote (String.ofList ('"' :: body ++ ['"'])) = .ok (String.ofList body) := by
  have hstart : width ['"'] = 1 := rfl
  have hstop : width (['"'] ++ body) = width ('"' :: body ++ ['"']) - 1 := by
    simp [hstart, show '"'.utf8Size = 1 from rfl]
    omega
  have hslice := slice?_width ['"'] body ['"']
  unfold unquote
  rw [utf8ByteSize_ofList, ← hstop, ← hstart]
  rw [List.singleton_append] at hslice ⊢
  rw [hslice]

theorem readString_cut (hfit : LinesFit (before ++ '"' :: rest)) :
    readString (cut before ('"' :: rest)) (cut (before ++ ['"']) rest) =
      .ok (place before (string '"' rest)) := by
  have hstops := stops_dropWhile (· ≠ '"') rest
  have hrest := List.takeWhile_append_dropWhile (p := (· ≠ '"')) (l := rest)
  unfold readString string
  rw [eatWhile_cut hfit.move, ok_bind, List.append_assoc]
  generalize rest.takeWhile (· ≠ '"') = body at hrest ⊢
  cases hd : rest.dropWhile (· ≠ '"') with
  | nil =>
    rw [isAtEnd_cut, if_pos List.isEmpty_nil]
    exact makeError_cut .unterminatedString before ('"' :: rest) ('"' :: body) []
  | cons quote after =>
    rw [hd] at hstops hrest
    obtain rfl : quote = '"' := by simpa using stops_cons.mp hstops
    have hfit' : LinesFit ((before ++ (['"'] ++ body)) ++ '"' :: after) := by
      rw [← hrest] at hfit
      simpa using hfit
    rw [isAtEnd_cut, if_neg (by simp), advance_cut hfit', ok_bind, List.append_assoc,
      cut_position]
    dsimp only
    rw [sliceFrom_cut, ok_bind]
    rw [show ['"'] ++ body ++ ['"'] = '"' :: body ++ ['"'] from rfl, unquote_ofList, ok_bind,
      makeToken_cut]

theorem skipFraction_cut (hfit : LinesFit (before ++ rest)) :
    skipFraction (cut before rest) =
      .ok (cut (before ++ (fraction rest).1) (fraction rest).2) := by
  unfold skipFraction
  rw [current_cut, ok_bind, peek_cut, ok_bind]
  fun_cases fraction rest
  case case1 d rest hd =>
    have hpoint : ('.' :: d :: rest).head?.getD endMark = '.' := rfl
    rw [if_pos hpoint, if_pos (by simpa using hd), advance_cut hfit, ok_bind]
    dsimp only
    rw [eatWhile_cut hfit.move, List.append_assoc]
    rfl
  case case2 d rest hd =>
    have hpoint : ('.' :: d :: rest).head?.getD endMark = '.' := rfl
    rw [if_pos hpoint, if_neg (by simpa using hd), List.append_nil]
    rfl
  case case3 hpoint =>
    -- Either no point stands here, or the text ends behind it and there is no second character.
    rw [List.append_nil]
    by_cases hdot : rest.head?.getD endMark = '.'
    · have hdigit : ¬ isDigit (rest[1]?.getD endMark) = true := by
        cases rest with
        | nil => exact absurd hdot (by decide)
        | cons point rest =>
          obtain rfl : point = '.' := hdot
          cases rest with
          | nil => decide
          | cons d more => exact absurd rfl (hpoint d more)
      rw [if_pos hdot, if_neg hdigit]
      rfl
    · rw [if_neg hdot]
      rfl

theorem readNumber_cut (hfit : LinesFit (before ++ c :: rest)) (hc : isDigit c = true) :
    readNumber (cut before (c :: rest)) (cut (before ++ [c]) rest) =
      .ok (place before (number c rest)) := by
  obtain ⟨d, hd⟩ := exists_read?_number hc rest
  have hfit' : LinesFit ((before ++ [c] ++ rest.takeWhile isDigit) ++ rest.dropWhile isDigit) := by
    rw [List.append_assoc, List.takeWhile_append_dropWhile]
    exact hfit.move
  have htext : (before ++ [c] ++ rest.takeWhile isDigit) ++
      (fraction (rest.dropWhile isDigit)).1 = before ++ (number c rest).1.text := by
    simp [number]
  have hvalue : numberValue (String.ofList (number c rest).1.text) = .ok (.nearest d) := by
    unfold numberValue
    rw [String.toList_ofList, hd]
  have hliteral : numberLiteral (number c rest).1.text = some (.number (.nearest d)) := by
    rw [numberLiteral, hd]
    rfl
  unfold readNumber
  rw [eatWhile_cut hfit.move, ok_bind, skipFraction_cut hfit', ok_bind, htext, cut_position,
    sliceFrom_cut, ok_bind, hvalue, ok_bind, makeToken_cut, ← hliteral]
  rfl

theorem readWord_cut (hfit : LinesFit (before ++ c :: rest)) :
    readWord (cut before (c :: rest)) (cut (before ++ [c]) rest) =
      .ok (place before (word c rest)) := by
  unfold readWord
  rw [eatWhile_cut hfit.move, ok_bind, List.append_assoc, cut_position, sliceFrom_cut, ok_bind]
  exact makeToken_cut _ none before _ _ _

/-- **The item at a cursor is the first piece of the characters ahead.** -/
theorem read_cut (hfit : LinesFit (before ++ c :: rest)) :
    read (cut before (c :: rest)) = .ok (place before (first c rest)) := by
  unfold read
  rw [advance_cut hfit, ok_bind]
  -- The two definitions choose the rule by the same tests, so each test is decided once for both.
  show readAfter c (cut before (c :: rest)) (cut (before ++ [c]) rest) = _
  unfold readAfter first
  cases Kind.punctuator? c with
  | some kind => exact makeToken_cut kind none before _ [c] rest
  | none =>
    cases Kind.operator? c with
    | some pair => exact readOperator_cut hfit pair.1 pair.2
    | none =>
      dsimp only
      by_cases hcomment : c = '#'
      · rw [if_pos hcomment, if_pos hcomment, readComment_cut hfit]
      rw [if_neg hcomment, if_neg hcomment]
      by_cases hblank : isBlank c = true
      · rw [if_pos hblank, if_pos hblank]
        rfl
      rw [if_neg hblank, if_neg hblank]
      by_cases hquote : c = '"'
      · subst hquote
        rw [if_pos rfl, if_pos rfl, readString_cut hfit]
      rw [if_neg hquote, if_neg hquote]
      by_cases hdigit : isDigit c = true
      · rw [if_pos hdigit, if_pos hdigit, readNumber_cut hfit hdigit]
      rw [if_neg hdigit, if_neg hdigit]
      by_cases halpha : isAlpha c = true
      · rw [if_pos halpha, if_pos halpha, readWord_cut hfit]
      rw [if_neg halpha, if_neg halpha, makeError_cut]

end Item
end Lexical
