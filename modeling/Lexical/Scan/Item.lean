import Lexical.CharClass
import Lexical.Cursor.Basic
import Lexical.Number.Nearest
import Lexical.Scan.Error
import Lexical.Token.Basic

/-!
# The item at a place of the source

A source is a sequence of items: tokens, texts that are no token, and blanks, which are
whitespace characters and comments. `Item.read` takes the item at the cursor. Its first
character decides which rule applies, and the rule takes as much as it can, so an item is never
a part of a longer one.

Every rule looks at most two characters ahead, and only a number looks that far: its point
belongs to it if a digit follows the point.
-/

set_option autoImplicit false

namespace Lexical

open CharClass

/-- What stands at one place of a source. -/
inductive Item where
  /-- A whitespace character or a comment. -/
  | blank
  | token (token : Token)
  /-- Text that is no token. -/
  | error (error : Error) (span : Span)
  deriving DecidableEq

namespace Item

def spanTo (start next : Cursor) : Except Fault Span :=
  Span.between start.position next.position start.line

/-- The text from `start` to `next` as a token. -/
def makeToken (kind : Kind) (literal : Option Literal) (start next : Cursor) :
    Except Fault (Item × Cursor) := do
  let lexeme ← next.sliceFrom start.position
  let span ← spanTo start next
  return (.token (.ofLexeme kind lexeme literal span), next)

/-- The text from `start` to `next` as an error. -/
def makeError (e : Error) (start next : Cursor) : Except Fault (Item × Cursor) := do
  let span ← spanTo start next
  return (.error e span, next)

/-- An operator whose first character has been read: an equals sign extends it. -/
def readOperator (alone extended : Kind) (start next : Cursor) :
    Except Fault (Item × Cursor) := do
  let (found, next) ← next.accept '='
  makeToken (if found then extended else alone) none start next

/-- A comment whose first character has been read: it goes up to the end of the line and
leaves the line break. -/
def readComment (next : Cursor) : Except Fault (Item × Cursor) := do
  let next ← next.eatWhile (· ≠ '\n')
  return (.blank, next)

/-- The value of a string token: its text without the first and the last byte, which are its
quotes. -/
def unquote (lexeme : String) : Except Fault String :=
  match Text.slice? lexeme 1 (lexeme.utf8ByteSize - 1) with
  | some value => .ok value
  | none => .error .offBoundary

/-- A string whose opening quote has been read. There are no escapes: the next quote closes it,
and any other character, a line break too, belongs to its value. -/
def readString (start next : Cursor) : Except Fault (Item × Cursor) := do
  let next ← next.eatWhile (· ≠ '"')
  if next.isAtEnd then makeError .unterminatedString start next
  else
    let (_, next) ← next.advance
    let lexeme ← next.sliceFrom start.position
    let value ← unquote lexeme
    makeToken .string (some (.string value)) start next

def numberValue (lexeme : String) : Except Fault Binary64 :=
  match Decimal.read? lexeme.toList with
  | some d => .ok (.nearest d)
  | none => .error .unreadableNumeral

/-- Where the fraction of a number ends whose whole part ends at `next`: at `next` itself
unless a point and a digit stand there. -/
def skipFraction (next : Cursor) : Except Fault Cursor := do
  let point ← next.current
  if point = '.' then
    let digit ← next.peek 1
    if isDigit digit then
      let (_, next) ← next.advance
      next.eatWhile isDigit
    else return next
  else return next

/-- A number whose first digit has been read. -/
def readNumber (start next : Cursor) : Except Fault (Item × Cursor) := do
  let next ← next.eatWhile isDigit
  let next ← skipFraction next
  let lexeme ← next.sliceFrom start.position
  let value ← numberValue lexeme
  makeToken .number (some (.number value)) start next

/-- A word whose first character has been read. -/
def readWord (start next : Cursor) : Except Fault (Item × Cursor) := do
  let next ← next.eatWhile isAlphaNumeric
  let lexeme ← next.sliceFrom start.position
  makeToken (.ofWord lexeme) none start next

/-- The rest of an item that starts at `start` with the character `ch`, which has been read. -/
def readAfter (ch : Char) (start next : Cursor) : Except Fault (Item × Cursor) :=
  match Kind.punctuator? ch, Kind.operator? ch with
  | some kind, _ => makeToken kind none start next
  | none, some (alone, extended) => readOperator alone extended start next
  | none, none =>
    if ch = '#' then readComment next
    else if isBlank ch then .ok (.blank, next)
    else if ch = '"' then readString start next
    else if isDigit ch then readNumber start next
    else if isAlpha ch then readWord start next
    else makeError (.unexpectedCharacter ch) start next

def read (start : Cursor) : Except Fault (Item × Cursor) := do
  let (ch, next) ← start.advance
  readAfter ch start next

/-! ## An item is read forward

Its first character is read before a rule is chosen, and no rule goes back: each reads some more
characters. So an item is never empty, and a scan that takes one item after the other comes to the
end of its source. -/

theorem eq_of_makeToken {kind : Kind} {literal : Option Literal} {start next last : Cursor}
    {item : Item} (h : makeToken kind literal start next = .ok (item, last)) : last = next := by
  unfold makeToken at h
  obtain ⟨lexeme, -, h⟩ := Fault.bind_eq_ok_iff.1 h
  obtain ⟨span, -, h⟩ := Fault.bind_eq_ok_iff.1 h
  exact (congrArg Prod.snd (Fault.pure_eq_ok_iff.1 h)).symm

theorem eq_of_makeError {e : Error} {start next last : Cursor} {item : Item}
    (h : makeError e start next = .ok (item, last)) : last = next := by
  unfold makeError at h
  obtain ⟨span, -, h⟩ := Fault.bind_eq_ok_iff.1 h
  exact (congrArg Prod.snd (Fault.pure_eq_ok_iff.1 h)).symm

section Forward

open Cursor

theorem readOperator_readsTo {alone extended : Kind} {start next last : Cursor} {item : Item}
    (h : readOperator alone extended start next = .ok (item, last)) : ReadsTo next last := by
  unfold readOperator at h
  obtain ⟨⟨found, after⟩, ha, h⟩ := Fault.bind_eq_ok_iff.1 h
  rw [eq_of_makeToken h]
  exact accept_readsTo ha

theorem readComment_readsTo {next last : Cursor} {item : Item}
    (h : readComment next = .ok (item, last)) : ReadsTo next last := by
  unfold readComment at h
  obtain ⟨after, he, h⟩ := Fault.bind_eq_ok_iff.1 h
  obtain rfl : after = last := congrArg Prod.snd (Fault.pure_eq_ok_iff.1 h)
  exact eatWhile_readsTo he

theorem readString_readsTo {start next last : Cursor} {item : Item}
    (h : readString start next = .ok (item, last)) : ReadsTo next last := by
  unfold readString at h
  obtain ⟨body, he, h⟩ := Fault.bind_eq_ok_iff.1 h
  split at h
  · rw [eq_of_makeError h]
    exact eatWhile_readsTo he
  · obtain ⟨⟨quote, closed⟩, ha, h⟩ := Fault.bind_eq_ok_iff.1 h
    obtain ⟨lexeme, -, h⟩ := Fault.bind_eq_ok_iff.1 h
    obtain ⟨value, -, h⟩ := Fault.bind_eq_ok_iff.1 h
    rw [eq_of_makeToken h]
    exact (eatWhile_readsTo he).trans (advance_readsTo ha)

theorem skipFraction_readsTo {next last : Cursor} (h : skipFraction next = .ok last) :
    ReadsTo next last := by
  unfold skipFraction at h
  obtain ⟨point, -, h⟩ := Fault.bind_eq_ok_iff.1 h
  split at h
  · obtain ⟨digit, -, h⟩ := Fault.bind_eq_ok_iff.1 h
    split at h
    · obtain ⟨⟨_, after⟩, ha, h⟩ := Fault.bind_eq_ok_iff.1 h
      exact (advance_readsTo ha).trans (eatWhile_readsTo h)
    · exact Fault.pure_eq_ok_iff.1 h ▸ .here
  · exact Fault.pure_eq_ok_iff.1 h ▸ .here

theorem readNumber_readsTo {start next last : Cursor} {item : Item}
    (h : readNumber start next = .ok (item, last)) : ReadsTo next last := by
  unfold readNumber at h
  obtain ⟨whole, he, h⟩ := Fault.bind_eq_ok_iff.1 h
  obtain ⟨number, hf, h⟩ := Fault.bind_eq_ok_iff.1 h
  obtain ⟨lexeme, -, h⟩ := Fault.bind_eq_ok_iff.1 h
  obtain ⟨value, -, h⟩ := Fault.bind_eq_ok_iff.1 h
  rw [eq_of_makeToken h]
  exact (eatWhile_readsTo he).trans (skipFraction_readsTo hf)

theorem readWord_readsTo {start next last : Cursor} {item : Item}
    (h : readWord start next = .ok (item, last)) : ReadsTo next last := by
  unfold readWord at h
  obtain ⟨word, he, h⟩ := Fault.bind_eq_ok_iff.1 h
  obtain ⟨lexeme, -, h⟩ := Fault.bind_eq_ok_iff.1 h
  rw [eq_of_makeToken h]
  exact eatWhile_readsTo he

theorem readAfter_readsTo {ch : Char} {start next last : Cursor} {item : Item}
    (h : readAfter ch start next = .ok (item, last)) : ReadsTo next last := by
  unfold readAfter at h
  split at h
  · exact eq_of_makeToken h ▸ .here
  · exact readOperator_readsTo h
  · split at h
    · exact readComment_readsTo h
    split at h
    · cases h
      exact .here
    split at h
    · exact readString_readsTo h
    split at h
    · exact readNumber_readsTo h
    split at h
    · exact readWord_readsTo h
    · exact eq_of_makeError h ▸ .here

/-- **An item is read forward**, one character after the other. -/
theorem read_readsTo {start last : Cursor} {item : Item} (h : read start = .ok (item, last)) :
    ReadsTo start last := by
  unfold read at h
  obtain ⟨⟨ch, next⟩, ha, h⟩ := Fault.bind_eq_ok_iff.1 h
  exact (advance_readsTo ha).trans (readAfter_readsTo h)

theorem read_unread_lt {start last : Cursor} {item : Item} (hend : start.isAtEnd = false)
    (h : read start = .ok (item, last)) : last.unread < start.unread := by
  unfold read at h
  obtain ⟨⟨ch, next⟩, ha, h⟩ := Fault.bind_eq_ok_iff.1 h
  exact Nat.lt_of_le_of_lt (readAfter_readsTo h).unread_le (advance_unread_lt hend ha)

end Forward

end Item
end Lexical
