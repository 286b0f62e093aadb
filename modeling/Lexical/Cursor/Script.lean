import Lexical.Cursor.Basic

/-!
# Scripts of cursor operations

The operations on a cursor as data, so that a statement can be about every sequence of them.
Besides the cursor there is one bookmark: saving copies the cursor to it, restoring copies it
back. The tests that decide how far to read keep a state of the type `σ`.
-/

set_option autoImplicit false

namespace Lexical
namespace Cursor

inductive Op (σ : Type) where
  | peek (n : Nat)
  | advance
  | accept (expected : Char)
  | eatWith (test : σ → Char → Bool × σ) (state : σ)
  | sliceFrom (start : Nat)
  | remaining
  | source
  | save
  | restore

inductive Answer (σ : Type) where
  | done
  | char (c : Char)
  | bool (b : Bool)
  | text (s : String)
  | state (s : σ)
  | fault (f : Fault)

structure Bookmarked where
  cursor : Cursor
  bookmark : Cursor
  deriving DecidableEq

namespace Bookmarked

/-- A source opened at its start, with the bookmark there too. -/
def ofSource (source : String) : Bookmarked := ⟨.ofSource source, .ofSource source⟩

def moveTo (b : Bookmarked) (cursor : Cursor) : Bookmarked := { b with cursor }

/-- Performs one operation. What looks or cuts moves nothing, with a fault or without one. Where a
read leaves the cursor that runs out of line numbers is not modelled: it is given back as it was
before the read. -/
def perform {σ : Type} (b : Bookmarked) : Op σ → Answer σ × Bookmarked
  | .peek n =>
    match b.cursor.peek n with
    | .ok ch => (.char ch, b)
    | .error fault => (.fault fault, b)
  | .advance =>
    match b.cursor.advance with
    | .ok (ch, next) => (.char ch, b.moveTo next)
    | .error fault => (.fault fault, b)
  | .accept expected =>
    match b.cursor.accept expected with
    | .ok (found, next) => (.bool found, b.moveTo next)
    | .error fault => (.fault fault, b)
  | .eatWith test state =>
    match b.cursor.eatWith test state with
    | .ok (next, after) => (.state after, b.moveTo next)
    | .error fault => (.fault fault, b)
  | .sliceFrom start =>
    match b.cursor.sliceFrom start with
    | .ok text => (.text text, b)
    | .error fault => (.fault fault, b)
  | .remaining =>
    match b.cursor.remaining with
    | .ok text => (.text text, b)
    | .error fault => (.fault fault, b)
  | .source => (.text b.cursor.source, b)
  | .save => (.done, { b with bookmark := b.cursor })
  | .restore => (.done, { b with cursor := b.bookmark })

/-- Performs operations one after the other and gives what is reached. -/
def performAll {σ : Type} (b : Bookmarked) (script : List (Op σ)) : Bookmarked :=
  script.foldl (fun reached op => (reached.perform op).2) b

end Bookmarked
end Cursor
end Lexical
