import Lexical.Proofs.Diagnostic.Collecting
import Lexical.Proofs.Scan.Read
import Lexical.Scan.Basic

/-!
# A scan is the pieces of its source, one after the other

`placed` cuts a text into its pieces and remembers what stood before each. A scan with a handler
that collects does nothing else: it walks through that list and adds each piece to what it has
(`toEnd_cut`), so whatever is claimed of a scan's tokens, diagnostics, handler or log is a
statement about one list of pieces. For the plain entry point this is `tokenize_eq`, and it says
at the same time that scanning a source whose lines can be numbered never faults.
-/

set_option autoImplicit false

namespace Lexical

open Text Cursor

/-- A piece with everything that stands before it. -/
structure Placed where
  before : List Char
  piece : Piece

namespace Placed

def item (p : Placed) : Item := p.piece.item p.before

def span (p : Placed) : Span := .after p.before p.piece.text

/-- The line on which the piece ends, which is where an error is reported. -/
def endLine (p : Placed) : Nat := lineAt (p.before ++ p.piece.text)

def token? (p : Placed) : Option Token :=
  match p.item with
  | .token t => some t
  | _ => none

def diagnostic? (p : Placed) : Option Diagnostic :=
  match p.item with
  | .error e span => some (e.diagnostic span p.endLine)
  | _ => none

end Placed

/-- The pieces of `after` where it follows `before`. -/
def placed (before : List Char) : List Char → List Placed
  | [] => []
  | c :: rest =>
    ⟨before, (Piece.first c rest).1⟩ ::
      placed (before ++ (Piece.first c rest).1.text) (Piece.first c rest).2
termination_by after => after.length
decreasing_by exact Piece.length_first_lt c rest

theorem placed_nil (before : List Char) : placed before [] = [] := by
  rw [placed]

theorem placed_cons (before : List Char) (c : Char) (rest : List Char) :
    placed before (c :: rest) = ⟨before, (Piece.first c rest).1⟩ ::
      placed (before ++ (Piece.first c rest).1.text) (Piece.first c rest).2 := by
  rw [placed]

namespace Scan

/-! ## One turn of the loop -/

/-- One turn: the item at the cursor is taken and the scan goes on behind it, unless a fault
ends it there. -/
def turn (s : Scan) : Except Outcome Scan :=
  match Item.read s.cursor with
  | .error fault => .error (s.stop fault)
  | .ok (.blank, next) => .ok { s with cursor := next }
  | .ok (.token t, next) => .ok { s with cursor := next, tokens := s.tokens.push t }
  | .ok (.error e span, next) =>
    let noted := s.note e next.line
    match noted.handler.emit (e.diagnostic span next.line) with
    | .error fault => .error (noted.stop fault)
    | .ok handler => .ok { noted with cursor := next, handler, errors := s.errors + 1 }

/-- **A scan is its turns**, one after the other until the source ends. -/
theorem toEnd_of_turn {s : Scan} (hmore : s.cursor.isAtEnd = false) :
    s.toEnd = match s.turn with
      | .ok next => next.toEnd
      | .error outcome => outcome := by
  rw [toEnd, dif_neg (by simp [hmore]), turn]
  split
  · next fault h => rw [h]
  · next next h => rw [h]
  · next t next h => rw [h]
  · next e span next h =>
    rw [h]
    dsimp only
    cases (s.note e next.line).handler.emit (e.diagnostic span next.line) with
    | error fault => rfl
    | ok handler => rfl

/-- The scan after an item that ends on `line`, as far as it does not concern the cursor. -/
def add (s : Scan) (line : Nat) : Item → Scan
  | .blank => s
  | .token t => { s with tokens := s.tokens.push t }
  | .error e span =>
    { s.note e line with
      handler := s.handler.collect (e.diagnostic span line)
      errors := s.errors + 1 }

def moveTo (s : Scan) (cursor : Cursor) : Scan := { s with cursor }

theorem stopsAtError_add (s : Scan) (line : Nat) (item : Item) :
    (s.add line item).handler.stopsAtError = s.handler.stopsAtError := by
  cases item <;> rfl

/-- A turn for a handler that collects adds the item and moves behind it. -/
theorem turn_of_read {s : Scan} {item : Item} {next : Cursor}
    (hread : Item.read s.cursor = .ok (item, next)) (hcollects : s.handler.stopsAtError = false) :
    s.turn = .ok ((s.add next.line item).moveTo next) := by
  rw [turn, hread]
  cases item with
  | blank => rfl
  | token t => rfl
  | error e span =>
    have hcollects' : (s.note e next.line).handler.stopsAtError = false := hcollects
    dsimp only
    rw [Handler.emit_of_collects hcollects']
    rfl

theorem toEnd_of_read {s : Scan} {item : Item} {next : Cursor}
    (hmore : s.cursor.isAtEnd = false) (hread : Item.read s.cursor = .ok (item, next))
    (hcollects : s.handler.stopsAtError = false) :
    s.toEnd = ((s.add next.line item).moveTo next).toEnd := by
  rw [toEnd_of_turn hmore, turn_of_read hread hcollects]

theorem toEnd_of_isAtEnd {s : Scan} (hend : s.cursor.isAtEnd = true) : s.toEnd = s.finish := by
  rw [toEnd, dif_pos hend]

/-! ## One piece -/

def addPlaced (s : Scan) (p : Placed) : Scan := s.add p.endLine p.item

theorem moveTo_addPlaced (s : Scan) (p : Placed) (cursor : Cursor) :
    (s.moveTo cursor).addPlaced p = (s.addPlaced p).moveTo cursor := by
  unfold addPlaced
  cases p.item <;> rfl

theorem moveTo_foldl (ps : List Placed) (s : Scan) (cursor : Cursor) :
    ps.foldl addPlaced (s.moveTo cursor) = (ps.foldl addPlaced s).moveTo cursor := by
  induction ps generalizing s with
  | nil => rfl
  | cons p ps ih => rw [List.foldl_cons, moveTo_addPlaced, ih, List.foldl_cons]

theorem stopsAtError_addPlaced (s : Scan) (p : Placed) :
    (s.addPlaced p).handler.stopsAtError = s.handler.stopsAtError :=
  stopsAtError_add s p.endLine p.item

theorem tokens_addPlaced (s : Scan) (p : Placed) :
    (s.addPlaced p).tokens.toList = s.tokens.toList ++ p.token?.toList := by
  unfold addPlaced Placed.token?
  cases p.item <;> simp [add, note]

theorem handler_addPlaced (s : Scan) (p : Placed) :
    (s.addPlaced p).handler = s.handler.collectAll p.diagnostic?.toList := by
  unfold addPlaced Placed.diagnostic?
  cases p.item <;> rfl

/-! ## All of them -/

theorem toEnd_cut {s : Scan} {before after : List Char} (hcursor : s.cursor = cut before after)
    (hfit : LinesFit (before ++ after)) (hcollects : s.handler.stopsAtError = false) :
    s.toEnd =
      (((placed before after).foldl addPlaced s).moveTo (cut (before ++ after) [])).finish := by
  -- The induction is the one that `placed` is defined by: the scan behind a piece is again one
  -- that stands at a cut and collects.
  induction before, after using placed.induct generalizing s with
  | case1 before =>
    rw [placed_nil, List.append_nil, toEnd_of_isAtEnd (by simp [hcursor]), List.foldl_nil,
      ← hcursor]
    rfl
  | case2 before c rest ih =>
    have hread : Item.read s.cursor = .ok (Piece.place before (Piece.first c rest)) := by
      rw [hcursor, Item.read_cut hfit]
    have hmore : s.cursor.isAtEnd = false := by
      rw [hcursor]
      simp
    have hsplit : before ++ (Piece.first c rest).1.text ++ (Piece.first c rest).2 =
        before ++ c :: rest := by
      rw [List.append_assoc, Piece.first_append]
    have hstep := ih (s := (s.addPlaced ⟨before, (Piece.first c rest).1⟩).moveTo
      (cut (before ++ (Piece.first c rest).1.text) (Piece.first c rest).2)) rfl
      (by rwa [hsplit]) (by rw [← hcollects]; exact stopsAtError_addPlaced s _)
    rw [hsplit, moveTo_foldl] at hstep
    rw [toEnd_of_read hmore hread hcollects, placed_cons, List.foldl_cons]
    exact hstep

theorem tokens_foldl (ps : List Placed) (s : Scan) :
    (ps.foldl addPlaced s).tokens.toList = s.tokens.toList ++ ps.filterMap Placed.token? := by
  induction ps generalizing s with
  | nil => simp
  | cons p ps ih =>
    rw [List.foldl_cons, ih, tokens_addPlaced, List.append_assoc, List.filterMap_cons]
    cases p.token? <;> rfl

theorem handler_foldl (ps : List Placed) (s : Scan) :
    (ps.foldl addPlaced s).handler =
      s.handler.collectAll (ps.filterMap Placed.diagnostic?) := by
  induction ps generalizing s with
  | nil => rfl
  | cons p ps ih =>
    rw [List.foldl_cons, ih, handler_addPlaced, List.filterMap_cons]
    cases p.diagnostic? <;> rfl

/-! ## The whole source -/

section Run

variable {source : String} {h : Handler}

theorem run_eq (hfit : LinesFit source.toList) (hcollects : h.stopsAtError = false) :
    run source h = (((placed [] source.toList).foldl addPlaced (begin source h)).moveTo
      (cut source.toList [])).finish :=
  toEnd_cut (ofSource_eq_cut source) hfit hcollects

/-- The tokens do not depend on the handler, as long as it collects. -/
theorem result_run (hfit : LinesFit source.toList) (hcollects : h.stopsAtError = false) :
    (run source h).result = .ok ((placed [] source.toList).filterMap Placed.token? ++
      [.endOfSource source.utf8ByteSize (lineAt source.toList)]) := by
  have htokens := tokens_foldl (placed [] source.toList) (begin source h)
  rw [run_eq hfit hcollects, ← width_toList]
  simp only [finish, moveTo, cut_position, cut_line, Array.toList_push, htokens]
  rfl

/-- The handler gets the diagnostics of the source, whatever it holds before. -/
theorem handler_run (hfit : LinesFit source.toList) (hcollects : h.stopsAtError = false) :
    (run source h).handler =
      h.collectAll ((placed [] source.toList).filterMap Placed.diagnostic?) := by
  rw [run_eq hfit hcollects]
  exact handler_foldl (placed [] source.toList) (begin source h)

end Run

end Scan

/-- **Scanning a source gives the tokens and the diagnostics of its pieces**, and an end token
where the source ends. -/
theorem tokenize_eq {source : String} (hfit : LinesFit source.toList) :
    tokenize source = .ok
      { tokens := (placed [] source.toList).filterMap Placed.token? ++
          [.endOfSource source.utf8ByteSize (lineAt source.toList)]
        diagnostics := (placed [] source.toList).filterMap Placed.diagnostic? } := by
  unfold tokenize
  dsimp only
  rw [Scan.result_run hfit rfl, Scan.handler_run hfit rfl, Handler.diagnostics_collectAll]
  rfl

end Lexical
