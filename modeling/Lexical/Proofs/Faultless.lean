import Lexical.Proofs.Cursor.Reading
import Lexical.Proofs.Grammar.Literal

/-!
# A scan comes to its end without a fault

The operations that a scan is made of are partial: a text is cut only between two characters, a
span may not end before it starts, quotes can be taken off only where there are two, a numeral
has to be one, and lines run out of numbers. Each of them answers with a fault when it is asked
for what it cannot do, and a fault ends the scan. This file proves that none of them is asked
that, for any source whose lines can be numbered.

The loop is taken turn by turn. `Turns` counts the turns from the beginning of a scan, and
`Underway` is what holds after each of them: the cursor is a cut of the source, behind at least as
many characters as there were turns. So the scan has a last turn, and while it goes on everything
it does is in range (`Item.InRange`).
-/

set_option autoImplicit false

namespace Lexical

open Text Cursor

/-! ## One item -/

/-- The two quotes of a string token are there to be taken off, and its value is what is left. -/
def Token.Unquotes (t : Token) : Prop :=
  2 ≤ t.lexeme.utf8ByteSize ∧ isBoundary t.lexeme 1 = true ∧
    isBoundary t.lexeme (t.lexeme.utf8ByteSize - 1) = true ∧
    ∃ value, Item.unquote t.lexeme = .ok value ∧ t.literal = some (.string value)

/-- The text of a number token is a numeral, and its value is the value of the numeral. -/
def Token.Evaluates (t : Token) : Prop :=
  ∃ value, Item.numberValue t.lexeme = .ok value ∧ t.literal = some (.number value)

/-- What holds of the cursors and the item while the item is read. The cursor gets to `next` by
reading characters, and wherever it gets to, it is in place. -/
structure Item.InRange (source : String) (start next : Cursor) (item : Item) : Prop where
  forward : start.position < next.position
  boundary : isBoundary source next.position = true
  within : next.position ≤ source.utf8ByteSize
  reached : ReadsTo start next
  places : ∀ c, ReadsTo start c → InPlace source start c
  span : ∃ span, Item.spanTo start next = .ok span
  string : ∀ t, item = .token t → t.kind = .string → t.Unquotes
  number : ∀ t, item = .token t → t.kind = .number → t.Evaluates

namespace Piece

variable {before rest : List Char} {c : Char} {t : Token}

theorem token_of_item {p : Piece} (h : p.item before = .token t) :
    p.content = .token t.kind t.literal ∧ t.lexeme = String.ofList p.text := by
  unfold item at h
  cases hcontent : p.content with
  | blank => simp [hcontent] at h
  | error e => simp [hcontent] at h
  | token kind literal =>
    simp only [hcontent, Item.token.injEq] at h
    subst h
    exact ⟨rfl, rfl⟩

theorem unquotes_first (h : (first c rest).1.item before = .token t) (hkind : t.kind = .string) :
    t.Unquotes := by
  obtain ⟨hcontent, hlexeme⟩ := token_of_item h
  have hcorrect := correct_first c rest
  rw [Correct, hcontent, hkind] at hcorrect
  obtain ⟨body, htext, hliteral⟩ := hcorrect.2
  have hsize : t.lexeme.utf8ByteSize = width body + 2 := by
    rw [hlexeme, htext, utf8ByteSize_ofList]
    simp [show '"'.utf8Size = 1 from rfl]
    omega
  have hopening := isBoundary_width ['"'] (body ++ ['"'])
  have hclosing := isBoundary_width ('"' :: body) ['"']
  have hbehind : width ('"' :: body) = t.lexeme.utf8ByteSize - 1 := by
    rw [hsize, width_cons, show '"'.utf8Size = 1 from rfl]
    omega
  rw [hbehind, ← htext, ← hlexeme] at hclosing
  rw [List.singleton_append, ← List.cons_append, ← htext, ← hlexeme] at hopening
  refine ⟨by omega, hopening, hclosing, String.ofList body, ?_, hliteral⟩
  rw [hlexeme, htext, Item.unquote_ofList]

theorem evaluates_first (h : (first c rest).1.item before = .token t)
    (hkind : t.kind = .number) : t.Evaluates := by
  obtain ⟨hcontent, hlexeme⟩ := token_of_item h
  have hcorrect := correct_first c rest
  rw [Correct, hcontent, hkind] at hcorrect
  obtain ⟨value, hvalue⟩ := hcorrect.2
  have hliteral := literal_first hcontent
  rw [hkind, hvalue] at hliteral
  obtain ⟨d, hread, hd⟩ := Option.map_eq_some_iff.mp hliteral.symm
  obtain rfl : .nearest d = value := by simpa using hd
  refine ⟨.nearest d, ?_, hvalue⟩
  rw [Item.numberValue, hlexeme, String.toList_ofList, hread]

end Piece

theorem inRange_first {before rest : List Char} {c : Char}
    (hfit : LinesFit (before ++ c :: rest)) :
    Item.InRange (String.ofList (before ++ c :: rest)) (cut before (c :: rest))
      (cut (before ++ (Piece.first c rest).1.text) (Piece.first c rest).2)
      ((Piece.first c rest).1.item before) := by
  have hsplit := Piece.first_append c rest
  have hne := Piece.first_text_ne_nil c rest
  constructor
  case forward =>
    have hpos := width_pos hne
    simp only [cut_position, width_append]
    omega
  case boundary =>
    rw [← hsplit, ← List.append_assoc]
    exact isBoundary_width _ _
  case within =>
    rw [← hsplit, ← List.append_assoc, utf8ByteSize_ofList, cut_position]
    simp only [width_append]
    omega
  case reached =>
    rw [← hsplit] at hfit
    have hreads := readsTo_cut hfit
    rwa [hsplit] at hreads
  case places => exact fun d hd => hd.inPlace hfit
  case span => exact ⟨_, Item.spanTo_cut before _ _ _⟩
  case string => exact fun t ht hkind => Piece.unquotes_first ht hkind
  case number => exact fun t ht hkind => Piece.evaluates_first ht hkind

/-! ## Turn by turn -/

namespace Scan

/-- So many turns of the loop lead from one scan to another. -/
inductive Turns (start : Scan) : Nat → Scan → Prop
  | none : Turns start 0 start
  | more {n : Nat} {s next : Scan} : Turns start n s → s.cursor.isAtEnd = false →
      s.turn = .ok next → Turns start (n + 1) next

/-- A scan of a source after `n` turns, for a handler that collects. -/
def Underway (source : List Char) (n : Nat) (s : Scan) : Prop :=
  ∃ before after, s.cursor = cut before after ∧ before ++ after = source ∧ n ≤ before.length ∧
    s.handler.stopsAtError = false

section Turns

variable {source : List Char} {start s : Scan} {n : Nat}

/-- **One turn more**: it is taken, everything in it is in range, and the scan stays under way. -/
theorem Underway.turn (h : Underway source n s) (hfit : LinesFit source)
    (hmore : s.cursor.isAtEnd = false) :
    ∃ item next, Item.read s.cursor = .ok (item, next) ∧
      Item.InRange (String.ofList source) s.cursor next item ∧
      s.turn = .ok ((s.add next.line item).moveTo next) ∧
      Underway source (n + 1) ((s.add next.line item).moveTo next) := by
  obtain ⟨before, after, hcursor, rfl, hn, hcollects⟩ := h
  rw [hcursor] at hmore ⊢
  cases after with
  | nil => simp at hmore
  | cons c rest =>
    have hread : Item.read s.cursor = .ok (Piece.place before (Piece.first c rest)) := by
      rw [hcursor, Item.read_cut hfit]
    have hpos := List.length_pos_iff.mpr (Piece.first_text_ne_nil c rest)
    refine ⟨_, _, Item.read_cut hfit, inRange_first hfit, turn_of_read hread hcollects, _, _, rfl,
      ?_, ?_, ?_⟩
    · rw [List.append_assoc, Piece.first_append]
    · rw [List.length_append]
      omega
    · rw [← hcollects]
      exact stopsAtError_add s _ _

theorem Turns.underway (h : Turns start n s) (hfit : LinesFit source)
    (hstart : Underway source 0 start) : Underway source n s := by
  induction h with
  | none => exact hstart
  | more _ hmore hturn ih =>
    obtain ⟨item, next, -, -, htaken, hnext⟩ := ih.turn hfit hmore
    rw [htaken] at hturn
    cases hturn
    exact hnext

theorem Turns.toEnd_eq (h : Turns start n s) : start.toEnd = s.toEnd := by
  induction h with
  | none => rfl
  | more _ hmore hturn ih => rw [ih, toEnd_of_turn hmore, hturn]

/-- Each turn leaves less unread, so there is a last one. -/
theorem exists_last {source : List Char} {start s : Scan} {n : Nat} (h : Turns start n s)
    (hfit : LinesFit source) (hstart : Underway source 0 start) :
    ∃ m last, Turns start m last ∧ last.cursor.isAtEnd = true := by
  cases hend : s.cursor.isAtEnd with
  | true => exact ⟨n, s, h, hend⟩
  | false =>
    obtain ⟨item, next, hread, -, hturn, -⟩ := (h.underway hfit hstart).turn hfit hend
    have hshorter : next.unread < s.cursor.unread := Item.read_unread_lt hend hread
    exact exists_last (.more h hend hturn) hfit hstart
termination_by s.cursor.unread
decreasing_by exact hshorter

end Turns

/-! ## The whole source -/

/-- A scan ends after at most as many turns as its source has characters, and everything in every
turn is in range. -/
structure Faultless (source : String) (h : Handler) : Prop where
  returns : ∃ tokens, (run source h).result = .ok tokens
  ends : ∃ n last, Turns (begin source h) n last ∧ last.cursor.isAtEnd = true ∧
    run source h = last.finish
  bounded : ∀ n s, Turns (begin source h) n s → n ≤ source.length
  turns : ∀ n s, Turns (begin source h) n s → s.cursor.isAtEnd = false →
    ∃ item next after, Item.read s.cursor = .ok (item, next) ∧
      Item.InRange source s.cursor next item ∧ s.turn = .ok after ∧ after.cursor = next

theorem underway_begin (source : String) {h : Handler} (hcollects : h.stopsAtError = false) :
    Underway source.toList 0 (begin source h) :=
  ⟨[], source.toList, ofSource_eq_cut source, rfl, Nat.zero_le _, hcollects⟩

/-- **A scan comes to its end without a fault**, if its handler collects. -/
theorem run_faultless {source : String} {h : Handler} (hfit : LinesFit source.toList)
    (hcollects : h.stopsAtError = false) : Faultless source h := by
  have hbegin := underway_begin source hcollects
  obtain ⟨n, last, hturns, hend⟩ := exists_last .none hfit hbegin
  have hrun : run source h = last.finish := by
    rw [run, hturns.toEnd_eq, toEnd_of_isAtEnd hend]
  constructor
  case returns => exact ⟨_, by rw [hrun]; rfl⟩
  case ends => exact ⟨n, last, hturns, hend, hrun⟩
  case bounded =>
    intro n s hturns
    obtain ⟨before, after, -, hsource, hn, -⟩ := hturns.underway hfit hbegin
    have hlength := congrArg List.length hsource
    rw [List.length_append, String.length_toList] at hlength
    omega
  case turns =>
    intro n s hturns hmore
    obtain ⟨item, next, hread, hrange, hturn, -⟩ :=
      (hturns.underway hfit hbegin).turn hfit hmore
    rw [String.ofList_toList] at hrange
    exact ⟨item, next, _, hread, hrange, hturn, rfl⟩

theorem run_faultless_listening :
    LinesFit "é\"\" \x00 1.5#\n\"".toList ∧ Handler.listening.stopsAtError = false ∧
      Faultless "é\"\" \x00 1.5#\n\"" .listening :=
  ⟨by decide, rfl, run_faultless (by decide) rfl⟩

end Scan
end Lexical
