import Lexical.Proofs.Grammar.Seam
import Lexical.Proofs.Modes
import Mathlib.Data.List.Basic

/-!
# Text put behind a source

Whoever reads a source as it comes in wants to know what of a result is final. What a scan finds
at one place depends on the text ahead, but not on much of it: what extends a token does so
within the next two bytes (`Extends.within`). So a token with two bytes behind it is *settled*,
and stays what it is whatever is put behind the source.

Two bytes are needed for one rule only, that of numbers: `1.` is two tokens, and `1.5` is one.

A stray character is settled as soon as it is read, with nothing behind it. Whether a character
is stray is decided by the text in front of it, as the machine of three modes shows, so for
diagnostics the two-byte rule is not needed. An open string is never settled.
-/

set_option autoImplicit false

namespace Lexical

open Text Cursor

/-- Two bytes of the source stand behind the token. -/
def Token.isSettled (source : String) (t : Token) : Bool :=
  !t.isEnd && decide (t.span.stop + 2 ≤ source.utf8ByteSize)

/-- What is settled in the result `s` of a source is the front of another result. -/
structure SettledIn (source : String) (s other : Scanned) : Prop where
  tokens : s.tokens.filter (Token.isSettled source) <+: other.tokens
  diagnostics : s.coded 1001 <+: other.diagnostics
  /-- Nothing is left out but open strings. -/
  unsettled : ∀ d ∈ s.diagnostics, d ∈ s.coded 1001 ∨ d ∈ s.coded 1002

/-! ## Tokens -/

/-- Two bytes of the text that ends at `total` stand behind the piece. -/
def Placed.isSettled (total : Nat) (p : Placed) : Bool := decide (p.span.stop + 2 ≤ total)

theorem Layout.stop_le {before after : List Char} {ps : List Placed} (h : Layout before after ps) :
    ∀ p ∈ ps, width before ≤ p.span.stop := by
  intro p hp
  obtain ⟨between, hbetween⟩ := h.prefix_before p hp
  show width before ≤ width (p.before ++ p.piece.text)
  rw [← hbetween, List.append_assoc, width_append]
  exact Nat.le_add_right _ _

/-- **The settled elements of a text are the first ones of every longer text.** -/
theorem Layout.settled_front {before after : List Char} {ps : List Placed}
    (h : Layout before after ps) (more : List Char) :
    ps.filter (Placed.isSettled (width (before ++ after))) <+: elements before (after ++ more) := by
  induction h with
  | last => exact List.nil_prefix
  | @next before gap rest c ps hgap hc hrest ih =>
    have htotal := congrArg width (append_first before gap c rest)
    rw [width_append (before ++ gap ++ (Piece.first c rest).1.text)] at htotal
    rw [append_first] at ih
    by_cases hroom : 2 ≤ width (Piece.first c rest).2
    · have hsettled : Placed.isSettled (width (before ++ (gap ++ c :: rest)))
          ⟨before ++ gap, (Piece.first c rest).1⟩ = true := by
        rw [Placed.isSettled, decide_eq_true_eq, ← htotal]
        exact Nat.add_le_add_left hroom _
      rw [List.filter_cons_of_pos hsettled, List.append_assoc, List.cons_append,
        elements_skipped hgap, elements_cons hc, Piece.first_before_room hc hroom]
      exact (List.prefix_cons_inj _).mpr ih
    · -- All later elements end behind this one, so none of them has the room either.
      have hnone : (⟨before ++ gap, (Piece.first c rest).1⟩ :: ps).filter
          (Placed.isSettled (width (before ++ (gap ++ c :: rest)))) = [] := by
        rw [List.filter_eq_nil_iff]
        intro p hp
        have hstop : width (before ++ gap ++ (Piece.first c rest).1.text) ≤ p.span.stop := by
          rcases List.mem_cons.mp hp with rfl | hp
          · exact Nat.le_refl _
          · exact hrest.stop_le p hp
        rw [Placed.isSettled, decide_eq_true_eq, ← htotal]
        omega
      rw [hnone]
      exact List.nil_prefix

theorem Placed.isSettled_token? {source : String} {p : Placed} {t : Token}
    (hp : p ∈ elements [] source.toList) (ht : p.token? = some t) :
    t.isSettled source = p.isSettled source.utf8ByteSize := by
  obtain ⟨kind, literal, -, rfl⟩ := Placed.token?_eq_some ht
  have hend := isEnd_of_token? hp ht
  rw [Token.isSettled, hend]
  rfl

theorem filter_settled (source : String) :
    ((elements [] source.toList).filterMap Placed.token?).filter (Token.isSettled source) =
      ((elements [] source.toList).filter
        (Placed.isSettled source.utf8ByteSize)).filterMap Placed.token? := by
  rw [List.filter_filterMap, List.filterMap_filter]
  apply List.filterMap_congr
  intro p hp
  cases ht : p.token? with
  | none => simp
  | some t => rw [Option.filter_some, Placed.isSettled_token? hp ht]

/-- The token that ends the list is never settled. -/
theorem filter_settled_tokens (source : String) (line : Nat) :
    ((elements [] source.toList).filterMap Placed.token? ++
      [Token.endOfSource source.utf8ByteSize line]).filter (Token.isSettled source) =
        ((elements [] source.toList).filter
          (Placed.isSettled source.utf8ByteSize)).filterMap Placed.token? := by
  have hend : (Token.endOfSource source.utf8ByteSize line).isSettled source = false := rfl
  rw [List.filter_append, filter_settled, List.filter_cons_of_neg (by simp [hend]),
    List.filter_nil, List.append_nil]

/-! ## Diagnostics -/

theorem Reports.strays_front {before after : List Char} {ps : List Placed}
    (h : Reports before after ps) :
    (strays .code before after).map Reading.report <+: ps.filterMap Placed.diagnostic? := by
  cases h with
  | ended _ heq => exact heq ▸ List.prefix_rfl
  | leftOpen opened body _ _ _ heq _ =>
    rw [heq]
    exact List.prefix_append _ _

theorem strays_front (mode : Mode) (before text more : List Char) :
    (strays mode before text).map Reading.report <+:
      (strays mode before (text ++ more)).map Reading.report := by
  rw [strays_append, List.map_append]
  exact List.prefix_append _ _

/-! ## The whole source -/

/-- **What is settled stays as it is** when more text is put behind a source. -/
theorem tokenize_append {a b : String} (hfit : LinesFit (a ++ b).toList) :
    ∃ s whole, tokenize a = .ok s ∧ tokenize (a ++ b) = .ok whole ∧ SettledIn a s whole := by
  have hfits := hfit
  rw [String.toList_append] at hfits
  have hfront := tokenize_elements hfits.left
  have hmodes := ByModes.of_tokenize hfits.left hfront
  refine ⟨_, _, hfront, tokenize_elements hfit, ?_⟩
  constructor
  case tokens =>
    have hsettled := (layout_elements [] a.toList).settled_front b.toList
    rw [List.nil_append, width_toList] at hsettled
    rw [filter_settled_tokens, String.toList_append]
    exact (hsettled.filterMap Placed.token?).trans (List.prefix_append _ _)
  case diagnostics =>
    rw [hmodes.strays_reported, String.toList_append]
    exact (strays_front .code [] a.toList b.toList).trans
      (layout_elements [] (a.toList ++ b.toList)).reports.strays_front
  case unsettled =>
    intro d hd
    rcases hmodes.codes d hd with hcode | hcode
    · exact Or.inl (List.mem_filter.mpr ⟨hd, decide_eq_true hcode⟩)
    · exact Or.inr (List.mem_filter.mpr ⟨hd, decide_eq_true hcode⟩)

theorem tokenize_append_pointed :
    LinesFit ("é @ 1." ++ "5 \"").toList ∧
      ∃ s whole, tokenize "é @ 1." = .ok s ∧ tokenize ("é @ 1." ++ "5 \"") = .ok whole ∧
        SettledIn "é @ 1." s whole :=
  ⟨by decide, tokenize_append (by decide)⟩

/-- One byte behind a token is not enough. -/
example : ((tokenize "1.").toOption.map fun s => s.tokens.map Token.lexeme) = some ["1", ".", ""] ∧
    ((tokenize "1.5").toOption.map fun s => s.tokens.map Token.lexeme) = some ["1.5", ""] := by
  decide +kernel

end Lexical
