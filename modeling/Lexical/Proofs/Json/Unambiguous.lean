import Lexical.Proofs.Json.Grammar
import Lexical.Proofs.Text.Run

/-!
# A text has one value

The grammar lets a phrase end early: `1` stands at the front of `12`, and the whitespace behind an
element may be left to what follows. What comes behind a phrase in a whole text rules that out. So
the lemma that goes through by induction (`Reads.unique`) compares two phrases of one shape at the
front of one text, each with something behind it that ends this shape for certain.
-/

set_option autoImplicit false

namespace Lexical
namespace Json

open Text

/-! ## Whitespace -/

section Spaces

variable {text rest rest' : List Char}

theorem Spaces.dropWhile (h : Spaces text rest) (hrest : Stops isSpace rest) :
    text.dropWhile isSpace = rest := by
  induction h with
  | none => simpa using dropWhile_run (List.forall_mem_nil _) hrest
  | more hc _ ih =>
    rw [List.dropWhile_cons_of_pos hc]
    exact ih hrest

theorem Spaces.unique (h : Spaces text rest) (h' : Spaces text rest')
    (hrest : Stops isSpace rest) (hrest' : Stops isSpace rest') : rest' = rest :=
  (h'.dropWhile hrest').symm.trans (h.dropWhile hrest)

end Spaces

/-! ## Numbers -/

def isNumberChar (c : Char) : Bool := c.isDigit || c ∈ ['-', '+', '.', 'e', 'E']

section Numbers

variable {numeral numeral' text rest rest' : List Char}

theorem isNumberChar_of_isSpace {c : Char} (h : isSpace c = true) : isNumberChar c = false := by
  simp only [isSpace, Bool.or_eq_true, decide_eq_true_eq] at h
  rcases h with ((rfl | rfl) | rfl) | rfl <;> decide

theorem isNumberChar_of_isDigit {ds : List Char} (h : IsDigits ds) :
    ∀ c ∈ ds, isNumberChar c = true := by
  intro c hc
  simp [isNumberChar, h.2 c hc]

theorem IsNumeral.isNumberChar (h : IsNumeral numeral) :
    ∀ c ∈ numeral, isNumberChar c = true := by
  obtain ⟨hsign, hwhole, hfraction, hexponent⟩ := h
  simp only [List.mem_append]
  rintro c (((hc | hc) | hc) | hc)
  · simp only [List.mem_cons, List.not_mem_nil, or_false] at hsign
    rcases hsign with rfl | rfl
    · exact absurd hc List.not_mem_nil
    · rw [List.mem_singleton.mp hc]
      decide
  · exact isNumberChar_of_isDigit hwhole.1 c hc
  · rcases hfraction with rfl | ⟨ds, rfl, hds⟩
    · exact absurd hc List.not_mem_nil
    · rcases List.mem_cons.mp hc with rfl | hc
      · decide
      · exact isNumberChar_of_isDigit hds c hc
  · rcases hexponent with rfl | ⟨e, sign, ds, rfl, he, hsign, hds⟩
    · exact absurd hc List.not_mem_nil
    · simp only [List.mem_cons, List.not_mem_nil, or_false] at he hsign
      have hfront : (e :: sign).all Json.isNumberChar = true := by
        rcases he with rfl | rfl <;> rcases hsign with rfl | rfl | rfl <;> decide
      rcases List.mem_append.mp hc with hc | hc
      · exact List.all_eq_true.mp hfront c hc
      · exact isNumberChar_of_isDigit hds c hc

theorem IsNumeral.ne_nil (h : IsNumeral numeral) : numeral ≠ [] := by
  obtain ⟨-, hwhole, -, -⟩ := h
  simp [hwhole.1.1]

/-- A number starts with none of the characters that the other values start with. -/
theorem IsNumeral.front (h : IsNumeral numeral) : ∃ c tail,
    numeral = c :: tail ∧ Json.isNumberChar c = true := by
  obtain ⟨c, tail, rfl⟩ := List.exists_cons_of_ne_nil h.ne_nil
  exact ⟨c, tail, rfl, h.isNumberChar c List.mem_cons_self⟩

theorem IsNumeral.not_front {c : Char} (h : IsNumeral numeral)
    (hc : Json.isNumberChar c = false) : c :: text ≠ numeral ++ rest := by
  obtain ⟨d, tail, rfl, hd⟩ := h.front
  rintro ⟨⟩
  rw [hc] at hd
  exact Bool.false_ne_true hd

theorem IsNumeral.unique (h : IsNumeral numeral) (h' : IsNumeral numeral')
    (hrest : Stops Json.isNumberChar rest) (hrest' : Stops Json.isNumberChar rest')
    (htext : numeral' ++ rest' = numeral ++ rest) : numeral' = numeral ∧ rest' = rest := by
  have hsame : numeral' = numeral := by
    have htake := congrArg (List.takeWhile Json.isNumberChar) htext
    rwa [takeWhile_run h'.isNumberChar hrest', takeWhile_run h.isNumberChar hrest] at htake
  exact ⟨hsame, List.append_cancel_left (hsame ▸ htext)⟩

end Numbers

/-! ## Strings -/

section Strings

variable {c c' : Char} {cs cs' text rest rest' : List Char}

theorem ReadsChar.unique (h : ReadsChar c text rest) (h' : ReadsChar c' text rest') :
    c' = c ∧ rest' = rest := by
  cases h with
  | plain _ _ hbackslash =>
    cases h' with
    | plain => exact ⟨rfl, rfl⟩
    | short | one | pair => exact absurd rfl hbackslash
  | short he =>
    cases h' with
    | plain _ _ hbackslash => exact absurd rfl hbackslash
    | short he' => exact ⟨Option.some.inj (he'.symm.trans he), rfl⟩
    | one | pair => exact absurd he (by simp [shortEscape?])
  | one hn hhigh =>
    cases h' with
    | plain _ _ hbackslash => exact absurd rfl hbackslash
    | short he' => exact absurd he' (by simp [shortEscape?])
    | one hn' => exact ⟨by rw [Option.some.inj (hn'.symm.trans hn)], rfl⟩
    | pair hm hhigh' => exact absurd (Option.some.inj (hm.symm.trans hn) ▸ hhigh') hhigh
  | pair hm hhigh hn =>
    cases h' with
    | plain _ _ hbackslash => exact absurd rfl hbackslash
    | short he' => exact absurd he' (by simp [shortEscape?])
    | one hm' hhigh' => exact absurd (Option.some.inj (hm.symm.trans hm') ▸ hhigh) hhigh'
    | pair hm' _ hn' =>
      rw [Option.some.inj (hm'.symm.trans hm), Option.some.inj (hn'.symm.trans hn)]
      exact ⟨rfl, rfl⟩

/-- A quote is no character of a string: it ends the string. -/
theorem not_readsChar_quote : ¬ ReadsChar c ('"' :: text) rest := by
  rintro ⟨⟩
  contradiction

theorem ReadsString.unique (h : ReadsString cs text rest) (h' : ReadsString cs' text rest') :
    cs' = cs ∧ rest' = rest := by
  induction h generalizing cs' with
  | closed =>
    cases h' with
    | closed => exact ⟨rfl, rfl⟩
    | char hc => exact absurd hc not_readsChar_quote
  | char hc _ ih =>
    cases h' with
    | closed => exact absurd hc not_readsChar_quote
    | char hc' hcs' =>
      obtain ⟨rfl, rfl⟩ := hc.unique hc'
      obtain ⟨rfl, rfl⟩ := ih hcs'
      exact ⟨rfl, rfl⟩

end Strings

/-! ## What ends a phrase -/

/-- What a phrase is a phrase of. -/
inductive Shape where
  | value | element | member | elements | members

def Phrase.shape : Phrase → Shape
  | value _ => .value
  | element _ => .element
  | member _ => .member
  | elements _ => .elements
  | members _ => .members

/-- The characters that stand behind an item or a member. -/
def closers : List Char := [',', ']', '\x7d']

/-- What stands behind a phrase ends it: a number cannot go on, whitespace cannot go on, and a row
is not followed by a comma. -/
def Shape.Ends : Shape → List Char → Prop
  | value, rest => Stops isNumberChar rest
  | element, rest | member, rest => ∀ c ∈ rest.head?, c ∈ closers
  | elements, rest => rest.head? = some ']'
  | members, rest => rest.head? = some '\x7d'

section Ends

variable {text rest : List Char} {test : Char → Bool}

theorem stops_of_closers (hrest : ∀ c ∈ rest.head?, c ∈ closers)
    (htest : closers.any test = false) : Stops test rest :=
  fun c hc => Bool.not_eq_true _ ▸ List.any_eq_false.mp htest c (hrest c hc)

theorem ends_of_closer {c : Char} (hrest : rest.head? = some c) (hc : c ∈ closers) :
    Shape.element.Ends rest := by
  intro d hd
  rw [hrest, Option.mem_some_iff] at hd
  exact hd ▸ hc

theorem ends_comma : Shape.element.Ends (',' :: rest) := ends_of_closer rfl (by decide)

/-- Behind a value inside an element there is whitespace, or what ends the element. -/
theorem Spaces.stops_number (h : Spaces text rest) (hrest : Shape.element.Ends rest) :
    Stops isNumberChar text := by
  cases h with
  | none => exact stops_of_closers hrest (by decide)
  | more hc => exact stops_cons.mpr (isNumberChar_of_isSpace hc)

end Ends

/-! ## How a phrase starts -/

section Starts

variable {j : Json} {js : List Json} {m : String × Json} {ms : List (String × Json)}
  {text rest rest' : List Char}

theorem Reads.value_start (h : Reads (.value j) text rest) :
    Stops isSpace text ∧ text.head? ≠ some ']' := by
  cases h with
  | number hnumeral htext =>
    obtain ⟨c, tail, rfl, hc⟩ := hnumeral.front
    subst htext
    constructor
    · refine stops_cons.mpr ?_
      cases hspace : isSpace c with
      | false => rfl
      | true => exact absurd (isNumberChar_of_isSpace hspace) (by simp [hc])
    · rintro ⟨⟩
      exact absurd hc (by decide)
  | null | yes | no | string | emptyArray | array | emptyObject | object =>
    exact ⟨stops_cons.mpr (by decide), by simp⟩

/-- A row of items is not the whitespace of an empty array. -/
theorem Reads.elements_start (h : Reads (.elements js) text rest) :
    ¬ Spaces text (']' :: rest') := by
  obtain ⟨j, rest, helement⟩ : ∃ j rest, Reads (.element j) text rest := by
    cases h with
    | lastElement h | moreElements h => exact ⟨_, _, h⟩
  intro hempty
  cases helement with
  | element hspaces hvalue =>
    obtain ⟨hstop, hhead⟩ := hvalue.value_start
    refine hhead ?_
    rw [← hspaces.unique hempty hstop (stops_cons.mpr (by decide))]
    rfl

theorem Reads.members_start (h : Reads (.members ms) text rest) :
    ¬ Spaces text ('\x7d' :: rest') := by
  obtain ⟨m, rest, hmember⟩ : ∃ m rest, Reads (.member m) text rest := by
    cases h with
    | lastMember h | moreMembers h => exact ⟨_, _, h⟩
  intro hempty
  cases hmember with
  | member hspaces =>
    have hquote := hspaces.unique hempty (stops_cons.mpr (by decide)) (stops_cons.mpr (by decide))
    simp at hquote

end Starts

/-! ## Two phrases at the front of one text -/

variable {p q : Phrase} {text rest rest' : List Char}

theorem Reads.unique (h : Reads p text rest) (h' : Reads q text rest')
    (hshape : q.shape = p.shape) (hends : p.shape.Ends rest) (hends' : p.shape.Ends rest') :
    q = p ∧ rest' = rest := by
  -- The first character leaves one constructor for the other value, but for numbers, which have
  -- no fixed first character; other phrases are told apart by `hshape`.
  induction h generalizing q rest' with
  | null =>
    cases h' with
    | null => exact ⟨rfl, rfl⟩
    | number hnumeral htext => exact absurd htext (hnumeral.not_front (by decide))
    | _ => cases hshape
  | yes =>
    cases h' with
    | yes => exact ⟨rfl, rfl⟩
    | number hnumeral htext => exact absurd htext (hnumeral.not_front (by decide))
    | _ => cases hshape
  | no =>
    cases h' with
    | no => exact ⟨rfl, rfl⟩
    | number hnumeral htext => exact absurd htext (hnumeral.not_front (by decide))
    | _ => cases hshape
  | number hnumeral htext =>
    cases h' with
    | number hnumeral' htext' =>
      obtain ⟨rfl, rfl⟩ := hnumeral.unique hnumeral' hends hends' (htext'.symm.trans htext)
      exact ⟨rfl, rfl⟩
    | null | yes | no | string | emptyArray | array | emptyObject | object =>
      exact absurd htext (hnumeral.not_front (by decide))
    | _ => cases hshape
  | string hcs =>
    cases h' with
    | string hcs' =>
      obtain ⟨rfl, rfl⟩ := hcs.unique hcs'
      exact ⟨rfl, rfl⟩
    | number hnumeral htext => exact absurd htext (hnumeral.not_front (by decide))
    | _ => cases hshape
  | emptyArray hspaces =>
    cases h' with
    | emptyArray hspaces' =>
      obtain ⟨⟩ := hspaces.unique hspaces' (stops_cons.mpr (by decide)) (stops_cons.mpr (by decide))
      exact ⟨rfl, rfl⟩
    | array hitems => exact absurd hspaces hitems.elements_start
    | number hnumeral htext => exact absurd htext (hnumeral.not_front (by decide))
    | _ => cases hshape
  | array hitems ih =>
    cases h' with
    | emptyArray hspaces => exact absurd hspaces hitems.elements_start
    | array hitems' =>
      obtain ⟨⟨⟩, ⟨⟩⟩ := ih hitems' rfl rfl rfl
      exact ⟨rfl, rfl⟩
    | number hnumeral htext => exact absurd htext (hnumeral.not_front (by decide))
    | _ => cases hshape
  | emptyObject hspaces =>
    cases h' with
    | emptyObject hspaces' =>
      obtain ⟨⟩ := hspaces.unique hspaces' (stops_cons.mpr (by decide)) (stops_cons.mpr (by decide))
      exact ⟨rfl, rfl⟩
    | object hmembers => exact absurd hspaces hmembers.members_start
    | number hnumeral htext => exact absurd htext (hnumeral.not_front (by decide))
    | _ => cases hshape
  | object hmembers ih =>
    cases h' with
    | emptyObject hspaces => exact absurd hspaces hmembers.members_start
    | object hmembers' =>
      obtain ⟨⟨⟩, ⟨⟩⟩ := ih hmembers' rfl rfl rfl
      exact ⟨rfl, rfl⟩
    | number hnumeral htext => exact absurd htext (hnumeral.not_front (by decide))
    | _ => cases hshape
  | element hbefore hvalue hbehind ih =>
    cases h' with
    | element hbefore' hvalue' hbehind' =>
      -- From the front on: where the value starts, the value, and what is left behind it.
      obtain rfl := hbefore.unique hbefore' hvalue.value_start.1 hvalue'.value_start.1
      obtain ⟨⟨⟩, rfl⟩ := ih hvalue' rfl (hbehind.stops_number hends) (hbehind'.stops_number hends')
      obtain rfl := hbehind.unique hbehind' (stops_of_closers hends (by decide))
        (stops_of_closers hends' (by decide))
      exact ⟨rfl, rfl⟩
    | _ => cases hshape
  | member hbefore hkey hcolon helement ih =>
    cases h' with
    | member hbefore' hkey' hcolon' helement' =>
      obtain ⟨⟩ := hbefore.unique hbefore' (stops_cons.mpr (by decide)) (stops_cons.mpr (by decide))
      obtain ⟨rfl, rfl⟩ := hkey.unique hkey'
      obtain ⟨⟩ := hcolon.unique hcolon' (stops_cons.mpr (by decide)) (stops_cons.mpr (by decide))
      obtain ⟨⟨⟩, rfl⟩ := ih helement' rfl hends hends'
      exact ⟨rfl, rfl⟩
    | _ => cases hshape
  | lastElement helement ih =>
    have hend := ends_of_closer hends (by decide)
    cases h' with
    | lastElement helement' =>
      obtain ⟨⟨⟩, rfl⟩ := ih helement' rfl hend (ends_of_closer hends' (by decide))
      exact ⟨rfl, rfl⟩
    | moreElements helement' =>
      -- The same element cannot have both a bracket and a comma behind it.
      obtain ⟨-, rfl⟩ := ih helement' rfl hend ends_comma
      cases hends
    | _ => cases hshape
  | moreElements helement helements ih ihs =>
    cases h' with
    | lastElement helement' =>
      obtain ⟨-, rfl⟩ := ih helement' rfl ends_comma (ends_of_closer hends' (by decide))
      cases hends'
    | moreElements helement' helements' =>
      obtain ⟨⟨⟩, ⟨⟩⟩ := ih helement' rfl ends_comma ends_comma
      obtain ⟨⟨⟩, rfl⟩ := ihs helements' rfl hends hends'
      exact ⟨rfl, rfl⟩
    | _ => cases hshape
  | lastMember hmember ih =>
    have hend := ends_of_closer hends (by decide)
    cases h' with
    | lastMember hmember' =>
      obtain ⟨⟨⟩, rfl⟩ := ih hmember' rfl hend (ends_of_closer hends' (by decide))
      exact ⟨rfl, rfl⟩
    | moreMembers hmember' =>
      obtain ⟨-, rfl⟩ := ih hmember' rfl hend ends_comma
      cases hends
    | _ => cases hshape
  | moreMembers hmember hmembers ih ihs =>
    cases h' with
    | lastMember hmember' =>
      obtain ⟨-, rfl⟩ := ih hmember' rfl ends_comma (ends_of_closer hends' (by decide))
      cases hends'
    | moreMembers hmember' hmembers' =>
      obtain ⟨⟨⟩, ⟨⟩⟩ := ih hmember' rfl ends_comma ends_comma
      obtain ⟨⟨⟩, rfl⟩ := ihs hmembers' rfl hends hends'
      exact ⟨rfl, rfl⟩
    | _ => cases hshape

/-- **The grammar is unambiguous**: a text has at most one value. -/
theorem IsText.unique {text : String} {j j' : Json} (h : IsText text j) (h' : IsText text j') :
    j' = j := by
  have hend : Shape.element.Ends [] := by
    intro c hc
    cases hc
  obtain ⟨⟨⟩, -⟩ := Reads.unique h h' rfl hend hend
  rfl

theorem IsText.denotes {text : String} {j : Json} (h : IsText text j) : Denotes text j :=
  fun _ => ⟨h.unique, fun hj => hj ▸ h⟩

end Json
end Lexical
