import Lexical.Proofs.Json.Unambiguous

/-!
# What is written is read back

The text of a value denotes that value and no other, provided each number in it is written as the
grammar has numbers (`Json.WellFormed`); all else of a value can be written whatever it holds. The
writer adds to a text that is already there, so what is proved of it is what it adds: characters
that the grammar reads as the value with anything at all behind them (`Json.Adds`).
-/

set_option autoImplicit false

namespace Lexical
namespace Json

/-! ## Strings -/

/-- A control character has two digits at most, so the first two of the four are zeros. -/
theorem unicodeEscape_eq : ∀ n < 0x20, unicodeEscape (Char.ofNat n) =
    ['\\', 'u', '0', '0', Nat.digitChar (n / 16), Nat.digitChar (n % 16)] := by
  decide

theorem hexNumber?_digitChar : ∀ n < 0x20,
    hexNumber? ['0', '0', Nat.digitChar (n / 16), Nat.digitChar (n % 16)] = some n := by
  decide

theorem readsChar_unicodeEscape {c : Char} (hc : c.toNat < 0x20) (rest : List Char) :
    ReadsChar c (unicodeEscape c ++ rest) rest := by
  have hescape := unicodeEscape_eq c.toNat hc
  have hhigh : ¬ IsHigh c.toNat := fun h => absurd h.1 (by omega)
  have hlow : ¬ IsLow c.toNat := fun h => absurd h.1 (by omega)
  have hread : ReadsChar (Char.ofNat c.toNat)
      (unicodeEscape (Char.ofNat c.toNat) ++ rest) rest := by
    rw [hescape]
    exact .one (hexNumber?_digitChar c.toNat hc) hhigh hlow
  rwa [Char.ofNat_toNat] at hread

theorem readsChar_escaped (c : Char) (rest : List Char) :
    ReadsChar c (escaped c ++ rest) rest := by
  unfold escaped
  split
  next hself => rcases hself with rfl | rfl <;> exact .short rfl
  next hself =>
  obtain ⟨hquote, hbackslash⟩ := not_or.mp hself
  split
  next hc => exact hc ▸ .short rfl
  split
  next hc => exact hc ▸ .short rfl
  split
  next hc => exact hc ▸ .short rfl
  split
  next hc => exact hc ▸ .short rfl
  split
  next hc => exact hc ▸ .short rfl
  split
  next hcontrol => exact readsChar_unicodeEscape hcontrol rest
  next hcontrol => exact .plain (Nat.le_of_not_lt hcontrol) hquote hbackslash

theorem readsString_escaped (cs rest : List Char) :
    ReadsString cs (cs.flatMap escaped ++ '"' :: rest) rest := by
  induction cs with
  | nil => exact .closed
  | cons c cs ih =>
    rw [List.flatMap_cons, List.append_assoc]
    exact .char (readsChar_escaped c _) ih

theorem toList_quoted (s : String) :
    (quoted s).toList = '"' :: s.toList.flatMap escaped ++ ['"'] :=
  String.toList_ofList

/-! ## Values -/

/-- Every number in a value is written as the grammar has it. -/
inductive WellFormed : Json → Prop
  | null : WellFormed null
  | bool (value : Bool) : WellFormed (bool value)
  | number {written : String} : IsNumeral written.toList → WellFormed (number written)
  | string (value : String) : WellFormed (string value)
  | array {items : List Json} : (∀ item ∈ items, WellFormed item) → WellFormed (array items)
  | object {members : List (String × Json)} :
      (∀ member ∈ members, WellFormed member.2) → WellFormed (object members)

/-- Writing a value adds characters that are read as this value, whatever stands behind them. -/
def Adds (j : Json) : Prop := ∀ text : String, ∃ added,
  (write text j).toList = text.toList ++ added ∧ ∀ rest, Reads (.value j) (added ++ rest) rest

theorem Reads.bare {j : Json} {text rest : List Char} (h : Reads (.value j) text rest) :
    Reads (.element j) text rest :=
  .element .none h .none

theorem Reads.bareMember {key : String} {j : Json} {text rest : List Char}
    (h : Reads (.value j) text rest) :
    Reads (.member (key, j)) ((quoted key).toList ++ ':' :: text) rest := by
  have hname : Reads (.member (String.ofList key.toList, j))
      ('"' :: (key.toList.flatMap escaped ++ '"' :: ':' :: text)) rest :=
    .member .none (readsString_escaped key.toList _) .none h.bare
  rw [String.ofList_toList] at hname
  simpa [toList_quoted] using hname

theorem adds_string (value : String) : (string value).Adds := by
  intro text
  refine ⟨(quoted value).toList, by simp [write, String.toList_append], fun rest => ?_⟩
  have hread := Reads.string (readsString_escaped value.toList rest)
  rw [String.ofList_toList] at hread
  simpa [toList_quoted] using hread

/-- The items after the first make the first a row, if the bracket follows. -/
theorem adds_items {items : List Json} (hadds : ∀ item ∈ items, item.Adds) (text : String) :
    ∃ added, (writeItems text items).toList = text.toList ++ added ∧
      ∀ first start rest, Reads (.element first) start (added ++ ']' :: rest) →
        Reads (.elements (first :: items)) start (']' :: rest) := by
  induction items generalizing text with
  | nil => exact ⟨[], by simp [writeItems], fun _ _ _ hfirst => .lastElement hfirst⟩
  | cons item items ih =>
    obtain ⟨hitem, hitems⟩ := List.forall_mem_cons.mp hadds
    obtain ⟨added, hwrite, hread⟩ := hitem (text ++ ",")
    obtain ⟨more, hwriteMore, hreadMore⟩ := ih hitems (write (text ++ ",") item)
    refine ⟨',' :: added ++ more, ?_, fun first start rest hfirst => ?_⟩
    · rw [writeItems, hwriteMore, hwrite]
      simp [String.toList_append]
    · have hnext := hreadMore item (added ++ (more ++ ']' :: rest)) rest (hread _).bare
      exact .moreElements (by simpa using hfirst) hnext

theorem adds_array {items : List Json} (hadds : ∀ item ∈ items, item.Adds) :
    (array items).Adds := by
  intro text
  cases items with
  | nil => exact ⟨['[', ']'], by simp [write, String.toList_append], fun _ => .emptyArray .none⟩
  | cons item items =>
    obtain ⟨hitem, hitems⟩ := List.forall_mem_cons.mp hadds
    obtain ⟨added, hwrite, hread⟩ := hitem (text ++ "[")
    obtain ⟨more, hwriteMore, hreadMore⟩ := adds_items hitems (write (text ++ "[") item)
    refine ⟨'[' :: added ++ more ++ [']'], ?_, fun rest => ?_⟩
    · rw [write, String.toList_append, hwriteMore, hwrite]
      simp [String.toList_append]
    · have hrow := hreadMore item (added ++ (more ++ ']' :: rest)) rest (hread _).bare
      simpa using Reads.array hrow

theorem adds_members {members : List (String × Json)} (hadds : ∀ member ∈ members, member.2.Adds)
    (text : String) :
    ∃ added, (writeMembers text members).toList = text.toList ++ added ∧
      ∀ first start rest, Reads (.member first) start (added ++ '\x7d' :: rest) →
        Reads (.members (first :: members)) start ('\x7d' :: rest) := by
  induction members generalizing text with
  | nil => exact ⟨[], by simp [writeMembers], fun _ _ _ hfirst => .lastMember hfirst⟩
  | cons member members ih =>
    obtain ⟨hmember, hmembers⟩ := List.forall_mem_cons.mp hadds
    obtain ⟨key, value⟩ := member
    obtain ⟨added, hwrite, hread⟩ := hmember (text ++ "," ++ quoted key ++ ":")
    obtain ⟨more, hwriteMore, hreadMore⟩ :=
      ih hmembers (write (text ++ "," ++ quoted key ++ ":") value)
    refine ⟨',' :: (quoted key).toList ++ ':' :: added ++ more, ?_,
      fun first start rest hfirst => ?_⟩
    · rw [writeMembers, hwriteMore, hwrite]
      simp [String.toList_append]
    · have hnext := hreadMore (key, value) _ rest (hread (more ++ '\x7d' :: rest)).bareMember
      exact .moreMembers (by simpa using hfirst) hnext

theorem adds_object {members : List (String × Json)}
    (hadds : ∀ member ∈ members, member.2.Adds) : (object members).Adds := by
  intro text
  cases members with
  | nil =>
    exact ⟨['\x7b', '\x7d'], by simp [write, String.toList_append], fun _ => .emptyObject .none⟩
  | cons member members =>
    obtain ⟨hmember, hmembers⟩ := List.forall_mem_cons.mp hadds
    obtain ⟨key, value⟩ := member
    obtain ⟨added, hwrite, hread⟩ := hmember (text ++ "\x7b" ++ quoted key ++ ":")
    obtain ⟨more, hwriteMore, hreadMore⟩ :=
      adds_members hmembers (write (text ++ "\x7b" ++ quoted key ++ ":") value)
    refine ⟨'\x7b' :: (quoted key).toList ++ ':' :: added ++ more ++ ['\x7d'], ?_, fun rest => ?_⟩
    · rw [write, String.toList_append, hwriteMore, hwrite]
      simp [String.toList_append]
    · have hrow := hreadMore (key, value) _ rest (hread (more ++ '\x7d' :: rest)).bareMember
      simpa using Reads.object hrow

theorem WellFormed.adds {j : Json} (h : j.WellFormed) : j.Adds := by
  induction h with
  | null => exact fun text => ⟨"null".toList, by simp [write, String.toList_append], fun _ => .null⟩
  | bool value =>
    intro text
    cases value with
    | true => exact ⟨"true".toList, by simp [write, String.toList_append], fun _ => .yes⟩
    | false => exact ⟨"false".toList, by simp [write, String.toList_append], fun _ => .no⟩
  | @number written hwritten =>
    intro text
    refine ⟨written.toList, by simp [write, String.toList_append], fun rest => ?_⟩
    have hread := Reads.number hwritten (rfl : written.toList ++ rest = _)
    rwa [String.ofList_toList] at hread
  | string value => exact adds_string value
  | array _ ih => exact adds_array ih
  | object _ ih => exact adds_object ih

/-- **The text of a value is JSON for this value and no other.** -/
theorem WellFormed.denotes_text {j : Json} (h : j.WellFormed) : Denotes j.text j := by
  obtain ⟨added, hwrite, hread⟩ := h.adds ""
  have htext : j.text.toList = added := hwrite
  refine IsText.denotes ?_
  have hwhole := (hread []).bare
  rwa [List.append_nil, ← htext] at hwhole

end Json
end Lexical
