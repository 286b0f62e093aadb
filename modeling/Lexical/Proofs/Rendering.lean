import Lexical.Proofs.Grammar.Extension

/-!
# Scanning what was rendered

A list of lexemes can be written out as a source, with a gap in front of each and one behind the
last. Scanning that source gives the lexemes back unless two of them run together. This file
says exactly when they do (`Fuses`): two words, a word and a number, two numbers, an operator
and an equals sign, and, across three lexemes, digits, a point and a number.

Both directions come from one equivalence. The lexemes come back if and only if each of them is
the longest match where it stands, and a lexeme is the longest match if and only if nothing that
follows extends it. What can extend it is decided by the first character of what follows, so
`front_of_render` looks up where that character comes from: it starts the next lexeme, and there
is no gap.
-/

set_option autoImplicit false

namespace Lexical

open CharClass Text Cursor

/-- A lexeme to write out, and the gap in front of it. -/
structure Slot where
  gap : List Char
  lexeme : List Char
  skipped : Skipped gap
  lawful : ∃ kind, Rule kind lexeme

/-- The source that is written: gaps and lexemes in turn, and a last gap. -/
def render : List Slot → List Char → List Char
  | [], last => last
  | s :: slots, last => s.gap ++ (s.lexeme ++ render slots last)

/-- The first lexeme of a list runs together with what is written behind it. -/
inductive Fuses : List Slot → Prop
  | word {a b : Slot} {slots : List Slot} : b.gap = [] →
      IsWord a.lexeme → IsWord b.lexeme ∨ IsNumber b.lexeme → Fuses (a :: b :: slots)
  | number {a b : Slot} {slots : List Slot} : b.gap = [] →
      IsNumber a.lexeme → IsNumber b.lexeme → Fuses (a :: b :: slots)
  | equals {a b : Slot} {slots : List Slot} : b.gap = [] →
      a.lexeme ∈ [['!'], ['='], ['<'], ['>']] → b.lexeme ∈ [['='], ['=', '=']] →
      Fuses (a :: b :: slots)
  | point {a b c : Slot} {slots : List Slot} : b.gap = [] → c.gap = [] →
      IsDigits a.lexeme → b.lexeme = ['.'] → IsNumber c.lexeme → Fuses (a :: b :: c :: slots)

/-! ## Where the next character comes from -/

theorem Skipped.not_startsElement {c : Char} {rest : List Char} (h : Skipped (c :: rest)) :
    ¬ StartsElement c := by
  intro hc
  cases h with
  | blank hblank _ => exact absurd (isBlank_iff.mpr hblank) (by simp [hc.2])
  | comment => exact hc.1 rfl

theorem SkippedToEnd.not_startsElement {c : Char} {rest : List Char}
    (h : SkippedToEnd (c :: rest)) : ¬ StartsElement c := by
  generalize htext : c :: rest = text at h
  cases h with
  | closed hgap =>
    subst htext
    exact hgap.not_startsElement
  | @unclosed gap body hgap _ =>
    cases gap with
    | nil =>
      obtain ⟨rfl, -⟩ := List.cons.inj htext
      exact fun hc => hc.1 rfl
    | cons d gap =>
      obtain ⟨rfl, -⟩ := List.cons.inj htext
      exact hgap.not_startsElement

theorem startsElement_of_isDigit {c : Char} (hc : c.isDigit = true) : StartsElement c := by
  have hrule : Rule .number [c] := .number (Or.inl ⟨by simp, by simpa using hc⟩)
  exact hrule.startsElement

theorem startsElement_of_isLetter {c : Char} (hc : IsLetter c) : StartsElement c := by
  have hrule : Rule (Kind.ofWord (String.ofList [c])) [c] :=
    .word ⟨hc, by simp⟩ (isWordKind_ofWord [c])
  exact hrule.startsElement

section Render

variable {slots : List Slot} {last : List Char}

/-- What starts an element at the front of a rendering starts its first lexeme, and has no gap
in front of it. -/
theorem front_of_render (hlast : SkippedToEnd last) {c : Char} {rest : List Char}
    (h : render slots last = c :: rest) (hc : StartsElement c) :
    ∃ s more tail, slots = s :: more ∧ s.gap = [] ∧ s.lexeme = c :: tail ∧
      (∃ kind, Rule kind (c :: tail)) ∧ rest = tail ++ render more last := by
  cases slots with
  | nil =>
    rw [render] at h
    rw [h] at hlast
    exact absurd hc hlast.not_startsElement
  | cons s more =>
    have hskipped := s.skipped
    have hlawful := s.lawful
    rw [render] at h
    cases hgap : s.gap with
    | cons d gap =>
      rw [hgap] at hskipped h
      obtain ⟨rfl, -⟩ := List.cons.inj h
      exact absurd hc hskipped.not_startsElement
    | nil =>
      cases hlexeme : s.lexeme with
      | nil =>
        rw [hlexeme] at hlawful
        obtain ⟨kind, hrule⟩ := hlawful
        exact absurd hrule not_rule_nil
      | cons d tail =>
        rw [hlexeme] at hlawful
        rw [hgap, hlexeme] at h
        obtain ⟨rfl, rfl⟩ := List.cons.inj h
        exact ⟨s, more, tail, rfl, hgap, hlexeme, hlawful, rfl⟩

theorem render_eq_of_front {s : Slot} {more : List Slot} {c : Char} {tail : List Char}
    (hgap : s.gap = []) (hlexeme : s.lexeme = c :: tail) (last : List Char) :
    render (s :: more) last = c :: (tail ++ render more last) := by
  rw [render, hgap, hlexeme]
  rfl

/-! ## What extends a lexeme is the next one -/

section Front

variable {c : Char} {rest : List Char}

theorem number_of_front (hlast : SkippedToEnd last) (h : render slots last = c :: rest)
    (hc : c.isDigit = true) :
    ∃ s more, slots = s :: more ∧ s.gap = [] ∧ IsNumber s.lexeme := by
  obtain ⟨s, more, tail, rfl, hgap, hlexeme, ⟨kind, hrule⟩, -⟩ :=
    front_of_render hlast h (startsElement_of_isDigit hc)
  refine ⟨s, more, rfl, hgap, ?_⟩
  rw [hlexeme]
  exact hrule.of_isDigit hc

theorem word_of_front (hlast : SkippedToEnd last) (h : render slots last = c :: rest)
    (hc : IsLetter c) : ∃ s more, slots = s :: more ∧ s.gap = [] ∧ IsWord s.lexeme := by
  obtain ⟨s, more, tail, rfl, hgap, hlexeme, ⟨kind, hrule⟩, -⟩ :=
    front_of_render hlast h (startsElement_of_isLetter hc)
  refine ⟨s, more, rfl, hgap, ?_⟩
  rw [hlexeme]
  exact hrule.of_isAlpha (isAlpha_iff.mpr hc)

theorem equals_of_front (hlast : SkippedToEnd last) (h : render slots last = '=' :: rest) :
    ∃ s more, slots = s :: more ∧ s.gap = [] ∧ s.lexeme ∈ [['='], ['=', '=']] := by
  obtain ⟨s, more, tail, rfl, hgap, hlexeme, ⟨kind, hrule⟩, -⟩ :=
    front_of_render hlast h ⟨by decide, by decide⟩
  refine ⟨s, more, rfl, hgap, ?_⟩
  rw [hlexeme]
  rcases hrule.of_operator rfl with rfl | rfl <;> decide

/-- A lexeme that starts with a point is the point, so the digit behind it starts the next
lexeme. -/
theorem point_of_front (hlast : SkippedToEnd last) (h : render slots last = '.' :: c :: rest)
    (hc : c.isDigit = true) :
    ∃ s t more, slots = s :: t :: more ∧ s.gap = [] ∧ t.gap = [] ∧ s.lexeme = ['.'] ∧
      IsNumber t.lexeme := by
  obtain ⟨s, more, tail, rfl, hgap, hlexeme, ⟨kind, hrule⟩, hmore⟩ :=
    front_of_render hlast h ⟨by decide, by decide⟩
  obtain rfl := hrule.of_punctuator rfl
  obtain ⟨t, more, rfl, hgap', ht⟩ := number_of_front hlast hmore.symm hc
  exact ⟨s, t, more, rfl, hgap, hgap', hlexeme, ht⟩

end Front

/-! ## Running together -/

section Fuses

variable {a : Slot}

/-- The texts that an equals sign extends. -/
theorem mem_heads_iff {text : List Char} :
    text ∈ [['!'], ['='], ['<'], ['>']] ↔
      ∃ c pair, text = [c] ∧ Kind.operator? c = some pair := by
  constructor
  · intro h
    simp only [List.mem_cons, List.not_mem_nil, or_false] at h
    rcases h with rfl | rfl | rfl | rfl <;> exact ⟨_, _, rfl, rfl⟩
  · rintro ⟨c, pair, rfl, h⟩
    unfold Kind.operator? at h
    split at h <;> cases h <;> decide

theorem fuses_of_operator (hlast : SkippedToEnd last) {kind : Kind}
    (hmem : (a.lexeme, kind) ∈ operators) (h : Extends a.lexeme (render slots last)) :
    Fuses (a :: slots) := by
  cases hlexeme : a.lexeme with
  | nil =>
    rw [hlexeme] at hmem
    exact absurd (Rule.operator hmem) not_rule_nil
  | cons c tail =>
    rw [hlexeme] at hmem h
    obtain ⟨alone, extended, hop, ⟨rfl, -⟩ | ⟨rfl, -⟩⟩ := mem_operators.mp hmem
    · obtain ⟨rest, hrest⟩ := (extends_operator hop).mp h
      obtain ⟨b, more, rfl, hgap, hb⟩ := equals_of_front hlast hrest
      refine .equals hgap ?_ hb
      rw [hlexeme]
      exact mem_heads_iff.mpr ⟨c, _, rfl, hop⟩
    · exact absurd h (not_extends_operator hop)

theorem fuses_of_word (hlast : SkippedToEnd last) (hword : IsWord a.lexeme)
    (h : Extends a.lexeme (render slots last)) : Fuses (a :: slots) := by
  obtain ⟨d, rest, hrest, hd | hd⟩ := (extends_word hword).mp h
  · obtain ⟨b, more, rfl, hgap, hb⟩ := word_of_front hlast hrest hd
    exact .word hgap hword (Or.inl hb)
  · obtain ⟨b, more, rfl, hgap, hb⟩ := number_of_front hlast hrest hd
    exact .word hgap hword (Or.inr hb)

theorem fuses_of_number (hlast : SkippedToEnd last) (hnumber : IsNumber a.lexeme)
    (h : Extends a.lexeme (render slots last)) : Fuses (a :: slots) := by
  rcases hnumber with hdigits | ⟨whole, fraction, ha, hwhole, hfraction⟩
  · obtain ⟨d, rest, hd, hrest | hrest⟩ := (extends_digits hdigits).mp h
    · obtain ⟨b, more, rfl, hgap, hb⟩ := number_of_front hlast hrest hd
      exact .number hgap (Or.inl hdigits) hb
    · obtain ⟨b, c, more, rfl, hgap, hgap', hb, hc⟩ := point_of_front hlast hrest hd
      exact .point hgap hgap' hdigits hb hc
  · rw [ha] at h
    obtain ⟨d, rest, hd, hrest⟩ := (extends_fraction hwhole hfraction).mp h
    obtain ⟨b, more, rfl, hgap, hb⟩ := number_of_front hlast hrest hd
    exact .number hgap (Or.inr ⟨whole, fraction, ha, hwhole, hfraction⟩) hb

theorem fuses_of_extends (hlast : SkippedToEnd last)
    (h : Extends a.lexeme (render slots last)) : Fuses (a :: slots) := by
  obtain ⟨kind, hrule⟩ := a.lawful
  generalize hlexeme : a.lexeme = text at hrule
  cases hrule with
  | punctuator hmem =>
    rw [hlexeme] at h
    exact absurd h (not_extends_punctuator hmem)
  | operator hmem => exact fuses_of_operator hlast (hlexeme ▸ hmem) h
  | word hword _ => exact fuses_of_word hlast (hlexeme ▸ hword) h
  | number hnumber => exact fuses_of_number hlast (hlexeme ▸ hnumber) h
  | string hbody =>
    rw [hlexeme] at h
    exact absurd h (not_extends_string hbody)

theorem extends_of_fuses (h : Fuses (a :: slots)) (last : List Char) :
    Extends a.lexeme (render slots last) := by
  cases h with
  | @word _ b more hgap ha hb =>
    rw [extends_word ha]
    rcases hb with hb | hb
    · cases hlexeme : b.lexeme with
      | nil =>
        rw [hlexeme] at hb
        exact hb.elim
      | cons d tail =>
        rw [hlexeme] at hb
        exact ⟨d, _, render_eq_of_front hgap hlexeme last, Or.inl hb.1⟩
    · obtain ⟨d, tail, hlexeme, hd⟩ := exists_cons_of_isNumber hb
      exact ⟨d, _, render_eq_of_front hgap hlexeme last, Or.inr hd⟩
  | @number _ b more hgap ha hb =>
    obtain ⟨d, tail, hlexeme, hd⟩ := exists_cons_of_isNumber hb
    have hrender : render (b :: more) last = d :: (tail ++ render more last) :=
      render_eq_of_front hgap hlexeme last
    rcases ha with hdigits | ⟨whole, fraction, ha, hwhole, hfraction⟩
    · exact (extends_digits hdigits).mpr ⟨d, _, hd, Or.inl hrender⟩
    · rw [ha]
      exact (extends_fraction hwhole hfraction).mpr ⟨d, _, hd, hrender⟩
  | @equals _ b more hgap ha hb =>
    obtain ⟨c, pair, hlexeme, hop⟩ := mem_heads_iff.mp ha
    obtain ⟨tail, hb⟩ : ∃ tail, b.lexeme = '=' :: tail := by
      simp only [List.mem_cons, List.not_mem_nil, or_false] at hb
      rcases hb with hb | hb <;> exact ⟨_, hb⟩
    rw [hlexeme]
    exact (extends_operator hop).mpr ⟨_, render_eq_of_front hgap hb last⟩
  | @point _ b c more hgap hgap' ha hb hc =>
    obtain ⟨d, tail, hlexeme, hd⟩ := exists_cons_of_isNumber hc
    have hrender : render (b :: c :: more) last = '.' :: d :: (tail ++ render more last) := by
      rw [render_eq_of_front hgap hb last, render_eq_of_front hgap' hlexeme last]
      rfl
    exact (extends_digits ha).mpr ⟨d, _, hd, Or.inr hrender⟩

/-- **A lexeme is the longest match in a rendering unless it runs together** with what is behind
it. -/
theorem longest_iff_not_fuses (hlast : SkippedToEnd last) {kind : Kind}
    (hrule : Rule kind a.lexeme) :
    Longest kind a.lexeme (a.lexeme ++ render slots last) ↔ ¬ Fuses (a :: slots) := by
  rw [longest_iff hrule]
  exact not_congr ⟨fuses_of_extends hlast, fun h => extends_of_fuses h last⟩

end Fuses

/-! ## Faithful scans -/

/-- The text of a piece that is a token. -/
def Placed.shown (p : Placed) : Option (List Char) :=
  match p.piece.content with
  | .token _ _ => some p.piece.text
  | _ => none

/-- There are no diagnostics and the lexemes are the given ones if and only if every element is a
token of the text that is its turn. -/
theorem faithful_iff {es : List Placed} (hes : ∀ p ∈ es, p.isElement = true)
    (texts : List (List Char)) :
    es.filterMap Placed.diagnostic? = [] ∧
        (es.filterMap Placed.token?).map Token.lexeme = texts.map String.ofList ↔
      es.map Placed.shown = texts.map some := by
  induction es generalizing texts with
  | nil => cases texts <;> simp
  | cons p es ih =>
    have hp := hes p List.mem_cons_self
    have ih := ih fun q hq => hes q (List.mem_cons_of_mem p hq)
    cases hcontent : p.piece.content with
    | blank => simp [Placed.isElement, hcontent] at hp
    | error e =>
      cases texts <;>
        simp [Placed.diagnostic?, Placed.shown, Placed.item, Piece.item, hcontent]
    | token kind literal =>
      cases texts with
      | nil => simp [Placed.token?, Placed.item, Piece.item, hcontent]
      | cons text texts =>
        have hdiagnostic : p.diagnostic? = none := by
          simp [Placed.diagnostic?, Placed.item, Piece.item, hcontent]
        have htoken : p.token? =
            some (.ofLexeme kind (String.ofList p.piece.text) literal p.span) := by
          simp [Placed.token?, Placed.item, Piece.item, hcontent, Placed.span]
        have hshown : p.shown = some p.piece.text := by simp [Placed.shown, hcontent]
        rw [List.filterMap_cons_none hdiagnostic, List.filterMap_cons_some htoken]
        simp only [List.map_cons, hshown, List.cons.injEq, Option.some.injEq, ← ih]
        constructor
        · rintro ⟨hnone, htext, hrest⟩
          exact ⟨String.ofList_injective htext, hnone, hrest⟩
        · rintro ⟨rfl, hnone, hrest⟩
          exact ⟨hnone, rfl, hrest⟩

theorem longest_of_shown {before text rest : List Char} {c : Char}
    (h : Placed.shown ⟨before, (Piece.first c rest).1⟩ = some text) :
    ∃ kind, Longest kind text (c :: rest) := by
  have hcorrect := Piece.correct_first c rest
  cases hcontent : (Piece.first c rest).1.content with
  | blank => simp [Placed.shown, hcontent] at h
  | error e => simp [Placed.shown, hcontent] at h
  | token kind literal =>
    rw [Piece.Correct, hcontent] at hcorrect
    obtain rfl : (Piece.first c rest).1.text = text := by simpa [Placed.shown, hcontent] using h
    exact ⟨kind, hcorrect.1⟩

/-- **Scanning a rendering shows its lexemes** if and only if no two of them run together. -/
theorem shown_render_iff (hlast : SkippedToEnd last) (before : List Char) :
    (elements before (render slots last)).map Placed.shown =
        (slots.map Slot.lexeme).map some ↔
      ∀ tail, tail <:+ slots → ¬ Fuses tail := by
  induction slots generalizing before with
  | nil =>
    rw [render, elements_skippedToEnd hlast]
    refine ⟨fun _ tail htail hfuses => ?_, fun _ => rfl⟩
    rw [List.suffix_nil.mp htail] at hfuses
    cases hfuses
  | cons s slots ih =>
    obtain ⟨kind, hrule⟩ := s.lawful
    have hfuses : Longest kind s.lexeme (s.lexeme ++ render slots last) ↔ ¬ Fuses (s :: slots) :=
      longest_iff_not_fuses hlast hrule
    obtain ⟨c, tail, hlexeme⟩ : ∃ c tail, s.lexeme = c :: tail := by
      cases hlexeme : s.lexeme with
      | nil =>
        rw [hlexeme] at hrule
        exact absurd hrule not_rule_nil
      | cons c tail => exact ⟨c, tail, rfl⟩
    rw [hlexeme] at hrule hfuses
    rw [render, elements_skipped s.skipped, hlexeme, List.cons_append,
      elements_cons hrule.startsElement, List.map_cons, List.map_cons, List.map_cons, hlexeme,
      List.cons.injEq]
    constructor
    · -- The first lexeme is what was taken, so what is left is what was written behind it.
      rintro ⟨hfirst, hrest⟩
      obtain ⟨other, hlongest⟩ := longest_of_shown hfirst
      obtain ⟨literal, htaken⟩ := first_of_longest hlongest
      rw [htaken] at hrest
      intro more hmore
      rcases List.suffix_cons_iff.mp hmore with rfl | hmore
      · obtain rfl := hlongest.rule.kind_unique hrule
        exact hfuses.mp hlongest
      · exact (ih _).mp hrest more hmore
    · intro hnone
      have hlongest := hfuses.mpr (hnone _ List.suffix_rfl)
      obtain ⟨literal, htaken⟩ := first_of_longest hlongest
      rw [htaken]
      refine ⟨rfl, (ih _).mpr ?_⟩
      intro more hmore
      exact hnone more (hmore.trans (List.suffix_cons s slots))

/-- **Rendering and scanning again is the identity, exactly if nothing runs together.** -/
theorem tokenize_render (hlast : SkippedToEnd last) (hfit : LinesFit (render slots last)) :
    ∃ scanned, tokenize (String.ofList (render slots last)) = .ok scanned ∧
      (scanned.diagnostics = [] ∧
          (scanned.tokens.filter fun t => !t.isEnd).map Token.lexeme =
            (slots.map Slot.lexeme).map String.ofList ↔
        ¬ ∃ tail, tail <:+ slots ∧ Fuses tail) := by
  have hsource : (String.ofList (render slots last)).toList = render slots last :=
    String.toList_ofList
  refine ⟨_, tokenize_elements (by rwa [hsource]), ?_⟩
  rw [filter_tokens, hsource]
  dsimp only
  rw [faithful_iff fun p hp => isElement_of_mem hp, shown_render_iff hlast]
  constructor
  · rintro hnone ⟨tail, htail, hfuses⟩
    exact hnone tail htail hfuses
  · intro hnone tail htail hfuses
    exact hnone ⟨tail, htail, hfuses⟩

end Render

/-- `let 1.2` with no gap around the point, which is why its last three lexemes run together. -/
def pointed : List Slot :=
  [⟨[], ['l', 'e', 't'], .nil, _, .word (by decide) (isWordKind_ofWord _)⟩,
    ⟨[' '], ['1'], .blank (by decide) .nil, _, .number (Or.inl (by decide))⟩,
    ⟨[], ['.'], .nil, .dot, .punctuator (by decide)⟩,
    ⟨[], ['2'], .nil, _, .number (Or.inl (by decide))⟩]

theorem tokenize_render_pointed :
    SkippedToEnd ['#'] ∧ LinesFit (render pointed ['#']) ∧
      ∃ scanned, tokenize (String.ofList (render pointed ['#'])) = .ok scanned ∧
        (scanned.diagnostics = [] ∧
            (scanned.tokens.filter fun t => !t.isEnd).map Token.lexeme =
              (pointed.map Slot.lexeme).map String.ofList ↔
          ¬ ∃ tail, tail <:+ pointed ∧ Fuses tail) :=
  ⟨.unclosed .nil (by decide), by decide,
    tokenize_render (.unclosed .nil (by decide)) (by decide)⟩

end Lexical
