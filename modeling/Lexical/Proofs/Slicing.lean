import Lexical.Proofs.Cursor.Reading
import Lexical.Proofs.Text.Boundary
import Lexical.Span

/-!
# Two ways to cut a source

A diagnostic shows the text of its span, and nobody has promised that the span fits the source it is
shown from: `Span.slice` answers with the empty text where it does not. A cursor cuts out what it has
read, and offsets that do not fit are a mistake of whoever asks: `Cursor.sliceFrom` is a fault there.

`Span.Slices` says of every span and every source what comes out, in bytes, and `Cursor.SlicesFrom` says
when a cursor fails and that it finds the text of the span otherwise. A cursor needs one thing for that,
to stand between two characters, and it does so wherever a script leads (`exists_cut_performAll`).
-/

set_option autoImplicit false

namespace Lexical

open Text

/-- What a span cuts out of a source: all bytes between its offsets, or nothing where these enclose no
part of the source. -/
structure Span.Slices (source : String) (s : Span) : Prop where
  bytes_slice : Encloses source s.start s.stop →
    bytes (s.slice source) = (bytes source).extract s.start s.stop
  size_slice : Encloses source s.start s.stop →
    (s.slice source).utf8ByteSize = s.stop - s.start
  length_eq : Encloses source s.start s.stop → s.length = .ok (s.slice source).utf8ByteSize
  slice_empty : ¬ Encloses source s.start s.stop → s.slice source = ""

/-- What a cursor cuts out of the source it reads, from an offset up to where it stands. Whatever it
finds is the text of the span, and with the text ahead of the cursor it is the rest of the source. -/
structure Cursor.SlicesFrom (source : String) (c : Cursor) (start : Nat) : Prop where
  fails_iff : (∃ fault, c.sliceFrom start = .error fault) ↔
    c.position < start ∨ ¬ BetweenCharacters (bytes source) start
  returns : start ≤ c.position → BetweenCharacters (bytes source) start → ∃ text ahead,
    c.sliceFrom start = .ok text ∧ c.remaining = .ok ahead ∧
      (∀ line, Span.slice ⟨start, c.position, line⟩ source = text) ∧
      bytes (text ++ ahead) = (bytes source).drop start

namespace Span

variable {source text : String} {s : Span}

theorem slice_of_slice? (h : slice? source s.start s.stop = some text) : s.slice source = text := by
  rw [slice, h, Option.getD_some]

/-- **A span cuts out the bytes between its offsets**, if there is such a part of the source. -/
theorem slices (source : String) (s : Span) : s.Slices source := by
  by_cases hfits : Encloses source s.start s.stop
  · obtain ⟨text, htext⟩ := hfits.exists_slice?
    have hslice : s.slice source = text := slice_of_slice? htext
    have hsize : text.utf8ByteSize = s.stop - s.start := size_of_slice? htext
    constructor
    case bytes_slice =>
      intro _
      rw [hslice]
      exact bytes_of_slice? htext
    case size_slice =>
      intro _
      rw [hslice]
      exact hsize
    case length_eq =>
      intro _
      rw [hslice, hsize, length, if_pos hfits.ordered]
    case slice_empty => exact fun hmisfit => absurd hfits hmisfit
  · have hnone : slice? source s.start s.stop = none := slice?_eq_none_iff.mpr hfits
    constructor
    case slice_empty =>
      intro _
      rw [slice, hnone, Option.getD_none]
    all_goals exact fun h => absurd h hfits

example : (⟨1, 2, 1⟩ : Span).slice "é" = "" := by decide

end Span

namespace Cursor

variable {c : Cursor} {start : Nat} {text : String}

theorem sliceFrom_of_slice? (h : slice? c.source start c.position = some text) :
    c.sliceFrom start = .ok text := by
  rw [sliceFrom, h]

theorem sliceFrom_fails_iff :
    (∃ fault, c.sliceFrom start = .error fault) ↔ ¬ Encloses c.source start c.position := by
  rw [← slice?_eq_none_iff, sliceFrom]
  cases slice? c.source start c.position with
  | none => simp
  | some text => simp

theorem encloses_position_iff (hplace : BetweenCharacters (bytes c.source) c.position) :
    Encloses c.source start c.position ↔
      start ≤ c.position ∧ BetweenCharacters (bytes c.source) start := by
  constructor
  · rintro ⟨hle, -, hstart, -⟩
    exact ⟨hle, hstart⟩
  · rintro ⟨hle, hstart⟩
    exact ⟨hle, hplace.within, hstart, hplace⟩

/-- A cursor that stands between two characters has the rest of its source in front of it. -/
theorem exists_remaining (hplace : BetweenCharacters (bytes c.source) c.position) :
    ∃ ahead, c.remaining = .ok ahead ∧ bytes ahead = (bytes c.source).drop c.position := by
  have hfits : Encloses c.source c.position c.source.utf8ByteSize :=
    ⟨hplace.within, Nat.le_refl _, hplace, betweenCharacters_end c.source⟩
  obtain ⟨ahead, hahead⟩ := hfits.exists_slice?
  refine ⟨ahead, by rw [remaining, hahead], ?_⟩
  have hbytes := bytes_append_of_slice? hahead
  rwa [← length_bytes, List.drop_length, List.append_nil] at hbytes

/-- **A cursor between two characters cuts as the span does**, and fails where the span is empty for
not fitting. -/
theorem slicesFrom (hplace : BetweenCharacters (bytes c.source) c.position) (start : Nat) :
    c.SlicesFrom c.source start := by
  constructor
  case fails_iff =>
    rw [sliceFrom_fails_iff, encloses_position_iff hplace, Classical.not_and_iff_not_or_not,
      Nat.not_le]
  case returns =>
    intro hle hstart
    obtain ⟨text, htext⟩ := ((encloses_position_iff hplace).mpr ⟨hle, hstart⟩).exists_slice?
    obtain ⟨ahead, hahead, hbytes⟩ := exists_remaining hplace
    refine ⟨text, ahead, sliceFrom_of_slice? htext, hahead, ?_, ?_⟩
    · exact fun line => Span.slice_of_slice? htext
    · rw [bytes_append, hbytes]
      exact bytes_append_of_slice? htext

/-- **The two ways to cut agree.** A span has the text between its offsets or none, and a cursor cuts as
a span does, wherever a script leads. -/
theorem performAll_slices {σ : Type} (source : String) (script : List (Op σ)) :
    (∀ span : Span, span.Slices source) ∧
      ∀ start, (Bookmarked.performAll (.ofSource source) script).cursor.SlicesFrom source start := by
  refine ⟨Span.slices source, fun start => ?_⟩
  obtain ⟨before, after, hsource, hcut, -⟩ := Bookmarked.exists_cut_performAll source script
  have htext : source = String.ofList (before ++ after) := by rw [hsource, String.ofList_toList]
  have hplace := isBoundary_iff_betweenCharacters.mp (isBoundary_width before after)
  rw [hcut, htext]
  exact slicesFrom (c := cut before after) hplace start

end Cursor
end Lexical
