import Lexical.Proofs.Cursor.Reading
import Lexical.Proofs.Scan.Run

/-!
# When a scan returns

A scan whose handler collects returns if the lines of its source can be numbered (`tokenize_eq`). It
returns in no other case: whatever an item is, its characters are read one after the other, so a scan
that comes to the end has counted every line break on its way. With that, a statement about a result
needs no word about lines.
-/

set_option autoImplicit false

namespace Lexical

open Cursor

/-- A scan that returns has read its source to the end. -/
theorem Scan.exists_end_of_toEnd {s : Scan} {tokens : List Token}
    (h : s.toEnd.result = .ok tokens) : ∃ c, ReadsTo s.cursor c ∧ c.isAtEnd = true := by
  fun_induction toEnd s with
  | case1 s hend => exact ⟨s.cursor, .here, hend⟩
  | case2 s hend fault hread => cases h
  | case3 s hend next hread ih =>
    obtain ⟨c, hc, hcend⟩ := ih h
    exact ⟨c, (Item.read_readsTo hread).trans hc, hcend⟩
  | case4 s hend t next hread ih =>
    obtain ⟨c, hc, hcend⟩ := ih h
    exact ⟨c, (Item.read_readsTo hread).trans hc, hcend⟩
  | case5 s hend e span next hread noted fault hemit => cases h
  | case6 s hend e span next hread noted handler hemit ih =>
    obtain ⟨c, hc, hcend⟩ := ih h
    exact ⟨c, (Item.read_readsTo hread).trans hc, hcend⟩

theorem linesFit_of_result {source : String} {h : Handler} {tokens : List Token}
    (hresult : (Scan.run source h).result = .ok tokens) : LinesFit source.toList := by
  obtain ⟨c, hreads, hend⟩ := Scan.exists_end_of_toEnd hresult
  have hstart : ReadsTo (cut [] source.toList) c := ofSource_eq_cut source ▸ hreads
  obtain ⟨text, rest, hsource, rfl, hline⟩ := hstart.exists_cut (by decide)
  rw [isAtEnd_cut, List.isEmpty_iff] at hend
  subst hend
  rw [hsource, List.append_nil]
  rw [List.nil_append] at hline
  exact Nat.lt_of_succ_le (by rwa [Nat.succ_eq_one_add])

/-- **A scan returns exactly if the lines of its source can be numbered.** -/
theorem tokenize_returns_iff {source : String} :
    (∃ s, tokenize source = .ok s) ↔ LinesFit source.toList := by
  constructor
  · rintro ⟨s, hs⟩
    obtain ⟨tokens, hresult, -⟩ := Fault.map_eq_ok_iff.mp hs
    exact linesFit_of_result hresult
  · exact fun hfit => ⟨_, tokenize_eq hfit⟩

end Lexical
