import Mathlib.Data.Nat.Digits.Lemmas
import Wiretap.Proofs.Packet.Dump

/-! An offset has at least four digits and takes as many as it needs, so the columns of a dump
stand where the offset of their line ends. They are aligned as long as four digits are enough, and
after that only between offsets of one length. -/

set_option autoImplicit false

namespace Wiretap.HexDump
open Wiretap.Text

def offsetWidth (k : Nat) : Nat := max 4 (Nat.digits 16 (16 * k)).length

structure Placed (bs : Bytes) (column sidebar k : Nat) (line : List Char) : Prop where
  before : line.take column = Hex.numeral 4 (16 * k) ++ [':', ' ']
  digits : (line.drop column).take 49 = hexColumn (piece bs k)
  after : line.drop sidebar = (piece bs k).map shown

def Aligned (bs : Bytes) : Prop :=
  ∃ column sidebar, ∀ k line, (linesOf (text bs))[k]? = some line → Placed bs column sidebar k line

def Even (bs : Bytes) : Prop :=
  ∃ length, ∀ k line, (linesOf (text bs))[k]? = some line → (piece bs k).length = lineWidth →
    line.length = length

structure Columned (bs : Bytes) : Prop where
  placed : ∀ k line, (linesOf (text bs))[k]? = some line →
    Placed bs (offsetWidth k + 2) (offsetWidth k + 52) k line
  length : ∀ k line, (linesOf (text bs))[k]? = some line →
    line.length = offsetWidth k + 52 + (piece bs k).length
  aligned : Aligned bs ↔ bs.length ≤ 65536
  even : Even bs ↔ bs.length < 65552

section
variable {bs : Bytes} {k : Nat} {line : List Char}

theorem offsetWidth_four : offsetWidth k = 4 ↔ k < 4096 := by
  have hdigits : (Nat.digits 16 (16 * k)).length ≤ 4 ↔ 16 * k < 16 ^ 4 :=
    Nat.digits_length_le_iff (by decide) _
  rw [offsetWidth]
  omega

theorem offsetWidth_differs : offsetWidth 0 ≠ offsetWidth 4096 := by
  have hfour : offsetWidth 0 = 4 := offsetWidth_four.mpr (by decide)
  have hfive : offsetWidth 4096 ≠ 4 := fun h => absurd (offsetWidth_four.mp h) (by decide)
  omega

theorem line_at (h : (linesOf (text bs))[k]? = some line) :
    line = body k (piece bs k) ∧ 16 * k < bs.length := by
  rw [linesOf_text, bodies, List.getElem?_map] at h
  obtain ⟨i, hi, rfl⟩ := Option.map_eq_some_iff.mp h
  obtain rfl := range_at hi
  obtain ⟨hlt, -⟩ := List.getElem?_eq_some_iff.mp hi
  rw [List.length_range] at hlt
  exact ⟨rfl, by omega⟩

theorem line_of (h : 16 * k < bs.length) :
    (linesOf (text bs))[k]? = some (body k (piece bs k)) := by
  rw [linesOf_text, bodies, List.getElem?_map, List.getElem?_range (by omega), Option.map_some]

theorem offsetText_eq (k : Nat) : offsetText k = Hex.numeral 4 (16 * k) :=
  Hex.upperNat_numeral _ (by decide)

theorem offset_length (k : Nat) : (offsetText k ++ [':', ' ']).length = offsetWidth k + 2 := by
  rw [offsetText_eq, List.length_append, Hex.numeral_length]
  rfl

theorem body_parts (k : Nat) (bytes : Bytes) :
    body k bytes =
      (offsetText k ++ [':', ' ']) ++ (hexColumn bytes ++ ([' '] ++ sidebar bytes)) := by
  simp only [body, List.append_assoc]

theorem body_length (k : Nat) (bytes : Bytes) :
    (body k bytes).length = offsetWidth k + 52 + bytes.length := by
  rw [body_parts, List.length_append, offset_length, List.length_append, hexColumn_length,
    List.length_append, sidebar_eq, List.length_map, List.length_singleton]
  omega

theorem body_placed (bs : Bytes) (k : Nat) :
    Placed bs (offsetWidth k + 2) (offsetWidth k + 52) k (body k (piece bs k)) := by
  have hoffset := offset_length k
  exact {
    before := by rw [body_parts, List.take_left' hoffset, offsetText_eq]
    digits := by rw [body_parts, List.drop_left' hoffset, List.take_left' (hexColumn_length _)]
    after := by
      rw [body_parts, ← List.append_assoc, ← List.append_assoc, List.drop_left', sidebar_eq]
      rw [List.length_append, List.length_append, hoffset, hexColumn_length]
      rfl }

theorem placed_column {column sidebar : Nat}
    (h : Placed bs column sidebar k (body k (piece bs k))) : column = offsetWidth k + 2 := by
  have hbefore := congrArg List.length h.before
  rw [List.length_take, body_length, List.length_append, Hex.numeral_length] at hbefore
  change _ = offsetWidth k + 2 at hbefore
  omega

theorem aligned_iff (bs : Bytes) : Aligned bs ↔ bs.length ≤ 65536 := by
  constructor
  · rintro ⟨column, sidebar, h⟩
    by_contra hlong
    have hdiffers := offsetWidth_differs
    have hfirst := placed_column (h 0 _ (line_of (by omega)))
    have hlate := placed_column (h 4096 _ (line_of (by omega)))
    omega
  · intro hshort
    refine ⟨6, 56, fun k line h => ?_⟩
    obtain ⟨rfl, hk⟩ := line_at h
    have hplaced := body_placed bs k
    rwa [offsetWidth_four.mpr (by omega)] at hplaced

theorem even_iff (bs : Bytes) : Even bs ↔ bs.length < 65552 := by
  constructor
  · rintro ⟨length, h⟩
    by_contra hlong
    have hdiffers := offsetWidth_differs
    have hfull (k : Nat) (hk : k ≤ 4096) : offsetWidth k + 68 = length := by
      have hpiece : (piece bs k).length = lineWidth := by
        rw [piece, List.length_take, List.length_drop, lineWidth]
        omega
      rw [← h k _ (line_of (by omega)) hpiece, body_length, hpiece, lineWidth]
    have hfirst := hfull 0 (by decide)
    have hlate := hfull 4096 (by decide)
    omega
  · intro hshort
    refine ⟨72, fun k line h hpiece => ?_⟩
    obtain ⟨rfl, -⟩ := line_at h
    have hk : k < 4096 := by
      rw [piece, List.length_take, List.length_drop, lineWidth] at hpiece
      omega
    rw [body_length, offsetWidth_four.mpr hk, hpiece, lineWidth]

end

/-- The columns of a line stand behind its offset, whose width grows with it: all lines are aligned
exactly up to 65536 bytes, and all full lines are of one length until the first full one at an
offset of five digits. -/
theorem dump_columned (bs : Bytes) : Columned bs where
  placed := by
    intro k line h
    obtain ⟨rfl, -⟩ := line_at h
    exact body_placed bs k
  length := by
    intro k line h
    obtain ⟨rfl, -⟩ := line_at h
    exact body_length k _
  aligned := aligned_iff bs
  even := even_iff bs

/-- A dump of 65552 bytes has a full line whose columns stand one place further right. -/
theorem long_dump_shifts :
    ¬ Aligned (List.replicate 65552 0) ∧ ¬ Even (List.replicate 65552 0) := by
  rw [aligned_iff, even_iff, List.length_replicate]
  decide

end Wiretap.HexDump
