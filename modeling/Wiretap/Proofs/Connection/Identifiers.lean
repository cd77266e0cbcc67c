import Wiretap.Identifier
import Wiretap.Proofs.Text.Digits

/-! An identifier is written with thirty-two digits, zeros in front included. The five groups of
the written form are cut from them at fixed places, and reading puts them together again. -/

set_option autoImplicit false

namespace Wiretap.ConnectionId
open Wiretap.Text

section
variable {n : Nat} {ds : List Char}

def valueAfter (n : Nat) (ds : List Char) : Option Nat :=
  ds.foldl (fun acc c => do return 16 * (← acc) + (← Hex.digit? c)) (some n)

theorem valueAfter_cons {d : Nat} (h : d < 16) (ds : List Char) :
    valueAfter n (Hex.lowerDigit d :: ds) = valueAfter (16 * n + d) ds := by
  have hdigit : Hex.digit? (Hex.lowerDigit d) = some d := by
    revert d
    decide
  rw [valueAfter, List.foldl_cons, hdigit]
  rfl

theorem valueAfter_digits (n : Nat) (tail : List Char) :
    valueAfter 0 (Hex.digitsOnto Hex.lowerDigit n tail) = valueAfter n tail := by
  fun_induction Hex.digitsOnto Hex.lowerDigit n tail with
  | case1 n tail hn => rw [valueAfter_cons hn, Nat.mul_zero, Nat.zero_add]
  | case2 n tail hn ih => rw [ih, valueAfter_cons (Nat.mod_lt _ (by decide)), Nat.div_add_mod]

theorem valueAfter_zeros (count : Nat) (ds : List Char) :
    valueAfter 0 (List.replicate count '0' ++ ds) = valueAfter 0 ds := by
  induction count with
  | zero => rfl
  | succ count ih => exact (valueAfter_cons (d := 0) (by decide) _).trans ih

theorem digits_length (id : ConnectionId) : id.digits.length = 32 := by
  have hshort : (Hex.lowerNat id.bits.toNat).length ≤ 32 :=
    Hex.digitsOnto_length Hex.lowerDigit (by decide) id.bits.isLt
  rw [digits, Hex.padded, List.length_append, List.length_replicate]
  omega

theorem readPlain_digits (id : ConnectionId) : readPlain id.digits = some id := by
  have hvalue : valueOf id.digits = some id.bits.toNat :=
    (valueAfter_zeros _ _).trans (valueAfter_digits _ [])
  rw [readPlain, if_pos (digits_length id), hvalue, Option.map_some, ofNat, BitVec.ofNat_toNat,
    BitVec.setWidth_eq]

theorem grouped (h : ds.length = 32) : ∃ a b c d e : List Char, ds = a ++ (b ++ (c ++ (d ++ e))) ∧
    a.length = 8 ∧ b.length = 4 ∧ c.length = 4 ∧ d.length = 4 ∧ e.length = 12 := by
  refine ⟨slice ds 0 8, slice ds 8 4, slice ds 12 4, slice ds 16 4, ds.drop 20, ?_, ?_⟩
  · have hjoin (i k : Nat) : slice ds i k ++ ds.drop (i + k) = ds.drop i := by
      rw [slice, ← List.drop_drop, List.take_append_drop]
    rw [hjoin 16 4, hjoin 12 4, hjoin 8 4, hjoin 0 8, List.drop_zero]
  · simp [slice, h]

theorem readDashed_dashed (h : ds.length = 32) : readDashed (dashed ds) = readPlain ds := by
  obtain ⟨a, b, c, d, e, rfl, ha, hb, hc, hd, he⟩ := grouped h
  have hlast : e.take 12 = e := List.take_of_length_le (Nat.le_of_eq he)
  have hdashed : dashed (a ++ (b ++ (c ++ (d ++ e)))) =
      a ++ '-' :: (b ++ '-' :: (c ++ '-' :: (d ++ '-' :: e))) := by
    simp [dashed, slice, List.drop_append, List.drop_of_length_le, ha, hb, hc, hd, hlast]
  -- The groups are looked for where the dashes have moved them.
  rw [readDashed, hdashed]
  simp [slice, List.drop_append, List.drop_of_length_le, hdashed, ha, hb, hc, hd, hlast]

theorem read_chars (id : ConnectionId) : read? id.chars = some id := by
  have hlength : id.chars.length = 36 := by
    simp [chars, dashed, slice, digits_length]
  rw [read?, if_neg (by omega), if_pos hlength, chars, readDashed_dashed (digits_length id),
    readPlain_digits]

end
end Wiretap.ConnectionId
