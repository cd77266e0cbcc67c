import Mathlib.Data.Nat.Digits.Lemmas
import Wiretap.Text.Hex

/-! Digits to base sixteen and what they stand for. Two digits are written for a byte and read back
as that byte, and the numeral of a number has its digits in order, behind as many zeros as its
least width asks for. -/

set_option autoImplicit false

namespace Wiretap.Text.Hex

def upperDigits : List Char := "0123456789ABCDEF".toList

def numeral (width n : Nat) : List Char :=
  ((Nat.digits 16 n).reverse.leftpad width 0).map upperDigit

theorem upperDigit_at {n : Nat} (h : n < 16) : upperDigits[n]? = some (upperDigit n) := by
  revert n
  decide

theorem upperDigit_mem {n : Nat} (h : n < 16) : upperDigit n ∈ upperDigits :=
  List.mem_of_getElem? (upperDigit_at h)

theorem digit_upperDigit {n : Nat} (h : n < 16) : digit? (upperDigit n) = some n := by
  revert n
  decide

theorem digitsOnto_digits {n : Nat} (digit : Nat → Char) (tail : List Char) (h : 0 < n) :
    digitsOnto digit n tail = (Nat.digits 16 n).reverse.map digit ++ tail := by
  fun_induction digitsOnto digit n tail with
  | case1 n tail hn =>
    rw [Nat.digits_of_lt 16 n h.ne' hn]
    rfl
  | case2 n tail hn ih =>
    rw [ih (by omega), Nat.digits_def' (by decide) h]
    simp

theorem digitsOnto_length {width n : Nat} (digit : Nat → Char) (hwidth : 0 < width)
    (hn : n < 16 ^ width) : (digitsOnto digit n []).length ≤ width := by
  obtain rfl | hpos := Nat.eq_zero_or_pos n
  · rw [digitsOnto, dif_pos (by decide)]
    exact hwidth
  · rw [digitsOnto_digits digit [] hpos, List.append_nil, List.length_map, List.length_reverse]
    exact (Nat.digits_length_le_iff (by decide) n).mpr hn

/-- Zero has no digits of its own, so it takes the first from the padding. -/
theorem upperNat_numeral {width : Nat} (n : Nat) (h : 0 < width) :
    upperNat width n = numeral width n := by
  obtain rfl | hn := Nat.eq_zero_or_pos n
  · obtain ⟨w, rfl⟩ : ∃ w, width = w + 1 := ⟨width - 1, by omega⟩
    have hone : digitsOnto upperDigit 0 [] = ['0'] := by
      rw [digitsOnto, dif_pos (by decide)]
      rfl
    rw [upperNat, hone, padded, numeral, List.leftpad, List.map_append, List.map_replicate]
    exact List.replicate_succ'.symm.trans (List.append_nil _).symm
  · rw [upperNat, digitsOnto_digits _ _ hn, List.append_nil, padded, List.length_map, numeral,
      List.leftpad, List.map_append, List.map_replicate]
    rfl

theorem numeral_length (width n : Nat) :
    (numeral width n).length = max width (Nat.digits 16 n).length := by
  rw [numeral, List.length_map, List.length_leftpad, List.length_reverse]

theorem mem_numeral {width n : Nat} {c : Char} (h : c ∈ numeral width n) : c ∈ upperDigits := by
  obtain ⟨d, hd, rfl⟩ := List.mem_map.mp h
  apply upperDigit_mem
  simp only [List.leftpad, List.mem_append, List.mem_replicate, List.mem_reverse] at hd
  obtain ⟨-, rfl⟩ | hd := hd
  · decide
  · exact Nat.digits_lt_base (by decide) hd

theorem upperNat_two {n : Nat} (h : n < 256) :
    upperNat 2 n = [upperDigit (n / 16), upperDigit (n % 16)] := by
  rw [upperNat, digitsOnto]
  split
  · next hn =>
    rw [Nat.div_eq_of_lt hn, Nat.mod_eq_of_lt hn]
    rfl
  · rw [digitsOnto, dif_pos (by omega)]
    rfl

theorem readFrom_upper (seen bs : List UInt8) :
    readFrom seen (bs.flatMap upperByte) = some (seen.reverse ++ bs) := by
  induction bs generalizing seen with
  | nil => simp [readFrom]
  | cons b bs ih =>
    have hb := b.toNat_lt
    simp only [List.flatMap_cons, upperByte, List.cons_append, List.nil_append, readFrom,
      digit_upperDigit (show b.toNat / 16 < 16 by omega),
      digit_upperDigit (show b.toNat % 16 < 16 by omega), ih, Nat.div_add_mod, UInt8.ofNat_toNat,
      List.reverse_cons, List.append_assoc]

theorem read_upper (bs : List UInt8) : read? (bs.flatMap upperByte) = some bs :=
  readFrom_upper [] bs

end Wiretap.Text.Hex
