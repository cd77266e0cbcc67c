import Mathlib.Data.List.Forall2
import Wiretap.Packet.Rendering
import Wiretap.Proofs.Text.Digits
import Wiretap.Proofs.Text.Encoding

/-! What the display text of a payload shows. A payload that is no UTF-8 is read as Latin-1, and
both readings escape the same characters. Nothing that had to be escaped is left in a display
text, so it shows as itself when it is shown again. -/

set_option autoImplicit false

namespace Wiretap.Packet
open Wiretap.Text

def Unsafe (c : Char) : Prop :=
  (c.toNat ≤ 0x1F ∨ 0x7F ≤ c.toNat ∧ c.toNat ≤ 0x9F) ∧ c ≠ '\t' ∧ c ≠ '\n' ∧ c ≠ '\r'

instance : DecidablePred Unsafe := fun c =>
  inferInstanceAs (Decidable ((c.toNat ≤ 0x1F ∨ 0x7F ≤ c.toNat ∧ c.toNat ≤ 0x9F) ∧
    c ≠ '\t' ∧ c ≠ '\n' ∧ c ≠ '\r'))

inductive Shown (c : Char) : List Char → Prop where
  | itself : ¬ Unsafe c → Shown c [c]
  | escaped {high low : Char} : Unsafe c → Hex.upperDigits[c.toNat / 16]? = some high →
      Hex.upperDigits[c.toNat % 16]? = some low → Shown c ['\\', 'x', high, low]

def Shows (text : String) (cs : List Char) : Prop :=
  ∃ pieces, List.Forall₂ Shown cs pieces ∧ text.toList = pieces.flatten

def latin (b : UInt8) : Char := Char.ofNat b.toNat

structure Displayed (bs : Bytes) : Prop where
  safe : ∀ c ∈ (displayText bs).toList, ¬ Unsafe c
  stable : displayText (displayText bs).toUTF8.data.toList = displayText bs
  utf8 (s : String) : s.toUTF8 = bs.toByteArray → Shows (displayText bs) s.toList
  latin1 : ¬ bs.toByteArray.IsValidUTF8 → Shows (displayText bs) (bs.map latin)
  unchanged (s : String) : s.toUTF8 = bs.toByteArray → (∀ c ∈ s.toList, ¬ Unsafe c) →
    displayText bs = s

section
variable {c : Char} {b : UInt8} {bs : Bytes} {piece : List Char}

theorem latin_toNat (b : UInt8) : (latin b).toNat = b.toNat :=
  have := b.toNat_lt
  Utf8.toNat_ofNat_valid (.inl (by omega))

theorem escapes_iff (c : Char) : (isControl c && !isLineChar c) = true ↔ Unsafe c := by
  simp [isControl, isLineChar, Unsafe, and_assoc]

theorem unsafe_lt (h : Unsafe c) : c.toNat < 256 := by
  have := h.1
  omega

theorem displayChar_escapes (h : Unsafe c) : displayChar c = escaped c.toNat :=
  if_pos ((escapes_iff c).mpr h)

theorem displayChar_plain (h : ¬ Unsafe c) : displayChar c = [c] :=
  if_neg (mt (escapes_iff c).mp h)

theorem unsafe_latin (b : UInt8) : Unsafe (latin b) ↔
    (b.toNat ≤ 0x1F ∨ 0x7F ≤ b.toNat ∧ b.toNat ≤ 0x9F) ∧
    b.toNat ≠ 9 ∧ b.toNat ≠ 10 ∧ b.toNat ≠ 13 := by
  simp only [Unsafe, ne_eq, ← Char.toNat_inj, latin_toNat]
  rfl

theorem plainByte_iff (b : UInt8) :
    (isLineByte b || isPrintableByte b || 0xA0 ≤ b) = true ↔ ¬ Unsafe (latin b) := by
  simp only [isLineByte, isPrintableByte, unsafe_latin, Bool.or_eq_true, Bool.and_eq_true,
    beq_iff_eq, decide_eq_true_eq, UInt8.le_iff_toNat_le, ← UInt8.toNat_inj, UInt8.reduceToNat]
  omega

/-- The test of a byte by its ranges and that of its character escape the same. -/
theorem displayByte_eq (b : UInt8) : displayByte b = displayChar (latin b) := by
  by_cases h : Unsafe (latin b)
  · rw [displayChar_escapes h, displayByte, if_neg (fun hb => (plainByte_iff b).mp hb h),
      latin_toNat]
  · rw [displayChar_plain h, displayByte, if_pos ((plainByte_iff b).mpr h), latin]

theorem displayChar_shown (c : Char) : Shown c (displayChar c) := by
  by_cases h : Unsafe c
  · have hc := unsafe_lt h
    rw [displayChar_escapes h, escaped, Hex.upperNat_two hc]
    exact .escaped h (Hex.upperDigit_at (by omega)) (Hex.upperDigit_at (by omega))
  · rw [displayChar_plain h]
    exact .itself h

theorem digit_safe (h : c ∈ Hex.upperDigits) : ¬ Unsafe c := by
  have hall : Hex.upperDigits.all (¬ Unsafe ·) = true := by decide
  exact of_decide_eq_true (List.all_eq_true.mp hall c h)

theorem shown_safe (h : Shown c piece) : ∀ d ∈ piece, ¬ Unsafe d := by
  cases h with
  | itself h => simpa using h
  | escaped h hhigh hlow =>
    have hbackslash : ¬ Unsafe '\\' := by decide
    have hx : ¬ Unsafe 'x' := by decide
    have hhigh := digit_safe (List.mem_of_getElem? hhigh)
    have hlow := digit_safe (List.mem_of_getElem? hlow)
    simp [hbackslash, hx, hhigh, hlow]

def charsOf (bs : Bytes) : List Char := (Utf8.decode? bs).getD (bs.map latin)

theorem displayChars_eq (bs : Bytes) : displayChars bs = (charsOf bs).flatMap displayChar := by
  unfold displayChars charsOf
  cases Utf8.decode? bs with
  | some cs => rfl
  | none =>
    rw [funext displayByte_eq, Option.getD_none, List.flatMap_map]

theorem displayed_safe (bs : Bytes) : ∀ c ∈ displayChars bs, ¬ Unsafe c := by
  intro c hc
  rw [displayChars_eq] at hc
  obtain ⟨d, -, hd⟩ := List.mem_flatMap.mp hc
  exact shown_safe (displayChar_shown d) c hd

theorem display_plain {cs : List Char} (h : ∀ c ∈ cs, ¬ Unsafe c) :
    cs.flatMap displayChar = cs := by
  induction cs with
  | nil => rfl
  | cons c cs ih =>
    rw [List.flatMap_cons, displayChar_plain (h c (List.mem_cons_self ..)),
      ih fun d hd => h d (List.mem_cons_of_mem _ hd), List.singleton_append]

theorem displayText_shows (bs : Bytes) : Shows (displayText bs) (charsOf bs) := by
  refine ⟨(charsOf bs).map displayChar, ?_, ?_⟩
  · rw [List.forall₂_map_right_iff]
    exact List.forall₂_same.mpr fun c _ => displayChar_shown c
  · rw [displayText, String.toList_ofList, displayChars_eq, List.flatMap_def]

theorem charsOf_utf8 {s : String} (h : s.toUTF8 = bs.toByteArray) : charsOf bs = s.toList := by
  rw [charsOf, Utf8.decode_toList_iff.mpr h]
  rfl

theorem charsOf_latin1 (h : ¬ bs.toByteArray.IsValidUTF8) : charsOf bs = bs.map latin := by
  rw [charsOf, Utf8.decode_none_iff.mpr h]
  rfl

theorem displayText_plain {s : String} (h : s.toUTF8 = bs.toByteArray)
    (hsafe : ∀ c ∈ s.toList, ¬ Unsafe c) : displayText bs = s := by
  rw [displayText, displayChars_eq, charsOf_utf8 h, display_plain hsafe, String.ofList_toList]

/-- Whatever the bytes, their display text is safe to show, it is its own display text, and it
shows the characters of a valid UTF-8 payload, or the bytes of any other, in order. -/
theorem text_displayed (bs : Bytes) : Displayed bs := by
  have hsafe : ∀ c ∈ (displayText bs).toList, ¬ Unsafe c := by
    rw [displayText, String.toList_ofList]
    exact displayed_safe bs
  exact {
    safe := hsafe
    stable := displayText_plain (Utf8.toUTF8_bytes _) hsafe
    utf8 := fun s h => charsOf_utf8 h ▸ displayText_shows bs
    latin1 := fun h => charsOf_latin1 h ▸ displayText_shows bs
    unchanged := fun s h hplain => displayText_plain h hplain }

end

end Wiretap.Packet
