import Wiretap.Packet.Rendering
import Wiretap.Proofs.Text.Encoding

/-! When a payload counts as text. The share of printable bytes is also asked for in UTF-8 whose
share of readable characters was too low, and never changes the answer there: a printable
byte is a readable character of its own, and a text has no more characters than bytes. -/

set_option autoImplicit false

namespace Wiretap.Packet
open Wiretap.Text

def isLegible (b : UInt8) : Bool := isPrintableByte b || isLineByte b

structure Judged (bs : Bytes) : Prop where
  text_iff : contentOf bs = .text ↔ bs = [] ∨
    (∃ s : String, s.toUTF8 = bs.toByteArray ∧
      7 * s.length ≤ 10 * s.toList.countP isReadable) ∨
    (¬ bs.toByteArray.IsValidUTF8 ∧ 7 * bs.length ≤ 10 * bs.countP isLegible)
  verdict_kept (s : String) : s.toUTF8 = bs.toByteArray →
    7 * bs.length ≤ 10 * bs.countP isLegible →
    7 * s.length ≤ 10 * s.toList.countP isReadable

theorem mostly_iff (part total : Nat) : mostly part total = true ↔ 7 * total ≤ 10 * part := by
  simp [mostly]

theorem legible_iff (b : UInt8) : isLegible b = true ↔
    0x20 ≤ b.toNat ∧ b.toNat ≤ 0x7E ∨ b.toNat = 9 ∨ b.toNat = 10 ∨ b.toNat = 13 := by
  simp [isLegible, isPrintableByte, isLineByte, UInt8.le_iff_toNat_le, ← UInt8.toNat_inj, or_assoc]

theorem readable_ascii {c : Char} (h : 0x20 ≤ c.toNat ∧ c.toNat ≤ 0x7E ∨ c.toNat = 9 ∨
    c.toNat = 10 ∨ c.toNat = 13) : isReadable c = true := by
  simp only [isReadable, isSpace, isControl, Bool.or_eq_true, Bool.and_eq_true, decide_eq_true_eq,
    beq_iff_eq, Bool.not_eq_true', Bool.or_eq_false_iff, Bool.and_eq_false_iff,
    decide_eq_false_iff_not]
  omega

/-- Only a character of a single byte has a legible one. -/
theorem legible_char {bs : Bytes} {n : Nat} (h : Utf8.Sequence bs n) :
    bs.countP isLegible ≤ if isReadable (Char.ofNat n) then 1 else 0 := by
  obtain ⟨a, rfl, rfl, ha⟩ | hlarge := Utf8.sequence_ascii h
  · by_cases hlegible : isLegible a = true
    · have hchar : (Char.ofNat a.toNat).toNat = a.toNat := Utf8.toNat_ofNat_valid (.inl (by omega))
      rw [legible_iff, ← hchar] at hlegible
      rw [if_pos (readable_ascii hlegible)]
      exact List.countP_le_length
    · rw [List.countP_cons_of_neg hlegible]
      exact Nat.zero_le _
  · have hnone : bs.countP isLegible = 0 := by
      rw [List.countP_eq_zero]
      intro b hb hlegible
      have := hlarge b hb
      rw [legible_iff] at hlegible
      omega
    rw [hnone]
    exact Nat.zero_le _

theorem legible_encode (cs : List Char) :
    (Utf8.encode cs).countP isLegible ≤ cs.countP isReadable := by
  induction cs with
  | nil => simp [Utf8.encode]
  | cons c cs ih =>
    have hchar := legible_char (Utf8.sequence_encodeChar c)
    rw [Char.ofNat_toNat] at hchar
    rw [Utf8.encode, List.flatMap_cons, List.countP_append, List.countP_cons, ← Utf8.encode]
    omega

theorem length_le_encode (cs : List Char) : cs.length ≤ (Utf8.encode cs).length := by
  induction cs with
  | nil => simp
  | cons c cs ih =>
    obtain ⟨a, tail, hbytes, -⟩ := Utf8.encodeChar_cons c
    rw [Utf8.encode, List.flatMap_cons, hbytes, ← Utf8.encode]
    simp
    omega

theorem printable_readable {bs : Bytes} {cs : List Char} (hread : Utf8.decode? bs = some cs)
    (h : 7 * bs.length ≤ 10 * bs.countP isLegible) : 7 * cs.length ≤ 10 * cs.countP isReadable := by
  obtain rfl := Utf8.decode_iff.mp hread
  have hcount := legible_encode cs
  have hlength := length_le_encode cs
  omega

theorem looksText_iff (bs : Bytes) : looksText bs = true ↔ bs = [] ∨
    (∃ cs, Utf8.decode? bs = some cs ∧ 7 * cs.length ≤ 10 * cs.countP isReadable) ∨
    7 * bs.length ≤ 10 * bs.countP isLegible := by
  simp only [looksText, Bool.or_eq_true, List.isEmpty_iff, Option.any_eq_true, mostlyReadable,
    mostlyPrintable, mostly_iff, or_assoc]
  rfl

/-- The kind of every payload, as an equivalence: the empty one is text, UTF-8 is judged by its
characters alone and everything else by its bytes. -/
theorem content_judged (bs : Bytes) : Judged bs := by
  refine ⟨?_, fun s hs h => printable_readable (Utf8.decode_toList_iff.mpr hs) h⟩
  have htext : contentOf bs = .text ↔ looksText bs = true := by
    unfold contentOf
    split <;> simp_all
  rw [htext, looksText_iff]
  refine or_congr_right ?_
  constructor
  · rintro (⟨cs, hcs, hmost⟩ | hmost)
    · exact .inl ⟨.ofList cs, Utf8.toUTF8_of_decode hcs, by simpa using hmost⟩
    · cases hcs : Utf8.decode? bs with
      | none => exact .inr ⟨Utf8.decode_none_iff.mp hcs, hmost⟩
      | some cs =>
        refine .inl ⟨.ofList cs, Utf8.toUTF8_of_decode hcs, ?_⟩
        simpa using printable_readable hcs hmost
  · rintro (⟨s, hs, hmost⟩ | ⟨-, hmost⟩)
    · exact .inl ⟨s.toList, Utf8.decode_toList_iff.mpr hs, by rwa [String.length_toList]⟩
    · exact .inr hmost

end Wiretap.Packet
