import Mathlib.Data.List.Basic
import Wiretap.Text.Utf8

/-! Reading UTF-8 and writing it. The well-formed sequences are listed once, each with the code
point it stands for. Reading takes off exactly such a sequence, and it is the one that writing
gives to its character, so the bytes that can be read are those that some text is written as,
and that text is read from them. -/

set_option autoImplicit false

namespace Wiretap.Text.Utf8

/-- The well-formed sequences of one character and their code points. The bounds on the second
byte leave out overlong forms, surrogates and what lies past the last code point. -/
inductive Sequence : Bytes → Nat → Prop where
  | one {a : UInt8} : a.toNat < 0x80 → Sequence [a] a.toNat
  | two {a b : UInt8} : 0xC2 ≤ a.toNat → a.toNat < 0xE0 → isTail b = true →
      Sequence [a, b] (a.toNat % 32 * 64 + low6 b)
  | three {a b c : UInt8} : 0xE0 ≤ a.toNat → a.toNat < 0xF0 → followsLead a b = true →
      isTail c = true → Sequence [a, b, c] (a.toNat % 16 * 4096 + low6 b * 64 + low6 c)
  | four {a b c d : UInt8} : 0xF0 ≤ a.toNat → a.toNat ≤ 0xF4 → followsLead a b = true →
      isTail c = true → isTail d = true →
      Sequence [a, b, c, d] (a.toNat % 8 * 262144 + low6 b * 4096 + low6 c * 64 + low6 d)

theorem tail_iff (b : UInt8) : isTail b = true ↔ 0x80 ≤ b.toNat ∧ b.toNat ≤ 0xBF := by
  simp [isTail, UInt8.le_iff_toNat_le]

theorem follows_iff (a b : UInt8) : followsLead a b = true ↔
    0x80 ≤ b.toNat ∧ b.toNat ≤ 0xBF ∧ (a.toNat = 0xE0 → 0xA0 ≤ b.toNat) ∧
    (a.toNat = 0xED → b.toNat ≤ 0x9F) ∧ (a.toNat = 0xF0 → 0x90 ≤ b.toNat) ∧
    (a.toNat = 0xF4 → b.toNat ≤ 0x8F) := by
  simp only [followsLead, ← UInt8.toNat_inj, UInt8.reduceToNat]
  split_ifs <;> simp [UInt8.le_iff_toNat_le, isTail, *] <;> omega

theorem byte_toNat {n : Nat} (h : n < 256) : (byte n).toNat = n := by
  simp [byte, Nat.mod_eq_of_lt h]

theorem lead_iff (a : UInt8) : (a < 0x80 ↔ a.toNat < 0x80) ∧
    ((decide (a < 0xC2) || decide (0xF4 < a)) = true ↔ ¬ (0xC2 ≤ a.toNat ∧ a.toNat ≤ 0xF4)) ∧
    (a < 0xE0 ↔ a.toNat < 0xE0) ∧ (a < 0xF0 ↔ a.toNat < 0xF0) := by
  simp only [UInt8.lt_iff_toNat_lt, UInt8.reduceToNat, Bool.or_eq_true, decide_eq_true_eq, true_and,
    and_self, and_true]
  omega

/-- A well-formed sequence is taken off the front as its character. -/
theorem front_sequence {a : UInt8} {tail : Bytes} {n : Nat} (h : Sequence (a :: tail) n)
    (rest : Bytes) : front a (tail ++ rest) = (some (Char.ofNat n), rest) := by
  obtain ⟨hone, hill, htwo, hthree⟩ := lead_iff a
  simp only [front, hone, hill, htwo, hthree]
  cases h with
  | one ha => rw [if_pos ha, List.nil_append]
  | @two _ b ha hless hb =>
    -- The bounds that depend on the lead are those of longer sequences.
    have hfollows : followsLead a b = true := by
      have hbounds := (tail_iff b).mp hb
      rw [follows_iff]
      omega
    rw [if_neg (by omega), if_neg (by omega)]
    simp [hfollows, hless]
  | three ha hless hb hc =>
    rw [if_neg (by omega), if_neg (by omega)]
    simp [hb, hc, hless, Nat.not_lt.mpr ha]
  | four ha hless hb hc hd =>
    rw [if_neg (by omega), if_neg (by omega)]
    simp [hb, hc, hd, Nat.not_lt.mpr ha, show ¬ a.toNat < 0xE0 by omega]

/-- What is taken off the front as a character is a well-formed sequence. -/
theorem sequence_of_front {a : UInt8} {bs : Bytes} {c : Char} :
    (front a bs).1 = some c →
    ∃ tail n, Sequence (a :: tail) n ∧ bs = tail ++ (front a bs).2 ∧ c = Char.ofNat n := by
  obtain ⟨hone, hill, htwo, hthree⟩ := lead_iff a
  fun_cases front a bs with
  | case1 _ ha =>
    rintro ⟨⟩
    exact ⟨[], _, .one (hone.mp ha), rfl, rfl⟩
  | case5 _ hlead b rest hb hless =>
    rintro ⟨⟩
    have hlead := not_not.mp (mt hill.mpr hlead)
    have hbounds := (follows_iff a b).mp (by simpa using hb)
    have htail : isTail b = true := (tail_iff b).mpr ⟨hbounds.1, hbounds.2.1⟩
    exact ⟨[b], _, .two hlead.1 (htwo.mp hless) htail, rfl, rfl⟩
  | case8 _ _ b hb hmore c rest hc hless =>
    rintro ⟨⟩
    have hlead : 0xE0 ≤ a.toNat := Nat.le_of_not_lt (mt htwo.mpr hmore)
    exact ⟨[b, c], _, .three hlead (hthree.mp hless) (by simpa using hb) (by simpa using hc), rfl,
      rfl⟩
  | case11 _ hlead b hb _ c hc hmost d rest hd =>
    rintro ⟨⟩
    have hlead := not_not.mp (mt hill.mpr hlead)
    have hfour : 0xF0 ≤ a.toNat := Nat.le_of_not_lt (mt hthree.mpr hmost)
    exact ⟨[b, c, d], _, .four hfour hlead.2 (by simpa using hb) (by simpa using hc)
      (by simpa using hd), rfl, rfl⟩
  | _ => nofun

theorem tail_byte (n : Nat) : isTail (byte (0x80 + n % 64)) = true := by
  rw [tail_iff, byte_toNat (by omega)]
  omega

theorem low6_byte (n : Nat) : low6 (byte (0x80 + n % 64)) = n % 64 := by
  rw [low6, byte_toNat (by omega)]
  omega

/-- What is written for a character is the well-formed sequence of its code point. -/
theorem sequence_encodeChar (c : Char) : Sequence (encodeChar c) c.toNat := by
  have hvalid : c.toNat < 0xD800 ∨ 0xDFFF < c.toNat ∧ c.toNat < 0x110000 := c.valid
  simp only [encodeChar]
  generalize c.toNat = n at hvalid
  split_ifs with hone htwo hthree
  · have hseq : Sequence [byte n] (byte n).toNat := .one (by rwa [byte_toNat (by omega)])
    rwa [byte_toNat (by omega)] at hseq
  · have hlead : (byte (0xC0 + n / 64)).toNat = 0xC0 + n / 64 := byte_toNat (by omega)
    have hseq := Sequence.two (a := byte (0xC0 + n / 64)) (by omega) (by omega) (tail_byte n)
    rwa [hlead, low6_byte, show (0xC0 + n / 64) % 32 * 64 + n % 64 = n by omega] at hseq
  · have hlead : (byte (0xE0 + n / 4096)).toNat = 0xE0 + n / 4096 := byte_toNat (by omega)
    have hsecond : followsLead (byte (0xE0 + n / 4096)) (byte (0x80 + n / 64 % 64)) = true := by
      rw [follows_iff, hlead, byte_toNat (by omega)]
      omega
    have hseq := Sequence.three (by omega) (by omega) hsecond (tail_byte n)
    rwa [hlead, low6_byte, low6_byte,
      show (0xE0 + n / 4096) % 16 * 4096 + n / 64 % 64 * 64 + n % 64 = n by omega] at hseq
  · have hlead : (byte (0xF0 + n / 262144)).toNat = 0xF0 + n / 262144 := byte_toNat (by omega)
    have hsecond : followsLead (byte (0xF0 + n / 262144)) (byte (0x80 + n / 4096 % 64)) = true := by
      rw [follows_iff, hlead, byte_toNat (by omega)]
      omega
    have hseq := Sequence.four (by omega) (by omega) hsecond (tail_byte (n / 64)) (tail_byte n)
    rwa [hlead, low6_byte, low6_byte, low6_byte,
      show (0xF0 + n / 262144) % 8 * 262144 + n / 4096 % 64 * 4096 + n / 64 % 64 * 64 + n % 64 = n
        by omega] at hseq

theorem sequence_valid {bs : Bytes} {n : Nat} (h : Sequence bs n) : n.isValidChar := by
  unfold Nat.isValidChar
  cases h with
  | one ha => omega
  | two ha hless hb =>
    simp only [low6]
    omega
  | @three a b c ha hless hb hc =>
    have hbounds := (follows_iff a b).mp hb
    simp only [low6]
    omega
  | @four a b c d ha hless hb hc hd =>
    have hbounds := (follows_iff a b).mp hb
    simp only [low6]
    omega

/-- A character of several bytes has none that could be a character of its own. -/
theorem sequence_ascii {bs : Bytes} {n : Nat} (h : Sequence bs n) :
    (∃ a, bs = [a] ∧ a.toNat = n ∧ n < 0x80) ∨ ∀ b ∈ bs, 0x80 ≤ b.toNat := by
  cases h with
  | one ha => exact .inl ⟨_, rfl, rfl, ha⟩
  | two ha hless hb =>
    rw [tail_iff] at hb
    exact .inr (by simp; omega)
  | three ha hless hb hc =>
    rw [follows_iff] at hb
    rw [tail_iff] at hc
    exact .inr (by simp; omega)
  | four ha hless hb hc hd =>
    rw [follows_iff] at hb
    rw [tail_iff] at hc hd
    exact .inr (by simp; omega)

theorem toNat_ofNat_valid {n : Nat} (h : n.isValidChar) : (Char.ofNat n).toNat = n := by
  rw [Char.ofNat, dif_pos h]
  rfl

theorem byte_eq {n : Nat} {b : UInt8} (h : n = b.toNat) : byte n = b := by
  rw [h]
  exact UInt8.ofNat_toNat

theorem low6_tail {b : UInt8} (h : 0x80 ≤ b.toNat ∧ b.toNat ≤ 0xBF) :
    b.toNat = 0x80 + low6 b ∧ low6 b < 64 := by
  unfold low6
  omega

/-- No character is written in two ways. -/
theorem encodeChar_sequence {bs : Bytes} {n : Nat} (h : Sequence bs n) :
    encodeChar (Char.ofNat n) = bs := by
  have hn : (Char.ofNat n).toNat = n := toNat_ofNat_valid (sequence_valid h)
  simp only [encodeChar, hn]
  cases h with
  | one ha => rw [if_pos ha, byte_eq rfl]
  | @two a b ha hless hb =>
    have hb := low6_tail ((tail_iff b).mp hb)
    rw [if_neg (by omega), if_pos (by omega), byte_eq (b := a) (by omega),
      byte_eq (b := b) (by omega)]
  | @three a b c ha hless hb hc =>
    obtain ⟨hlow, hhigh, hlong, -⟩ := (follows_iff a b).mp hb
    have hb := low6_tail ⟨hlow, hhigh⟩
    have hc := low6_tail ((tail_iff c).mp hc)
    rw [if_neg (by omega), if_neg (by omega), if_pos (by omega), byte_eq (b := a) (by omega),
      byte_eq (b := b) (by omega), byte_eq (b := c) (by omega)]
  | @four a b c d ha hless hb hc hd =>
    obtain ⟨hlow, hhigh, -, -, hlong, -⟩ := (follows_iff a b).mp hb
    have hb := low6_tail ⟨hlow, hhigh⟩
    have hc := low6_tail ((tail_iff c).mp hc)
    have hd := low6_tail ((tail_iff d).mp hd)
    rw [if_neg (by omega), if_neg (by omega), if_neg (by omega), byte_eq (b := a) (by omega),
      byte_eq (b := b) (by omega), byte_eq (b := c) (by omega), byte_eq (b := d) (by omega)]

theorem encodeChar_cons (c : Char) : ∃ a tail, encodeChar c = a :: tail ∧
    ∀ rest, front a (tail ++ rest) = (some c, rest) := by
  have hseq := sequence_encodeChar c
  cases hbytes : encodeChar c with
  | nil =>
    rw [hbytes] at hseq
    nomatch hseq
  | cons a tail =>
    rw [hbytes] at hseq
    exact ⟨a, tail, rfl, by simpa only [Char.ofNat_toNat] using front_sequence hseq⟩

/-- Reading goes through a text in the steps in which it was written. -/
theorem decodeFrom_encode (seen cs : List Char) :
    decodeFrom seen (encode cs) = some (seen.reverse ++ cs) := by
  induction cs generalizing seen with
  | nil => simp [encode, decodeFrom]
  | cons c cs ih =>
    obtain ⟨a, tail, hbytes, hfront⟩ := encodeChar_cons c
    rw [encode, List.flatMap_cons, hbytes, List.cons_append, ← encode, decodeFrom]
    split
    · next h => simp [hfront] at h
    · next d h =>
      obtain rfl : c = d := by simpa [hfront] using h
      rw [hfront, ih]
      simp

theorem encode_of_decodeFrom {seen cs : List Char} {bs : Bytes}
    (h : decodeFrom seen bs = some cs) : ∃ ds, cs = seen.reverse ++ ds ∧ encode ds = bs := by
  fun_induction decodeFrom seen bs with
  | case1 seen => exact ⟨[], by simpa using h.symm, rfl⟩
  | case2 seen a bs hfront => cases h
  | case3 seen a bs c hfront ih =>
    obtain ⟨ds, hcs, hds⟩ := ih h
    obtain ⟨tail, n, hseq, hbs, rfl⟩ := sequence_of_front hfront
    refine ⟨Char.ofNat n :: ds, by simp [hcs], ?_⟩
    rw [encode, List.flatMap_cons, encodeChar_sequence hseq, ← encode, hds, List.cons_append, ← hbs]

/-- A text is read from the bytes that it is written as and from no others. -/
theorem decode_iff {bs : Bytes} {cs : List Char} : decode? bs = some cs ↔ encode cs = bs := by
  constructor
  · intro h
    obtain ⟨ds, rfl, hds⟩ := encode_of_decodeFrom h
    exact hds
  · rintro rfl
    exact decodeFrom_encode [] cs

/-- The standard library writes a character as the same bytes. -/
theorem encodeChar_eq (c : Char) : encodeChar c = String.utf8EncodeChar c := by
  have hvalid : c.toNat < 0xD800 ∨ 0xDFFF < c.toNat ∧ c.toNat < 0x110000 := c.valid
  simp only [encodeChar, String.utf8EncodeChar, show c.val.toNat = c.toNat from rfl, byte]
  generalize c.toNat = n at hvalid
  have hbelow (m : Nat) : n ≤ m ↔ n < m + 1 := Nat.lt_succ_iff.symm
  simp only [hbelow, Nat.reduceAdd, Nat.add_comm]
  split_ifs with hone htwo hthree
  · rfl
  · rw [Nat.mod_eq_of_lt (show n / 64 < 32 by omega)]
  · rw [Nat.mod_eq_of_lt (show n / 4096 < 16 by omega)]
  · rw [Nat.mod_eq_of_lt (show n / 262144 < 8 by omega)]

theorem encode_eq (cs : List Char) : (String.ofList cs).toUTF8 = (encode cs).toByteArray := by
  rw [encode, funext encodeChar_eq]
  exact String.toByteArray_ofList

theorem toUTF8_bytes (s : String) : s.toUTF8 = s.toUTF8.data.toList.toByteArray := by
  apply ByteArray.ext
  rw [List.data_toByteArray, Array.toArray_toList]

theorem decode_toList_iff {bs : Bytes} {s : String} :
    decode? bs = some s.toList ↔ s.toUTF8 = bs.toByteArray := by
  rw [decode_iff, ← String.ofList_toList (s := s), encode_eq, String.toList_ofList]
  constructor
  · intro h
    rw [h]
  · intro h
    rw [← List.toList_data_toByteArray (l := encode _), h, List.toList_data_toByteArray]

theorem toUTF8_of_decode {bs : Bytes} {cs : List Char} (h : decode? bs = some cs) :
    (String.ofList cs).toUTF8 = bs.toByteArray :=
  decode_toList_iff.mp (by rw [h, String.toList_ofList])

/-- Bytes that cannot be read are no valid UTF-8. -/
theorem decode_none_iff {bs : Bytes} : decode? bs = none ↔ ¬ bs.toByteArray.IsValidUTF8 := by
  constructor
  · rintro h ⟨cs, hcs⟩
    have hread := decode_toList_iff.mpr ((String.toByteArray_ofList (l := cs)).trans hcs.symm)
    rw [h] at hread
    cases hread
  · intro h
    cases hread : decode? bs with
    | none => rfl
    | some cs =>
      exact absurd (toUTF8_of_decode hread ▸ (String.ofList cs).isValidUTF8) h

end Wiretap.Text.Utf8
