/-!
# UTF-8

Byte sequences are read one character at a time. What cannot begin a
character is skipped by its longest ill-formed prefix, so strict reading
(which refuses it) and lenient reading (which shows one replacement
character for it) walk through a sequence in the same steps.
-/

set_option autoImplicit false

namespace Wiretap.Text.Utf8

abbrev Bytes := List UInt8

def low6 (b : UInt8) : Nat := b.toNat % 64

def isTail (b : UInt8) : Bool := 0x80 ≤ b && b ≤ 0xBF

/-- Bytes that may follow the lead byte directly; the bounds leave out overlong forms, surrogates
and code points past the last one. -/
def followsLead (lead b : UInt8) : Bool :=
  if lead = 0xE0 then 0xA0 ≤ b && b ≤ 0xBF
  else if lead = 0xED then 0x80 ≤ b && b ≤ 0x9F
  else if lead = 0xF0 then 0x90 ≤ b && b ≤ 0xBF
  else if lead = 0xF4 then 0x80 ≤ b && b ≤ 0x8F
  else isTail b

def front (lead : UInt8) (rest : Bytes) : Option Char × Bytes :=
  if lead < 0x80 then (some (Char.ofNat lead.toNat), rest)
  else if lead < 0xC2 || 0xF4 < lead then (none, rest)
  else match rest with
    | [] => (none, [])
    | b :: rest₁ =>
      if !followsLead lead b then (none, rest)
      else if lead < 0xE0 then
        (some (Char.ofNat (lead.toNat % 32 * 64 + low6 b)), rest₁)
      else match rest₁ with
        | [] => (none, [])
        | c :: rest₂ =>
          if !isTail c then (none, rest₁)
          else if lead < 0xF0 then
            (some (Char.ofNat (lead.toNat % 16 * 4096 + low6 b * 64 + low6 c)), rest₂)
          else match rest₂ with
            | [] => (none, [])
            | d :: rest₃ =>
              if !isTail d then (none, rest₂)
              else (some (Char.ofNat (lead.toNat % 8 * 262144 + low6 b * 4096
                + low6 c * 64 + low6 d)), rest₃)

theorem front_length (lead : UInt8) (rest : Bytes) :
    (front lead rest).2.length ≤ rest.length := by
  unfold front
  repeat' split
  all_goals simp_all
  all_goals omega

def decodeFrom : List Char → Bytes → Option (List Char)
  | seen, [] => some seen.reverse
  | seen, b :: rest =>
    match _h : (front b rest).1 with
    | none => none
    | some c => decodeFrom (c :: seen) (front b rest).2
  termination_by _ bs => bs.length
  decreasing_by
    have := front_length b rest
    simp; omega

def decode? (bs : Bytes) : Option (List Char) := decodeFrom [] bs

def lenientFrom : List Char → Bytes → List Char
  | seen, [] => seen.reverse
  | seen, b :: rest =>
    lenientFrom ((front b rest).1.getD '\uFFFD' :: seen) (front b rest).2
  termination_by _ bs => bs.length
  decreasing_by
    have := front_length b rest
    simp; omega

def lenient (bs : Bytes) : List Char := lenientFrom [] bs

def byte (n : Nat) : UInt8 := UInt8.ofNat n

def encodeChar (c : Char) : Bytes :=
  let n := c.toNat
  if n < 0x80 then [byte n]
  else if n < 0x800 then [byte (0xC0 + n / 64), byte (0x80 + n % 64)]
  else if n < 0x10000 then
    [byte (0xE0 + n / 4096), byte (0x80 + n / 64 % 64), byte (0x80 + n % 64)]
  else [byte (0xF0 + n / 262144), byte (0x80 + n / 4096 % 64),
    byte (0x80 + n / 64 % 64), byte (0x80 + n % 64)]

def encode (cs : List Char) : Bytes := cs.flatMap encodeChar

def ofString (s : String) : Bytes := encode s.toList

def toString? (bs : Bytes) : Option String := (decode? bs).map String.ofList

end Wiretap.Text.Utf8
