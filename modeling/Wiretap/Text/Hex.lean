/-!
# Hexadecimal digits

Two digits a byte, in upper or lower case, and numbers padded with zeros to a
least width. Reading accepts both cases and an even number of digits only.
-/

set_option autoImplicit false

namespace Wiretap.Text.Hex

def upperDigit (n : Nat) : Char :=
  if n < 10 then Char.ofNat (48 + n) else Char.ofNat (55 + n)

def lowerDigit (n : Nat) : Char :=
  if n < 10 then Char.ofNat (48 + n) else Char.ofNat (87 + n)

def upperByte (b : UInt8) : List Char :=
  [upperDigit (b.toNat / 16), upperDigit (b.toNat % 16)]

def lowerByte (b : UInt8) : List Char :=
  [lowerDigit (b.toNat / 16), lowerDigit (b.toNat % 16)]

def digitsOnto (digit : Nat → Char) (n : Nat) (tail : List Char) : List Char :=
  if h : n < 16 then digit n :: tail
  else digitsOnto digit (n / 16) (digit (n % 16) :: tail)
  termination_by n
  decreasing_by omega

def lowerNat (n : Nat) : List Char := digitsOnto lowerDigit n []

def padded (width : Nat) (cs : List Char) : List Char :=
  List.replicate (width - cs.length) '0' ++ cs

def upperNat (width n : Nat) : List Char := padded width (digitsOnto upperDigit n [])

def digit? (c : Char) : Option Nat :=
  if '0' ≤ c && c ≤ '9' then some (c.toNat - 48)
  else if 'a' ≤ c && c ≤ 'f' then some (c.toNat - 87)
  else if 'A' ≤ c && c ≤ 'F' then some (c.toNat - 55)
  else none

def readFrom : List UInt8 → List Char → Option (List UInt8)
  | seen, [] => some seen.reverse
  | _, [_] => none
  | seen, a :: b :: rest =>
    match digit? a, digit? b with
    | some x, some y => readFrom (UInt8.ofNat (16 * x + y) :: seen) rest
    | _, _ => none

def read? (cs : List Char) : Option (List UInt8) := readFrom [] cs

end Wiretap.Text.Hex
