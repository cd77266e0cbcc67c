import Wiretap.Packet
import Wiretap.Text.Blank
import Wiretap.Text.Hex
import Wiretap.Text.Utf8

/-!
# What an operator sees of captured bytes

A payload counts as text when seven tenths of its characters, or failing that
of its bytes, are printable. Its display text keeps printable characters and
line structure and escapes what would drive a terminal. Ratios are compared
as exact quotients of counts.
-/

set_option autoImplicit false

namespace Wiretap.Packet
open Wiretap.Text

def mostly (part total : Nat) : Bool := 7 * total ≤ 10 * part

def isReadable (c : Char) : Bool := isSpace c || !isControl c

def isPrintableByte (b : UInt8) : Bool := 0x20 ≤ b && b ≤ 0x7E

def isLineByte (b : UInt8) : Bool := b == 9 || b == 10 || b == 13

def mostlyReadable (cs : List Char) : Bool := mostly (cs.countP isReadable) cs.length

def mostlyPrintable (bs : Bytes) : Bool :=
  mostly (bs.countP (fun b => isPrintableByte b || isLineByte b)) bs.length

def looksText (bs : Bytes) : Bool :=
  bs.isEmpty || (Utf8.decode? bs).any mostlyReadable || mostlyPrintable bs

def contentOf (bs : Bytes) : Content := if looksText bs then .text else .binary

def isLineChar (c : Char) : Bool := c == '\t' || c == '\n' || c == '\r'

def escaped (n : Nat) : List Char := '\\' :: 'x' :: Hex.upperNat 2 n

def displayChar (c : Char) : List Char :=
  if isControl c && !isLineChar c then escaped c.toNat else [c]

def displayByte (b : UInt8) : List Char :=
  if isLineByte b || isPrintableByte b || 0xA0 ≤ b then [Char.ofNat b.toNat]
  else escaped b.toNat

def displayChars (bs : Bytes) : List Char :=
  match Utf8.decode? bs with
  | some cs => cs.flatMap displayChar
  | none => bs.flatMap displayByte

def displayText (bs : Bytes) : String := String.ofList (displayChars bs)

def capture (time : Timestamp) (direction : Direction) (bytes : Bytes) : Packet :=
  ⟨time, direction, bytes, contentOf bytes, displayText bytes⟩

end Wiretap.Packet
