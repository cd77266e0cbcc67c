import Wiretap.Packet.Rendering

/-!
# Hex dumps

A dump shows sixteen bytes a line: the offset of the first, a hex column of
fixed width with a gap after the eighth byte, and a sidebar with one character
a byte. The compact form is the digits alone.
-/

set_option autoImplicit false

namespace Wiretap.HexDump
open Wiretap.Text

def lineWidth : Nat := 16

def chunksFrom (width : Nat) (positive : 0 < width) (done : List Bytes) : Bytes → List Bytes
  | [] => done.reverse
  | b :: bs => chunksFrom width positive ((b :: bs).take width :: done) ((b :: bs).drop width)
  termination_by bs => bs.length
  decreasing_by simp; omega

def chunks (bs : Bytes) : List Bytes := chunksFrom lineWidth (by decide) [] bs

def cell (bytes : Bytes) (i : Nat) : List Char :=
  (match bytes[i]? with
    | some b => Hex.upperByte b ++ [' ']
    | none => [' ', ' ', ' ']) ++ (if i = 7 then [' '] else [])

def hexColumn (bytes : Bytes) : List Char := (List.range lineWidth).flatMap (cell bytes)

def sidebar (bytes : Bytes) : List Char :=
  bytes.map (fun b => if Packet.isPrintableByte b then Char.ofNat b.toNat else '.')

def offsetText (k : Nat) : List Char := Hex.upperNat 4 (lineWidth * k)

def line (k : Nat) (bytes : Bytes) : List Char :=
  offsetText k ++ [':', ' '] ++ hexColumn bytes ++ [' '] ++ sidebar bytes ++ ['\n']

def lines (bs : Bytes) : List String :=
  (chunks bs).mapIdx (fun k piece => String.ofList (line k piece))

def text (bs : Bytes) : String := String.join (lines bs)

def compact (bs : Bytes) : String := String.ofList (bs.flatMap Hex.upperByte)

end Wiretap.HexDump
