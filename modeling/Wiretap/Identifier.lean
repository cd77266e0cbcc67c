import Wiretap.Text.Hex

/-!
# Connection identifiers

An identifier is 128 bits, written as lower-case digits in groups of eight,
four, four, four and twelve. Reading also accepts upper-case digits, the
digits without dashes, and the grouped form in braces or as a URN, whose name
may be in either case.
-/

set_option autoImplicit false

namespace Wiretap

structure ConnectionId where
  bits : BitVec 128
  deriving DecidableEq, Repr, Inhabited

namespace ConnectionId
open Wiretap.Text

def ofNat (n : Nat) : ConnectionId := ⟨BitVec.ofNat 128 n⟩

def digits (id : ConnectionId) : List Char := Hex.padded 32 (Hex.lowerNat id.bits.toNat)

def slice (ds : List Char) (start count : Nat) : List Char := (ds.drop start).take count

def dashed (ds : List Char) : List Char :=
  slice ds 0 8 ++ ['-'] ++ slice ds 8 4 ++ ['-'] ++ slice ds 12 4 ++ ['-'] ++
    slice ds 16 4 ++ ['-'] ++ slice ds 20 12

def chars (id : ConnectionId) : List Char := dashed id.digits

def text (id : ConnectionId) : String := String.ofList id.chars

def valueOf (ds : List Char) : Option Nat :=
  ds.foldl (fun acc c => do return 16 * (← acc) + (← Hex.digit? c)) (some 0)

def readPlain (ds : List Char) : Option ConnectionId :=
  if ds.length = 32 then (valueOf ds).map ofNat else none

def readDashed (ds : List Char) : Option ConnectionId :=
  let plain := slice ds 0 8 ++ slice ds 9 4 ++ slice ds 14 4 ++ slice ds 19 4 ++ slice ds 24 12
  if dashed plain = ds then readPlain plain else none

def read? (cs : List Char) : Option ConnectionId :=
  if cs.length = 32 then readPlain cs
  else if cs.length = 36 then readDashed cs
  else if cs.length = 38 && cs.head? == some '\x7b' && cs.getLast? == some '\x7d' then
    readDashed ((cs.drop 1).take 36)
  else if cs.length = 45 && (cs.take 9).map Char.toLower == "urn:uuid:".toList then
    readDashed (cs.drop 9)
  else none

end ConnectionId
end Wiretap
