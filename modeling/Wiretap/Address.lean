import Wiretap.Text.Hex

/-!
# Network addresses

Literal IPv4 and IPv6 addresses and socket addresses. Reading takes dotted
decimals without leading zeros, colon-separated groups with at most one gap
and an optional dotted tail. Writing leaves the longest run of two or more
zero groups out, the first of them where runs are equally long.
-/

set_option autoImplicit false

namespace Wiretap

inductive IpAddress where
  | v4 (bytes : List UInt8)
  | v6 (groups : List UInt16)
  deriving DecidableEq, Repr, Inhabited

structure SocketAddress where
  ip : IpAddress
  port : UInt16
  deriving DecidableEq, Repr, Inhabited

namespace IpAddress
open Wiretap.Text

def digitOf (radix : Nat) (c : Char) : Option Nat :=
  (Hex.digit? c).filter (· < radix)

def number (radix most bound : Nat) (zeros : Bool) (cs : List Char) :
    Option (Nat × List Char) :=
  let ds := cs.takeWhile (fun c => (digitOf radix c).isSome)
  let n := ds.foldl (fun n c => radix * n + (digitOf radix c).getD 0) 0
  if ds.isEmpty || ds.length > most || n ≥ bound then none
  else if !zeros && ds.head? == some '0' && ds.length > 1 then none
  else some (n, cs.drop ds.length)

def expect (c : Char) : List Char → Option (List Char)
  | d :: rest => if d = c then some rest else none
  | [] => none

def bytesFrom : Nat → Bool → List Char → Option (List UInt8 × List Char)
  | 0, _, cs => some ([], cs)
  | count + 1, first, cs => do
    let cs ← if first then some cs else expect '.' cs
    let (n, cs) ← number 10 3 256 false cs
    let (bytes, cs) ← bytesFrom count false cs
    some (UInt8.ofNat n :: bytes, cs)

def dotted (cs : List Char) : Option (List UInt8 × List Char) := bytesFrom 4 true cs

def groupsFrom : Nat → Bool → List Char → List UInt16 × Bool × List Char
  | 0, _, cs => ([], false, cs)
  | limit + 1, first, cs =>
    match if first then some cs else expect ':' cs with
    | none => ([], false, cs)
    | some here =>
      match if limit = 0 then none else dotted here with
      | some (bytes, rest) =>
        let at' (i : Nat) := (bytes[i]?.getD 0).toNat
        ([UInt16.ofNat (at' 0 * 256 + at' 1), UInt16.ofNat (at' 2 * 256 + at' 3)], true, rest)
      | none =>
        match number 16 4 65536 true here with
        | none => ([], false, cs)
        | some (n, rest) =>
          let (groups, tail, rest) := groupsFrom limit false rest
          (UInt16.ofNat n :: groups, tail, rest)

def colonGroups (cs : List Char) : Option (List UInt16 × List Char) :=
  let (head, dottedTail, rest) := groupsFrom 8 true cs
  if head.length = 8 then some (head, rest)
  else if dottedTail then none
  else do
    let rest ← expect ':' rest
    let rest ← expect ':' rest
    let (tail, _, rest) := groupsFrom (7 - head.length) true rest
    some (head ++ List.replicate (8 - head.length - tail.length) 0 ++ tail, rest)

def readV4? (cs : List Char) : Option IpAddress :=
  match dotted cs with
  | some (bytes, []) => some (.v4 bytes)
  | _ => none

def readV6? (cs : List Char) : Option IpAddress :=
  match colonGroups cs with
  | some (groups, []) => some (.v6 groups)
  | _ => none

def read? (cs : List Char) : Option IpAddress := (readV4? cs).or (readV6? cs)

def isV4 : IpAddress → Bool
  | .v4 _ => true
  | .v6 _ => false

def octets : IpAddress → List UInt8
  | .v4 bytes => bytes
  | .v6 groups => groups.flatMap (fun g => [UInt8.ofNat (g.toNat / 256), UInt8.ofNat g.toNat])

def dottedText (bytes : List UInt8) : List Char :=
  ['.'].intercalate (bytes.map (fun b => Nat.toDigits 10 b.toNat))

def groupText (g : UInt16) : List Char := Hex.lowerNat g.toNat

def groupsText (groups : List UInt16) : List Char := [':'].intercalate (groups.map groupText)

def zeroRun (groups : List UInt16) : Nat := (groups.takeWhile (· == 0)).length

def longestRun (groups : List UInt16) : Nat × Nat :=
  (List.range groups.length).foldl (fun best i =>
    let n := zeroRun (groups.drop i)
    if n > best.2 then (i, n) else best) (0, 0)

def v6Text (groups : List UInt16) : List Char :=
  if groups.take 6 = [0, 0, 0, 0, 0, 0xFFFF] then
    "::ffff:".toList ++ dottedText (octets (.v6 (groups.drop 6)))
  else
    let (start, count) := longestRun groups
    if count > 1 then
      groupsText (groups.take start) ++ [':', ':'] ++ groupsText (groups.drop (start + count))
    else groupsText groups

def text : IpAddress → String
  | .v4 bytes => String.ofList (dottedText bytes)
  | .v6 groups => String.ofList (v6Text groups)

def isLoopback : IpAddress → Bool
  | .v4 bytes => bytes.head? == some 127
  | .v6 groups => groups == [0, 0, 0, 0, 0, 0, 0, 1]

def isUnspecified (a : IpAddress) : Bool := a.octets.all (· == 0)

end IpAddress

namespace SocketAddress
open IpAddress

def portTail (cs : List Char) : Option UInt16 := do
  let rest ← expect ':' cs
  match number 10 rest.length 65536 true rest with
  | some (n, []) => some (UInt16.ofNat n)
  | _ => none

/-- A zone number between the address and its bracket is accepted and dropped. -/
def skipZone (cs : List Char) : Option (List Char) :=
  match cs with
  | '%' :: rest => (number 10 rest.length (Nat.pow 2 32) true rest).map (·.2)
  | _ => some cs

def read? (cs : List Char) : Option SocketAddress :=
  match dotted cs with
  | some (bytes, rest) => (portTail rest).map (⟨.v4 bytes, ·⟩)
  | none => do
    let rest ← expect '[' cs
    let (groups, rest) ← colonGroups rest
    let rest ← skipZone rest
    let rest ← expect ']' rest
    let port ← portTail rest
    some ⟨.v6 groups, port⟩

def text (a : SocketAddress) : String :=
  if a.ip.isV4 then s!"{a.ip.text}:{a.port.toNat}" else s!"[{a.ip.text}]:{a.port.toNat}"

end SocketAddress
end Wiretap
