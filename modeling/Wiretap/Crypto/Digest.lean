import Wiretap.Der

/-!
# Digests

The secure hash algorithms on bytes. Their constants are the first fraction
bits of square and cube roots of the first primes, and are computed here from
integer roots instead of being listed.
-/

set_option autoImplicit false

namespace Wiretap.Crypto

inductive Digest where
  | sha1
  | sha256
  | sha384
  | sha512
  deriving DecidableEq, Repr, Inhabited

namespace Digest

/-- Adds to `found` the bits from `2 ^ bits` downwards that keep its `k`-th power at most `n`. -/
def rootFrom (k n : Nat) : Nat → Nat → Nat
  | 0, found => if Nat.pow (found + 1) k ≤ n then found + 1 else found
  | bits + 1, found =>
    let next := found + Nat.pow 2 (bits + 1)
    rootFrom k n bits (if Nat.pow next k ≤ n then next else found)

def isPrime (n : Nat) : Bool := 2 ≤ n && (List.range n).all (fun d => d < 2 || n % d ≠ 0)

def primes : List Nat := (List.range 410).filter isPrime

def fraction (k n : Nat) : BitVec 64 := BitVec.ofNat 64 (rootFrom k (n * Nat.pow 2 (64 * k)) 70 0)

def cubeFractions : List (BitVec 64) := primes.map (fraction 3)

def squareFractions : List (BitVec 64) := (primes.take 16).map (fraction 2)

structure Chain (w : Nat) where
  a : BitVec w
  b : BitVec w
  c : BitVec w
  d : BitVec w
  e : BitVec w
  f : BitVec w
  g : BitVec w
  h : BitVec w

namespace Chain
variable {w : Nat}

def ofList : List (BitVec w) → Chain w
  | [a, b, c, d, e, f, g, h] => ⟨a, b, c, d, e, f, g, h⟩
  | _ => ⟨0, 0, 0, 0, 0, 0, 0, 0⟩

def words (x : Chain w) : List (BitVec w) := [x.a, x.b, x.c, x.d, x.e, x.f, x.g, x.h]

def add (x y : Chain w) : Chain w := ofList (x.words.zipWith (· + ·) y.words)

end Chain

structure Mixing (w : Nat) where
  large0 : Nat × Nat × Nat
  large1 : Nat × Nat × Nat
  small0 : Nat × Nat × Nat
  small1 : Nat × Nat × Nat
  constants : List (BitVec w)

namespace Mixing
variable {w : Nat}

def large (r : Nat × Nat × Nat) (x : BitVec w) : BitVec w :=
  x.rotateRight r.1 ^^^ x.rotateRight r.2.1 ^^^ x.rotateRight r.2.2

def small (r : Nat × Nat × Nat) (x : BitVec w) : BitVec w :=
  x.rotateRight r.1 ^^^ x.rotateRight r.2.1 ^^^ (x >>> r.2.2)

def slide (m : Mixing w) (window : List (BitVec w)) : List (BitVec w) :=
  let word (i : Nat) := window[i]?.getD 0
  window.drop 1 ++ [small m.small1 (word 14) + word 9 + small m.small0 (word 1) + word 0]

def round (m : Mixing w) (x : Chain w) (constant word : BitVec w) : Chain w :=
  let t := x.h + large m.large1 x.e + ((x.e &&& x.f) ^^^ (~~~ x.e &&& x.g)) + constant + word
  let u := large m.large0 x.a + ((x.a &&& x.b) ^^^ (x.a &&& x.c) ^^^ (x.b &&& x.c))
  ⟨t + u, x.a, x.b, x.c, x.d + t, x.e, x.f, x.g⟩

def compress (m : Mixing w) (x : Chain w) (block : List (BitVec w)) : Chain w :=
  x.add (m.constants.foldl (fun (x, window) constant =>
    (m.round x constant (window.headD 0), m.slide window)) (x, block)).1

end Mixing

def mixing256 : Mixing 32 :=
  ⟨(2, 13, 22), (6, 11, 25), (7, 18, 3), (17, 19, 10),
    (cubeFractions.take 64).map (·.extractLsb' 32 32)⟩

def mixing512 : Mixing 64 :=
  ⟨(28, 34, 39), (14, 18, 41), (1, 8, 7), (19, 61, 6), cubeFractions⟩

def groupsFrom {α : Type} (size : Nat) : Nat → List α → List (List α)
  | 0, _ => []
  | fuel + 1, xs => if xs.isEmpty then [] else xs.take size :: groupsFrom size fuel (xs.drop size)

def groups {α : Type} (size : Nat) (xs : List α) : List (List α) :=
  groupsFrom size xs.length xs

/-- Blocks of sixteen words: a bit that is set, zeros and the number of bits fill up the last. -/
def blocks (w : Nat) (bs : Bytes) : List (List (BitVec w)) :=
  let size := w / 8
  let zeros := (16 * size - (bs.length + 1 + 2 * size) % (16 * size)) % (16 * size)
  let filled := bs ++ [0x80] ++ List.replicate zeros 0 ++ Der.fixedBytes (2 * size) (8 * bs.length)
  (groups (16 * size) filled).map
    (fun block => (groups size block).map (fun g => BitVec.ofNat w (Der.natOf g)))

def wordBytes {w : Nat} (x : BitVec w) : Bytes := Der.fixedBytes (w / 8) x.toNat

def run {w : Nat} (m : Mixing w) (start : Chain w) (bs : Bytes) : Bytes :=
  ((blocks w bs).foldl m.compress start).words.flatMap wordBytes

def start256 : Chain 32 :=
  .ofList ((squareFractions.take 8).map (·.extractLsb' 32 32))

def start512 : Chain 64 := .ofList (squareFractions.take 8)

def start384 : Chain 64 := .ofList (squareFractions.drop 8)

structure Five where
  a : BitVec 32
  b : BitVec 32
  c : BitVec 32
  d : BitVec 32
  e : BitVec 32

def startFive : Five := ⟨0x67452301, 0xEFCDAB89, 0x98BADCFE, 0x10325476, 0xC3D2E1F0⟩

def fiveRound (i : Nat) (x : Five) : BitVec 32 × BitVec 32 :=
  if i < 20 then ((x.b &&& x.c) ||| (~~~ x.b &&& x.d), 0x5A827999)
  else if i < 40 then (x.b ^^^ x.c ^^^ x.d, 0x6ED9EBA1)
  else if i < 60 then ((x.b &&& x.c) ||| (x.b &&& x.d) ||| (x.c &&& x.d), 0x8F1BBCDC)
  else (x.b ^^^ x.c ^^^ x.d, 0xCA62C1D6)

def compressFive (x : Five) (block : List (BitVec 32)) : Five :=
  let (y, _) := (List.range 80).foldl (fun (acc : Five × List (BitVec 32)) i =>
    let (x, window) := acc
    let word (k : Nat) := window[k]?.getD 0
    let (f, k) := fiveRound i x
    let t := x.a.rotateLeft 5 + f + x.e + k + word 0
    (⟨t, x.a, x.b.rotateLeft 30, x.c, x.d⟩,
      window.drop 1 ++ [(word 13 ^^^ word 8 ^^^ word 2 ^^^ word 0).rotateLeft 1])) (x, block)
  ⟨x.a + y.a, x.b + y.b, x.c + y.c, x.d + y.d, x.e + y.e⟩

def runFive (bs : Bytes) : Bytes :=
  let x := (blocks 32 bs).foldl compressFive startFive
  [x.a, x.b, x.c, x.d, x.e].flatMap wordBytes

def hash : Digest → Bytes → Bytes
  | .sha1, bs => runFive bs
  | .sha256, bs => run mixing256 start256 bs
  | .sha384, bs => (run mixing512 start384 bs).take 48
  | .sha512, bs => run mixing512 start512 bs

def oid : Digest → Der.Oid
  | .sha1 => .ofArcs [1, 3, 14, 3, 2, 26]
  | .sha256 => .ofArcs [2, 16, 840, 1, 101, 3, 4, 2, 1]
  | .sha384 => .ofArcs [2, 16, 840, 1, 101, 3, 4, 2, 2]
  | .sha512 => .ofArcs [2, 16, 840, 1, 101, 3, 4, 2, 3]

end Digest
end Wiretap.Crypto
