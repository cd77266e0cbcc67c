import Wiretap.Crypto.Digest
import Wiretap.Crypto.Modular

/-!
# Signatures on a twisted Edwards curve

The curve `y² - x² = 1 + d x² y²` over the integers modulo `2 ^ 255 - 19`. A
secret is a seed of thirty-two bytes; its digest gives the scalar and what the
number of a signature is derived from. Numbers are written with the least
significant byte first.
-/

set_option autoImplicit false

namespace Wiretap.Crypto.Edwards

def prime : Nat := Nat.pow 2 255 - 19

def order : Nat := Nat.pow 2 252 + 27742317777372353535851937790883648493

def constant : Nat := (prime - 121665) * inverse prime 121666 % prime

structure EdPoint where
  x : Nat
  y : Nat
  deriving DecidableEq, Repr, Inhabited

def zero : EdPoint := ⟨0, 1⟩

def natOf (bs : Bytes) : Nat := Der.natOf bs.reverse

def bytesOf (width n : Nat) : Bytes := (Der.fixedBytes width n).reverse

def recover (y : Nat) (odd : Bool) : Option Nat :=
  let below := inverse prime (constant * (y * y % prime) + 1)
  let square := (y * y + (prime - 1)) % prime * below % prime
  let first := powMod prime square ((prime + 3) / 8)
  let root := if first * first % prime = square then first
    else first * powMod prime 2 ((prime - 1) / 4) % prime
  if root * root % prime ≠ square then none
  else if root = 0 then (if odd then none else some 0)
  else some (if (root % 2 = 1) = odd then root else prime - root)

def base : EdPoint :=
  let y := 4 * inverse prime 5 % prime
  ⟨(recover y false).getD 0, y⟩

def add (a b : EdPoint) : EdPoint :=
  let p := prime
  let product := constant * (a.x * b.x % p) % p * (a.y * b.y % p) % p
  ⟨(a.x * b.y + a.y * b.x) % p * inverse p (1 + product) % p,
   (a.y * b.y + a.x * b.x) % p * inverse p (1 + (p - product)) % p⟩

def timesFrom (acc a : EdPoint) (k : Nat) : EdPoint :=
  if h : k = 0 then acc
  else timesFrom (if k % 2 = 1 then add acc a else acc) (add a a) (k / 2)
  termination_by k
  decreasing_by omega

def times (k : Nat) (a : EdPoint) : EdPoint := timesFrom zero a k

def writePoint (a : EdPoint) : Bytes := bytesOf 32 (a.y + a.x % 2 * Nat.pow 2 255)

def readPoint (bs : Bytes) : Option EdPoint := do
  let n := natOf bs
  let y := n % Nat.pow 2 255
  if bs.length = 32 ∧ y < prime then some ⟨← recover y (Nat.pow 2 255 ≤ n), y⟩ else none

def secretScalar (seed : Bytes) : Nat :=
  natOf ((Digest.sha512.hash seed).take 32) % Nat.pow 2 254 / 8 * 8 + Nat.pow 2 254

def publicKey (seed : Bytes) : Bytes := writePoint (times (secretScalar seed) base)

def challenge (r key message : Bytes) : Nat :=
  natOf (Digest.sha512.hash (r ++ key ++ message)) % order

def sign (seed message : Bytes) : Bytes :=
  let nonce := natOf (Digest.sha512.hash ((Digest.sha512.hash seed).drop 32 ++ message)) % order
  let r := writePoint (times nonce base)
  let s := (nonce + challenge r (publicKey seed) message * secretScalar seed) % order
  r ++ bytesOf 32 s

def verifies (key message signature : Bytes) : Bool :=
  let r := signature.take 32
  let s := natOf (signature.drop 32)
  match readPoint key with
  | none => false
  | some a =>
    signature.length = 64 && s < order &&
      (readPoint r).any (fun point =>
        times s base == add point (times (challenge r key message) a))

end Wiretap.Crypto.Edwards
