import Wiretap.Crypto.Digest
import Wiretap.Crypto.Modular

/-!
# Signatures on elliptic curves

Curves `y² = x³ - 3x + b` over the integers modulo a prime, with a base point
of prime order. A point is a pair of coordinates, or none for the point at
infinity. The number that a signature is made with is derived from the key
and the digest.
-/

set_option autoImplicit false

namespace Wiretap.Crypto

inductive Curve where
  | p256
  | p384
  | p521
  deriving DecidableEq, Repr, Inhabited

abbrev Point := Option (Nat × Nat)

namespace Curve

def prime : Curve → Nat
  | .p256 => Nat.pow 2 256 - Nat.pow 2 224 + Nat.pow 2 192 + Nat.pow 2 96 - 1
  | .p384 => Nat.pow 2 384 - Nat.pow 2 128 - Nat.pow 2 96 + Nat.pow 2 32 - 1
  | .p521 => Nat.pow 2 521 - 1

def constant : Curve → Nat
  | .p256 => 0x5ac635d8aa3a93e7b3ebbd55769886bc651d06b0cc53b0f63bce3c3e27d2604b
  | .p384 => 0xb3312fa7e23ee7e4988e056be3f82d19 <<< 256 +
      0x181d9c6efe8141120314088f5013875ac656398d8a2ed19d2a85c8edd3ec2aef
  | .p521 => 0x0051953eb9618e1c9a1f929a21a0b68540eea2da725b99b315f3b8b489918ef109e1 <<< 256 +
      0x56193951ec7e937b1652c0bd3bb1bf073573df883d2c34f1ef451fd46b503f00

def order : Curve → Nat
  | .p256 => 0xffffffff00000000ffffffffffffffffbce6faada7179e84f3b9cac2fc632551
  | .p384 => 0xffffffffffffffffffffffffffffffff <<< 256 +
      0xffffffffffffffffc7634d81f4372ddf581a0db248b0a77aecec196accc52973
  | .p521 => 0x01fffffffffffffffffffffffffffffffffffffffffffffffffffffffffffffffffa <<< 256 +
      0x51868783bf2f966b7fcc0148f709a5d03bb5c9b8899c47aebb6fb71e91386409

def base : Curve → Nat × Nat
  | .p256 => (0x6b17d1f2e12c4247f8bce6e563a440f277037d812deb33a0f4a13945d898c296,
      0x4fe342e2fe1a7f9b8ee7eb4a7c0f9e162bce33576b315ececbb6406837bf51f5)
  | .p384 => (0xaa87ca22be8b05378eb1c71ef320ad74 <<< 256 +
        0x6e1d3b628ba79b9859f741e082542a385502f25dbf55296c3a545e3872760ab7,
      0x3617de4a96262c6f5d9e98bf9292dc29 <<< 256 +
        0xf8f41dbd289a147ce9da3113b5f0b8c00a60b1ce1d7e819d7a431d7c90ea0e5f)
  | .p521 => (0x00c6858e06b70404e9cd9e3ecb662395b4429c648139053fb521f828af606b4d3dba <<< 256 +
        0xa14b5e77efe75928fe1dc127a2ffa8de3348b3c1856a429bf97e7e31c2e5bd66,
      0x011839296a789a3bc0045c8a5fb42c7d1bd998f54449579b446817afbd17273e662c <<< 256 +
        0x97ee72995ef42640c550b9013fad0761353c7086a272c24088be94769fd16650)

def size : Curve → Nat
  | .p256 => 32
  | .p384 => 48
  | .p521 => 66

def oid : Curve → Der.Oid
  | .p256 => .ofArcs [1, 2, 840, 10045, 3, 1, 7]
  | .p384 => .ofArcs [1, 3, 132, 0, 34]
  | .p521 => .ofArcs [1, 3, 132, 0, 35]

def all : List Curve := [.p256, .p384, .p521]

def ofOid? (o : Der.Oid) : Option Curve := all.find? (fun c => c.oid == o)

def digest : Curve → Digest
  | .p256 => .sha256
  | .p384 => .sha384
  | .p521 => .sha512

def contains (c : Curve) (x y : Nat) : Bool :=
  let p := c.prime
  x < p && y < p && (y * y + 3 * x) % p = (x * x % p * x + c.constant) % p

def double (c : Curve) : Point → Point
  | none => none
  | some (x, y) =>
    let p := c.prime
    if y = 0 then none
    else
      let slope := (3 * x * x + (p - 3)) % p * inverse p (2 * y) % p
      let x₂ := (slope * slope + 2 * (p - x)) % p
      some (x₂, (slope * (x + (p - x₂)) + (p - y)) % p)

def add (c : Curve) : Point → Point → Point
  | none, b => b
  | a, none => a
  | some (x, y), some (u, v) =>
    let p := c.prime
    if x = u then (if y = v then c.double (some (x, y)) else none)
    else
      let slope := (v + (p - y)) % p * inverse p (u + (p - x)) % p
      let x₂ := (slope * slope + (p - x) + (p - u)) % p
      some (x₂, (slope * (x + (p - x₂)) + (p - y)) % p)

def timesFrom (c : Curve) (acc a : Point) (k : Nat) : Point :=
  if h : k = 0 then acc
  else timesFrom c (if k % 2 = 1 then c.add acc a else acc) (c.double a) (k / 2)
  termination_by k
  decreasing_by omega

def times (c : Curve) (k : Nat) (a : Point) : Point := c.timesFrom none a k

def writePoint (c : Curve) : Point → Bytes
  | none => [0]
  | some (x, y) => 4 :: Der.fixedBytes c.size x ++ Der.fixedBytes c.size y

def readPoint (c : Curve) (bs : Bytes) : Option Point :=
  match bs with
  | 4 :: rest =>
    let x := Der.natOf (rest.take c.size)
    let y := Der.natOf (rest.drop c.size)
    if rest.length = 2 * c.size && c.contains x y then some (some (x, y)) else none
  | _ => none

def spellings (c : Curve) : Point → List Bytes
  | none => []
  | some (x, y) =>
    let (first, second) := (Der.fixedBytes c.size x, Der.fixedBytes c.size y)
    let odd := UInt8.ofNat (y % 2)
    [4 :: first ++ second, (2 + odd) :: first, (6 + odd) :: first ++ second]

def publicPoint (c : Curve) (secret : Nat) : Point := c.times secret (some c.base)

def publicKey (c : Curve) (secret : Nat) : Bytes := c.writePoint (c.publicPoint secret)

def scalar (c : Curve) (hash : Bytes) : Nat :=
  Der.natOf hash >>> (8 * hash.length - (c.order.log2 + 1))

def sign (c : Curve) (secret : Nat) (d : Digest) (message : Bytes) : Bytes :=
  let n := c.order
  let hash := d.hash message
  let k := 1 + Der.natOf (Digest.sha512.hash (Der.fixedBytes c.size secret ++ hash)) % (n - 1)
  let r := ((c.times k (some c.base)).elim 0 (·.1)) % n
  let s := inverse n k * (c.scalar hash + r * secret) % n
  Der.sequence [Der.integer r, Der.integer s]

def readSignature (bs : Bytes) : Option (Nat × Nat) :=
  Der.all (Der.sequenceOf (do return (← Der.natural, ← Der.natural))) bs

def verifies (c : Curve) (key : Bytes) (d : Digest) (message signature : Bytes) : Bool :=
  match c.readPoint key, readSignature signature with
  | some point, some (r, s) =>
    let n := c.order
    if r = 0 || s = 0 || n ≤ r || n ≤ s then false
    else
      let w := inverse n s
      let sum := c.add (c.times (c.scalar (d.hash message) * w % n) (some c.base))
        (c.times (r * w % n) point)
      sum.any (fun q => q.1 % n = r)
  | _, _ => false

end Curve
end Wiretap.Crypto
