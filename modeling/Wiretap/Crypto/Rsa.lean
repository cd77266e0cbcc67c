import Wiretap.Crypto.Digest
import Wiretap.Crypto.Modular

/-!
# RSA

Signatures are powers of an encoded digest: the digest and the name of its
algorithm, filled up to the size of the modulus.
-/

set_option autoImplicit false

namespace Wiretap.Crypto

structure RsaPublicKey where
  modulus : Nat
  exponent : Nat
  deriving DecidableEq, Repr, Inhabited

structure RsaPrivateKey where
  modulus : Nat
  exponent : Nat
  secret : Nat
  p : Nat
  q : Nat
  secretP : Nat
  secretQ : Nat
  inverseQ : Nat
  deriving DecidableEq, Repr, Inhabited

namespace RsaPublicKey

def bits (k : RsaPublicKey) : Nat := k.modulus.log2 + 1

def size (k : RsaPublicKey) : Nat := (k.bits + 7) / 8

def der (k : RsaPublicKey) : Bytes := Der.sequence [Der.integer k.modulus, Der.integer k.exponent]

def parts : Der.Reader RsaPublicKey := do return ⟨← Der.natural, ← Der.natural⟩

def read? (bs : Bytes) : Option RsaPublicKey := Der.all (Der.sequenceOf parts) bs

def encoded (size : Nat) (d : Digest) (message : Bytes) : Bytes :=
  let algorithm := Der.sequence [Der.oid d.oid, Der.null]
  let info := Der.sequence [algorithm, Der.octetString (d.hash message)]
  [0, 1] ++ List.replicate (size - 3 - info.length) 0xFF ++ [0] ++ info

def isRegular (k : RsaPublicKey) : Bool :=
  k.bits ≤ 8192 && 3 ≤ k.exponent && k.exponent < Nat.pow 2 33 && k.exponent % 2 = 1 &&
    k.modulus % 2 = 1

def isUsable (k : RsaPublicKey) (d : Digest) : Bool :=
  (if d = .sha1 then 1024 else 2048) ≤ 8 * k.size && k.isRegular

def verifies (k : RsaPublicKey) (d : Digest) (message signature : Bytes) : Bool :=
  let s := Der.natOf signature
  k.isUsable d && signature.length = k.size && s < k.modulus &&
    Der.fixedBytes k.size (powMod k.modulus s k.exponent) == encoded k.size d message

end RsaPublicKey

namespace RsaPrivateKey

def publicKey (k : RsaPrivateKey) : RsaPublicKey := ⟨k.modulus, k.exponent⟩

def usualExponent : Nat := 65537

def ofPrimes (p q : Nat) : RsaPrivateKey :=
  let secret := inverse ((p - 1) * (q - 1)) usualExponent
  ⟨p * q, usualExponent, secret, p, q, secret % (p - 1), secret % (q - 1), inverse p q⟩

def isValid (k : RsaPrivateKey) : Bool :=
  k.p * k.q = k.modulus && 1 < k.p && 1 < k.q && k.secret < k.modulus &&
    k.exponent * k.secret % (k.p - 1) = 1 && k.exponent * k.secret % (k.q - 1) = 1 &&
    k.secretP = k.secret % (k.p - 1) && k.secretQ = k.secret % (k.q - 1) &&
    k.inverseQ < k.p && k.inverseQ * k.q % k.p = 1 &&
    2048 ≤ k.publicKey.bits && k.publicKey.isRegular

def parts : Der.Reader RsaPrivateKey := do
  guard ((← Der.natural) = 0)
  let k : RsaPrivateKey := ⟨← Der.natural, ← Der.natural, ← Der.natural, ← Der.natural,
    ← Der.natural, ← Der.natural, ← Der.natural, ← Der.natural⟩
  guard k.isValid
  return k

def reader : Der.Reader RsaPrivateKey := Der.sequenceOf parts

def der (k : RsaPrivateKey) : Bytes :=
  Der.sequence ([0, k.modulus, k.exponent, k.secret, k.p, k.q, k.secretP, k.secretQ,
    k.inverseQ].map Der.integer)

def sign (k : RsaPrivateKey) (d : Digest) (message : Bytes) : Bytes :=
  let size := k.publicKey.size
  Der.fixedBytes size
    (powMod k.modulus (Der.natOf (RsaPublicKey.encoded size d message)) k.secret)

end RsaPrivateKey
end Wiretap.Crypto
