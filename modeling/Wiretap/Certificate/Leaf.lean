import Wiretap.Address
import Wiretap.Certificate

/-!
# Leaf certificates

The certificate of one host: its name is the common name and an alternative
name, next to the address that the name may be. Its key may sign and encipher
for a TLS server, and it is no authority. Its times are whole seconds.
-/

set_option autoImplicit false

namespace Wiretap
open Wiretap.Crypto

structure Leaf where
  host : String
  serial : Bytes
  notBefore : Int
  notAfter : Int
  publicInfo : Bytes
  deriving Repr, Inhabited

structure Signer where
  name : Bytes
  keyIdentifier : Bytes
  key : PrivateKey
  deriving Inhabited

namespace Leaf

def two (n : Nat) : Bytes := [UInt8.ofNat (48 + n / 10 % 10), UInt8.ofNat (48 + n % 10)]

def time (seconds : Int) : Bytes :=
  let date := Date.ofDays (seconds / 86400)
  let second := (seconds % 86400).toNat
  let year := date.year.toNat
  let rest := two date.month ++ two date.day ++ two (second / 3600) ++ two (second / 60 % 60) ++
    two (second % 60) ++ [0x5A]
  if 1950 ≤ year ∧ year < 2050 then Der.write Der.Tag.utcTime (two year ++ rest)
  else Der.write Der.Tag.generalizedTime (two (year / 100) ++ two year ++ rest)

def name (host : String) : Bytes :=
  Der.sequence [Der.set [Der.sequence [Der.oid (.ofArcs Attribute.commonName),
    Der.write Der.Tag.utf8String (Text.Utf8.ofString host)]]]

def extension (o : Der.Oid) (critical : Bool) (value : Bytes) : Bytes :=
  Der.sequence ([Der.oid o] ++ (if critical then [Der.boolean true] else []) ++
    [Der.octetString value])

def addressNames (host : String) : List Bytes :=
  (IpAddress.read? host.toList).toList.map
    (fun ip => Der.write (Der.Tag.implicit 7) ip.octets)

def serverPurpose : Der.Oid := .ofArcs [1, 3, 6, 1, 5, 5, 7, 3, 1]

def purposes : List Der.Oid :=
  [serverPurpose, .ofArcs [1, 3, 6, 1, 5, 5, 7, 3, 2], .ofArcs [2, 5, 29, 37, 0],
   .ofArcs [1, 3, 6, 1, 5, 5, 7, 3, 3]]

def keyIdentifier (publicInfo : Bytes) : Bytes := (Digest.sha256.hash publicInfo).take 20

def extensions (l : Leaf) (s : Signer) : List Bytes :=
  [extension Certificate.Extensions.authorityKey false
      (Der.sequence [Der.write (Der.Tag.implicit 0) s.keyIdentifier]),
    extension Certificate.Extensions.subjectNames false
      (Der.sequence (addressNames l.host ++
        [Der.write (Der.Tag.implicit 2) (Text.Utf8.ofString l.host)])),
    extension Certificate.Extensions.keyUsage true (Der.bitString 5 [0xA0]),
    extension Certificate.Extensions.extendedUsage false (Der.sequence [Der.oid serverPurpose]),
    extension Certificate.Extensions.subjectKey false
      (Der.octetString (keyIdentifier l.publicInfo)),
    extension Certificate.Extensions.basicConstraints true (Der.sequence [Der.boolean false])]

def body (l : Leaf) (s : Signer) : Bytes :=
  Der.sequence [Der.write (Der.Tag.explicit 0) (Der.integer 2), Der.unsigned l.serial,
    s.key.signatureAlgorithm, s.name, Der.sequence [time l.notBefore, time l.notAfter],
    name l.host, l.publicInfo,
    Der.write (Der.Tag.explicit 3) (Der.sequence (l.extensions s))]

def signed (l : Leaf) (s : Signer) : Bytes :=
  let body := l.body s
  Der.sequence [body, s.key.signatureAlgorithm, Der.bitString 0 (s.key.sign body)]

end Leaf
end Wiretap
