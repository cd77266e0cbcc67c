import Wiretap.Crypto.Curve
import Wiretap.Crypto.Edwards
import Wiretap.Crypto.Rsa

/-!
# Private keys

A private key signs, and fixes the public key that certificates hold. It is
stored in an envelope that names its kind, or bare in the form of its kind.
What is stored has to be written in the one right way, but bytes behind the
key do not matter.
-/

set_option autoImplicit false

namespace Wiretap
open Wiretap.Crypto

inductive PrivateKey where
  | rsa (key : RsaPrivateKey)
  | curve (curve : Curve) (secret : Nat)
  | edwards (seed : Bytes)
  deriving DecidableEq, Repr, Inhabited

inductive KeyForm where
  | enveloped
  | bareRsa
  | bareCurve
  deriving DecidableEq, Repr, Inhabited

def KeyForm.standards : List (String × KeyForm) :=
  [("pkcs8", .enveloped), ("pkcs1", .bareRsa), ("sec1", .bareCurve)]

namespace Algorithm

def rsa : Der.Oid := .ofArcs [1, 2, 840, 113549, 1, 1, 1]
def curve : Der.Oid := .ofArcs [1, 2, 840, 10045, 2, 1]
def edwards : Der.Oid := .ofArcs [1, 3, 101, 112]

def rsaWithSha1 : Der.Oid := .ofArcs [1, 2, 840, 113549, 1, 1, 5]
def rsaWithSha1Old : Der.Oid := .ofArcs [1, 3, 14, 3, 2, 29]
def rsaWithSha256 : Der.Oid := .ofArcs [1, 2, 840, 113549, 1, 1, 11]
def rsaWithSha384 : Der.Oid := .ofArcs [1, 2, 840, 113549, 1, 1, 12]
def rsaWithSha512 : Der.Oid := .ofArcs [1, 2, 840, 113549, 1, 1, 13]
def curveWithSha256 : Der.Oid := .ofArcs [1, 2, 840, 10045, 4, 3, 2]
def curveWithSha384 : Der.Oid := .ofArcs [1, 2, 840, 10045, 4, 3, 3]
def curveWithSha512 : Der.Oid := .ofArcs [1, 2, 840, 10045, 4, 3, 4]

end Algorithm

namespace PrivateKey

def publicInfo : PrivateKey → Bytes
  | .rsa k => Der.sequence [Der.sequence [Der.oid Algorithm.rsa, Der.null],
      Der.bitString 0 k.publicKey.der]
  | .curve c secret => Der.sequence [Der.sequence [Der.oid Algorithm.curve, Der.oid c.oid],
      Der.bitString 0 (c.publicKey secret)]
  | .edwards seed => Der.sequence [Der.sequence [Der.oid Algorithm.edwards],
      Der.bitString 0 (Edwards.publicKey seed)]

def enveloped : PrivateKey → Bytes
  | .rsa k => Der.sequence [Der.integer 0, Der.sequence [Der.oid Algorithm.rsa, Der.null],
      Der.octetString k.der]
  | .curve c secret => Der.sequence [Der.integer 0,
      Der.sequence [Der.oid Algorithm.curve, Der.oid c.oid],
      Der.octetString (Der.sequence [Der.integer 1,
        Der.octetString (Der.fixedBytes c.size secret)])]
  | .edwards seed => Der.sequence [Der.integer 0, Der.sequence [Der.oid Algorithm.edwards],
      Der.octetString (Der.octetString seed)]

def signatureAlgorithm : PrivateKey → Bytes
  | .rsa _ => Der.sequence [Der.oid Algorithm.rsaWithSha256, Der.null]
  | .curve .p256 _ => Der.sequence [Der.oid Algorithm.curveWithSha256]
  | .curve .p384 _ => Der.sequence [Der.oid Algorithm.curveWithSha384]
  | .curve .p521 _ => Der.sequence [Der.oid Algorithm.curveWithSha512]
  | .edwards _ => Der.sequence [Der.oid Algorithm.edwards]

def sign : PrivateKey → Bytes → Bytes
  | .rsa k, message => k.sign .sha256 message
  | .curve c secret, message => c.sign secret c.digest message
  | .edwards seed, message => Edwards.sign seed message

/-! Curves -/

def isNumber (n : Nat) (bs : Bytes) : Bool := Der.natOf bs == n

def primeField : Der.Oid := .ofArcs [1, 2, 840, 10045, 1, 1]

def writtenOut (c : Curve) : Der.Reader Unit := do
  guard ((← Der.natural) = 1)
  Der.sequenceOf do
    guard ((← Der.identifier) = primeField)
    guard ((← Der.natural) = c.prime)
  Der.sequenceOf do
    guard (isNumber (c.prime - 3) (← Der.tagged Der.Tag.octetString).content)
    guard (isNumber c.constant (← Der.tagged Der.Tag.octetString).content)
    let _ ← Der.taggedWhenNext Der.Tag.bitString
  match (← Der.tagged Der.Tag.octetString).content with
  | 4 :: point =>
    let (x, y) := point.splitAt (point.length / 2)
    guard (x.length = y.length ∧ isNumber c.base.1 x ∧ isNumber c.base.2 y)
  | _ => failure
  guard ((← Der.natural) = c.order)
  if let some e ← Der.taggedWhenNext Der.Tag.integer then guard (e.content = [1])

def curveName (c : Curve) : Der.Reader Unit := do
  if ← Der.isNext Der.Tag.sequence then Der.sequenceOf (writtenOut c)
  else guard ((← Der.identifier) = c.oid)

def curveKey (c : Curve) (secret : Nat) (stored : Option Bytes) : Option PrivateKey :=
  if 0 < secret ∧ secret < c.order ∧
      stored.all (c.spellings (c.publicPoint secret)).contains then
    some (.curve c secret)
  else none

def bareCurve (c : Curve) : Der.Reader PrivateKey := Der.sequenceOf do
  guard ((← Der.natural) = 1)
  let secret := Der.natOf (← Der.tagged Der.Tag.octetString).content
  let _ ← Der.holdingWhenNext (Der.Tag.explicit 0) (curveName c)
  let stored ← Der.holdingWhenNext (Der.Tag.explicit 1) (Der.tagged Der.Tag.bitString)
  match stored with
  | none => curveKey c secret none
  | some bits =>
    match bits.content with
    | 0 :: point => curveKey c secret (some point)
    | _ => failure

/-! Envelopes -/

structure Envelope where
  kind : Bytes
  held : Bytes
  publicKey : Option Bytes
  deriving DecidableEq, Repr, Inhabited

def envelope : Der.Reader Envelope := Der.sequenceOf do
  let version ← Der.natural
  guard (version ≤ 1)
  let kind ← Der.tagged Der.Tag.sequence
  let held ← Der.tagged Der.Tag.octetString
  let _ ← Der.taggedWhenNext (Der.Tag.explicit 0)
  let key ← if version = 1 then Der.taggedWhenNext (Der.Tag.implicit 1) else pure none
  return ⟨kind.content, held.content, key.map (·.content)⟩

def kindOf (kind : Der.Oid) (parameters : Der.Reader Unit) : Der.Reader Unit := do
  guard ((← Der.identifier) = kind)
  parameters

def Envelope.open? (e : Envelope) (kind : Der.Oid) (parameters : Der.Reader Unit) :
    Option Bytes := do
  Der.all (kindOf kind parameters) e.kind
  return e.held

def rsaInEnvelope (e : Envelope) : Option PrivateKey := do
  let parameters : Der.Reader Unit := do
    guard ((← Der.tagged Der.Tag.null).content = [])
  (Der.all RsaPrivateKey.reader (← e.open? Algorithm.rsa parameters)).map .rsa

def curveInEnvelope (c : Curve) (e : Envelope) : Option PrivateKey := do
  Der.all (bareCurve c) (← e.open? Algorithm.curve (curveName c))

def edwardsInEnvelope (e : Envelope) : Option PrivateKey := do
  let seed ← Der.all (Der.tagged Der.Tag.octetString) (← e.open? Algorithm.edwards (pure ()))
  let seed := seed.content
  if seed.length = 32 ∧ e.publicKey.all (· == 0 :: Edwards.publicKey seed) then
    some (.edwards seed)
  else none

def readCurve? (bs : Bytes) : Option PrivateKey :=
  Curve.all.findSome? (fun c =>
    ((Der.within envelope bs).bind (curveInEnvelope c)).or (Der.within (bareCurve c) bs))

def readBareRsa? (bs : Bytes) : Option PrivateKey :=
  (Der.within RsaPrivateKey.reader bs).map .rsa

def read? (form : KeyForm) (bs : Bytes) : Option PrivateKey :=
  match form with
  | .enveloped => do
    let e ← Der.within envelope bs
    (rsaInEnvelope e).or ((Curve.all.findSome? (curveInEnvelope · e)).or (edwardsInEnvelope e))
  | .bareRsa => readBareRsa? bs
  | .bareCurve => readCurve? bs

def formOf? (bs : Bytes) : Option KeyForm :=
  match bs with
  | 0x30 :: size :: rest =>
    match rest.drop (size.toNat - 128) with
    | 2 :: 1 :: _ :: 0x30 :: _ => some .enveloped
    | 2 :: 1 :: 0 :: _ => some .bareRsa
    | 2 :: 1 :: 1 :: _ => some .bareCurve
    | _ => none
  | _ => none

def readAny? (bs : Bytes) : Option PrivateKey := do
  let form ← formOf? bs
  let e := Der.within envelope bs
  (e.bind edwardsInEnvelope).or ((readCurve? bs).or
    (if form = .enveloped then e.bind rsaInEnvelope else readBareRsa? bs))

end PrivateKey
end Wiretap
