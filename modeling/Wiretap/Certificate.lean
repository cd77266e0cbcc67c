import Wiretap.DistinguishedName
import Wiretap.PrivateKey
import Wiretap.Timestamp

/-!
# Certificates

A certificate binds a name to a public key. It is read with the bytes of its
parts at hand: its signature is over the bytes of its body, and a signature by
a key is checked without regard to names and times. Reading is lenient: tags
are told apart by their numbers alone, lengths may be written in any way, and
whatever follows what is looked for in a sequence does not matter.
-/

set_option autoImplicit false

namespace Wiretap
open Wiretap.Crypto

structure Extension where
  oid : Der.Oid
  critical : Bool
  value : Bytes
  deriving DecidableEq, Repr, Inhabited

structure PublicInfo where
  algorithm : Der.Oid
  curve : Option Curve
  key : Bytes
  raw : Bytes
  deriving DecidableEq, Repr, Inhabited

/-- What is signed of a certificate. Times are seconds since the start of 1970. -/
structure CertificateBody where
  body : Bytes
  serial : Bytes
  issuer : DistinguishedName
  notBefore : Int
  notAfter : Int
  subject : DistinguishedName
  publicInfo : PublicInfo
  extensions : List Extension
  deriving DecidableEq, Repr, Inhabited

structure Certificate extends CertificateBody where
  raw : Bytes
  algorithm : Der.Oid
  signature : Bytes
  deriving DecidableEq, Repr, Inhabited

/-! Times in certificates -/

namespace CertificateTime

def digits? (bs : Bytes) : Option Nat :=
  if bs.all (fun b => 0x30 ≤ b && b ≤ 0x39) then
    some (bs.foldl (fun n b => 10 * n + (b.toNat - 48)) 0)
  else none

def two : Der.Reader Nat := fun bs =>
  match bs with
  | a :: b :: rest => (digits? [a, b]).map (·, rest)
  | _ => none

def twoOrZero : Der.Reader Nat := do
  if 2 ≤ (← get).length then two else return 0

def letterZ : UInt8 := 0x5A

def zone : Der.Reader Int := fun bs =>
  match bs with
  | [b] => if b = letterZ then some (0, []) else none
  | [sign, a, b, c, d] => do
    let hour ← digits? [a, b]
    let minute ← digits? [c, d]
    let ahead : Int := hour * 60 + minute
    if 25 < hour ∨ 59 < minute then none
    else if sign = 0x2B then some (ahead, [])
    else if sign = 0x2D then some (-ahead, [])
    else none
  | _ => none

def fraction : Der.Reader Unit := do
  match ← get with
  | 0x2E :: rest =>
    let ds := rest.takeWhile (· != letterZ)
    guard (ds.length ≤ 3 ∧ (digits? ds).isSome)
    set (rest.drop ds.length)
  | _ => return ()

def seconds? (date : Date) (hour minute second : Nat) (ahead : Int) : Option Int :=
  if date.isValid ∧ hour < 24 ∧ minute < 60 ∧ second < 60 then
    some (date.toDays * 86400 + (hour * 3600 + minute * 60 + second : Nat) - ahead * 60)
  else none

/-- Two digits of a year from 50 on mean the last century. Seconds may be left out. -/
def short : Der.Reader Int := do
  let year ← two
  let year := if year < 50 then 2000 + year else 1900 + year
  let date : Date := ⟨year, ← two, ← two⟩
  let hour ← two
  let minute ← two
  guard !(← Der.atEnd)
  let second ← twoOrZero
  let ahead ← zone
  seconds? date hour minute second ahead

def long : Der.Reader Int := do
  let century ← two
  let year := 100 * century + (← two)
  let date : Date := ⟨year, ← two, ← two⟩
  let hour ← two
  let minute ← twoOrZero
  let second ← twoOrZero
  fraction
  guard ((← get) = [letterZ])
  set ([] : Bytes)
  seconds? date hour minute second 0

def isVisible (b : UInt8) : Bool := 0x20 ≤ b && b ≤ 0x7F

def reader : Der.Reader Int := do
  let e ← Der.element
  guard (e.content.all isVisible)
  if e.number = Der.Tag.number Der.Tag.utcTime then Der.all short e.content
  else
    guard (e.number = Der.Tag.number Der.Tag.generalizedTime)
    Der.all long e.content

end CertificateTime

namespace PublicInfo

def algorithmName : Der.Reader (Der.Oid × Option Der.Element) := Der.sequenceWith do
  let kind ← Der.anyOid
  if ← Der.atEnd then return (kind, none) else return (kind, some (← Der.element))

def curve? (parameter : Der.Element) : Option Curve :=
  if parameter.number = Der.Tag.number Der.Tag.oid then Curve.ofOid? ⟨parameter.content⟩
  else none

def parts : Der.Reader PublicInfo := do
  let (kind, parameter) ← algorithmName
  return ⟨kind, parameter.bind curve?, ← Der.bits, []⟩

/-- `raw` ends behind the key. -/
def reader : Der.Reader PublicInfo := do
  let e ← Der.numbered Der.Tag.sequence
  let (info, rest) ← parts e.content
  return { info with raw := e.raw.take (e.raw.length - rest.length) }

end PublicInfo

namespace Extension

def reader : Der.Reader Extension := Der.sequenceWith do
  let oid ← Der.anyOid
  let critical ← Der.optional do
    let e ← Der.numbered Der.Tag.boolean
    guard (e.content.length = 1)
    return e.content != [0]
  let value ← Der.numbered Der.Tag.octetString
  guard value.isPrimitive
  return ⟨oid, critical.getD false, value.content⟩

/-- The size of the field around the extensions does not matter: it ends with the body. -/
def list : Der.Reader (List Extension) := do
  if ← Der.atEnd then return []
  else
    let header ← Der.readHeader
    guard (header.number = 3 ∧ header.size.isSome)
    let e ← Der.numbered Der.Tag.sequence
    guard (← Der.atEnd)
    Der.allOf reader e.content

end Extension

namespace CertificateBody

def number : Der.Reader Nat := do
  let e ← Der.numbered Der.Tag.integer
  guard e.isPrimitive
  e.nat?

def word? (e : Der.Element) : Option Nat :=
  (Der.within number e.content).filter (· < Nat.pow 2 32)

def fields (body : Bytes) : Der.Reader CertificateBody := do
  let _ ← Der.field 0 word?
  let serial ← Der.readLoose
  guard (serial.number = Der.Tag.number Der.Tag.integer)
  let _ ← PublicInfo.algorithmName
  let issuer ← DistinguishedName.reader
  let (notBefore, notAfter) ← Der.sequenceWith do
    return (← CertificateTime.reader, ← CertificateTime.reader)
  let subject ← DistinguishedName.reader
  let publicInfo ← PublicInfo.reader
  let _ ← Der.field 1 Der.Element.bits?
  let _ ← Der.field 2 Der.Element.bits?
  let extensions ← Extension.list
  return ⟨body, serial.content, issuer, notBefore, notAfter, subject, publicInfo, extensions⟩

def reader : Der.Reader CertificateBody := do
  let e ← Der.numbered Der.Tag.sequence
  Der.within (fields e.raw) e.content

end CertificateBody

namespace Certificate

/-- The certificate at the front. -/
def reader : Der.Reader Certificate := do
  let e ← Der.numbered Der.Tag.sequence
  let parts : Der.Reader Certificate := do
    let body ← CertificateBody.reader
    let (algorithm, _) ← PublicInfo.algorithmName
    return { body with raw := e.raw, algorithm, signature := ← Der.bits }
  Der.within parts e.content

def read? (bs : Bytes) : Option (Certificate × Bytes) := reader bs

def extension? (c : Certificate) (o : Der.Oid) : Option Extension :=
  c.extensions.find? (·.oid == o)

namespace Extensions

def subjectKey : Der.Oid := .ofArcs [2, 5, 29, 14]
def keyUsage : Der.Oid := .ofArcs [2, 5, 29, 15]
def subjectNames : Der.Oid := .ofArcs [2, 5, 29, 17]
def basicConstraints : Der.Oid := .ofArcs [2, 5, 29, 19]
def nameConstraints : Der.Oid := .ofArcs [2, 5, 29, 30]
def revocationPoints : Der.Oid := .ofArcs [2, 5, 29, 31]
def authorityKey : Der.Oid := .ofArcs [2, 5, 29, 35]
def extendedUsage : Der.Oid := .ofArcs [2, 5, 29, 37]

end Extensions

def rsaDigest? (o : Der.Oid) : Option Digest :=
  if o = Algorithm.rsaWithSha1 ∨ o = Algorithm.rsaWithSha1Old then some .sha1
  else if o = Algorithm.rsaWithSha256 then some .sha256
  else if o = Algorithm.rsaWithSha384 then some .sha384
  else if o = Algorithm.rsaWithSha512 then some .sha512
  else none

def curveDigest? (o : Der.Oid) : Option Digest :=
  if o = Algorithm.curveWithSha256 then some .sha256
  else if o = Algorithm.curveWithSha384 then some .sha384
  else none

def isSignedBy (c : Certificate) (signer : PublicInfo) : Bool :=
  if let some d := rsaDigest? c.algorithm then
    (RsaPublicKey.read? signer.key).any (fun k => k.verifies d c.body c.signature)
  else if let some d := curveDigest? c.algorithm then
    match signer.curve with
    | some .p256 => Curve.p256.verifies signer.key d c.body c.signature
    | some .p384 => Curve.p384.verifies signer.key d c.body c.signature
    | _ => false
  else c.algorithm = Algorithm.edwards && Edwards.verifies signer.key c.body c.signature

/-! What extensions say -/

def usageBits : Der.Reader Bytes := do
  let e ← Der.numbered Der.Tag.bitString
  guard (e.content.head?.any (· < 8))
  e.bits?

def keyUsage? (c : Certificate) : Option Nat := do
  let e ← c.extension? Extensions.keyUsage
  let flags := (← Der.within usageBits e.value).flatMap
    (fun b => (List.range 8).map (fun i => b.toNat.testBit (7 - i)))
  some (flags.foldr (fun f n => 2 * n + if f then 1 else 0) 0)

def hasClearUsage (c : Certificate) : Bool :=
  match c.extensions.filter (·.oid == Extensions.keyUsage) with
  | [] => true
  | [e] => (Der.within usageBits e.value).isSome
  | _ => false

def subjectKey? (c : Certificate) : Option Bytes :=
  c.extensions.findSome? (fun e => do
    guard (e.oid = Extensions.subjectKey)
    let id ← Der.within (Der.numbered Der.Tag.octetString) e.value
    guard id.isPrimitive
    return id.content)

def extendedUsages? (c : Certificate) : Option (List Der.Oid) := do
  let e ← c.extension? Extensions.extendedUsage
  Der.all (Der.sequenceOf (Der.many Der.identifier)) e.value

inductive SubjectName where
  | host (name : String)
  | address (bytes : Bytes)
  deriving DecidableEq, Repr

def subjectNames (c : Certificate) : List SubjectName :=
  let names := do
    let e ← c.extension? Extensions.subjectNames
    Der.all (Der.sequenceOf (Der.many Der.canonical)) e.value
  (names.getD []).filterMap (fun e =>
    if e.tag = Der.Tag.implicit 2 then some (.host (String.ofList (Text.Utf8.lenient e.content)))
    else if e.tag = Der.Tag.implicit 7 then some (.address e.content)
    else none)

def constraints? (c : Certificate) : Option (Bool × Option Nat) := do
  let e ← c.extension? Extensions.basicConstraints
  let parts : Der.Reader (Bool × Option Nat) := do
    let authority ← Der.taggedWhenNext Der.Tag.boolean
    let length ← Der.optional Der.natural
    return (authority.any (·.content != [0]), length)
  Der.all (Der.sequenceOf parts) e.value

def isAuthority (c : Certificate) : Bool := c.constraints?.any (·.1)

end Certificate
end Wiretap
