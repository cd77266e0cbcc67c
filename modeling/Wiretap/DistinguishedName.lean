import Wiretap.Der
import Wiretap.Text.Utf8

/-!
# Distinguished names

A distinguished name is a list of groups of attributes, each of a kind and
with a value. It is read as far as it goes: what follows the last group that
can be read does not matter. A name is shown as text, and the name of an
authority is written anew into the certificates that it signs.
-/

set_option autoImplicit false

namespace Wiretap
open Wiretap.Text

structure Attribute where
  kind : Der.Oid
  value : Der.Element
  deriving DecidableEq, Repr, Inhabited

structure DistinguishedName where
  groups : List (List Attribute)
  raw : Bytes
  deriving DecidableEq, Repr, Inhabited

structure WrittenAttribute where
  kind : List Nat
  value : Bytes
  deriving DecidableEq, Repr, Inhabited

namespace Attribute

def reader : Der.Reader Attribute :=
  Der.sequenceWith do return ⟨← Der.anyOid, ← Der.element⟩

def group : Der.Reader (List Attribute) := do
  let e ← Der.numbered Der.Tag.set
  let attributes ← Der.within (Der.many reader) e.content
  guard !attributes.isEmpty
  return attributes

def names : List (List Nat × String) :=
  [([2, 5, 4, 3], "CN"), ([2, 5, 4, 6], "C"), ([2, 5, 4, 7], "L"), ([2, 5, 4, 8], "ST"),
   ([2, 5, 4, 10], "O"), ([2, 5, 4, 11], "OU"), ([0, 9, 2342, 19200300, 100, 1, 25], "DC"),
   ([1, 2, 840, 113549, 1, 9, 1], "Email"), ([0, 9, 2342, 19200300, 100, 1, 1], "uid"),
   ([2, 5, 4], "x509"), ([2, 5, 4, 0], "objectClass"), ([2, 5, 4, 1], "aliasedEntryName"),
   ([2, 5, 4, 2], "knowledgeInformation"), ([2, 5, 4, 4], "surname"),
   ([2, 5, 4, 5], "serialNumber"), ([2, 5, 4, 9], "streetAddress"), ([2, 5, 4, 12], "title"),
   ([2, 5, 4, 13], "description"), ([2, 5, 4, 14], "searchGuide"),
   ([2, 5, 4, 15], "businessCategory"), ([2, 5, 4, 16], "postalAddress"),
   ([2, 5, 4, 17], "postalCode"), ([2, 5, 4, 41], "name"), ([2, 5, 4, 42], "givenName"),
   ([2, 5, 4, 43], "initials"), ([2, 5, 4, 44], "generationQualifier"),
   ([2, 5, 4, 45], "uniqueIdentifier"), ([2, 5, 4, 46], "dnQualifier"),
   ([2, 5, 29, 14], "subjectKeyIdentifier"), ([2, 5, 29, 15], "keyUsage"),
   ([2, 5, 29, 16], "privateKeyUsagePeriod"), ([2, 5, 29, 17], "subjectAltName"),
   ([2, 5, 29, 18], "issuerAltName"), ([2, 5, 29, 19], "basicConstraints"),
   ([2, 5, 29, 20], "crlNumber"), ([2, 5, 29, 21], "reasonCode"),
   ([2, 5, 29, 24], "invalidityDate"), ([2, 5, 29, 27], "deltaCRLIndicator"),
   ([2, 5, 29, 28], "issuingDistributionPoint"), ([2, 5, 29, 30], "nameConstraints"),
   ([2, 5, 29, 31], "crlDistributionPoints"), ([2, 5, 29, 32], "certificatePolicies"),
   ([2, 5, 29, 33], "policyMappings"), ([2, 5, 29, 35], "authorityKeyIdentifier"),
   ([2, 5, 29, 36], "policyConstraints"), ([2, 5, 29, 37], "extendedKeyUsage"),
   ([2, 5, 29, 46], "freshestCRL"), ([2, 5, 29, 54], "inhibitAnyPolicy"),
   ([1, 3, 6, 1, 4, 1, 311, 60, 2, 1, 1], "msJurisdictionLocality"),
   ([1, 3, 6, 1, 4, 1, 311, 60, 2, 1, 2], "msJurisdictionStateOrProvince"),
   ([1, 3, 6, 1, 4, 1, 311, 60, 2, 1, 3], "msJurisdictionCountry"),
   ([1, 2, 840, 113549, 1, 1, 1], "rsaEncryption"),
   ([1, 2, 840, 113549, 1, 1, 4], "md5WithRSAEncryption"),
   ([1, 2, 840, 113549, 1, 1, 5], "sha1WithRSAEncryption"),
   ([1, 2, 840, 113549, 1, 1, 10], "rsassa-pss"),
   ([1, 2, 840, 113549, 1, 1, 11], "sha256WithRSAEncryption"),
   ([1, 2, 840, 113549, 1, 1, 12], "sha384WithRSAEncryption"),
   ([1, 2, 840, 113549, 1, 1, 13], "sha512WithRSAEncryption"),
   ([1, 2, 840, 113549, 1, 9, 2], "unstructuredName"),
   ([1, 2, 840, 113549, 1, 9, 7], "challengePassword"),
   ([1, 2, 840, 10045, 2, 1], "id-ecPublicKey"), ([1, 2, 840, 10045, 3, 1, 7], "prime256v1"),
   ([1, 3, 132, 0, 34], "secp384r1"), ([1, 3, 132, 0, 35], "secp521r1"),
   ([1, 2, 840, 10045, 4, 3, 2], "ecdsa-with-SHA256"),
   ([1, 2, 840, 10045, 4, 3, 3], "ecdsa-with-SHA384"),
   ([1, 2, 840, 10045, 4, 3, 4], "ecdsa-with-SHA512")]

def kindText (kind : Der.Oid) : String :=
  match names.find? (fun n => Der.Oid.ofArcs n.1 = kind) with
  | some (_, name) => name
  | none => s!"OID({kind.text})"

def commonName : List Nat := [2, 5, 4, 3]

/-! Strings by the numbers of their tags -/

def utf8 : Nat := 12
def printable : Nat := 19
def teletex : Nat := 20
def ascii : Nat := 22
def universal : Nat := 28
def basic : Nat := 30

def plainStrings : List Nat := [7, utf8, 18, printable, teletex, 21, ascii, 25, 26, 27]

def pairs : Bytes → List Nat
  | [] => []
  | [b] => [b.toNat]
  | a :: b :: rest => (256 * a.toNat + b.toNat) :: pairs rest

def ofPairs : List Nat → Option (List Char)
  | [] => some []
  | n :: rest =>
    if n < 0xD800 ∨ 0xDFFF < n then (ofPairs rest).map (Char.ofNat n :: ·)
    else match rest with
      | [] => none
      | m :: rest =>
        if n ≤ 0xDBFF ∧ 0xDC00 ≤ m ∧ m ≤ 0xDFFF then
          (ofPairs rest).map (Char.ofNat (0x10000 + (n - 0xD800) * 1024 + (m - 0xDC00)) :: ·)
        else none

def valueText (e : Der.Element) : Option String :=
  if plainStrings.contains e.number then Utf8.toString? e.content
  else if e.number = basic then (ofPairs (pairs e.content)).map String.ofList
  else some (String.ofList (e.content.flatMap Hex.upperByte))

def text (a : Attribute) : Option String := do
  return s!"{kindText a.kind}=" ++ (← valueText a.value)

def isPrintable (b : UInt8) : Bool :=
  (0x41 ≤ b && b ≤ 0x5A) || (0x61 ≤ b && b ≤ 0x7A) || (0x30 ≤ b && b ≤ 0x39) ||
    " '()+,-./:=?".toList.any (fun c => c.toNat = b.toNat)

def quadruples : Bytes → Option (List Nat)
  | [] => some []
  | a :: b :: c :: d :: rest => do
    return Der.natOf [a, b, c, d] :: (← quadruples rest)
  | _ => none

def isScalarValue (n : Nat) : Bool := n < 0xD800 || (0xDFFF < n && n < 0x110000)

def isWritable (e : Der.Element) : Bool :=
  let content := e.content
  if e.number = utf8 then (Utf8.toString? content).isSome
  else if e.number = printable then content.all isPrintable
  else if e.number = teletex then content.all (fun b => 0x20 ≤ b && b ≤ 0x7F)
  else if e.number = ascii then content.all (· < 0x80)
  else if e.number = universal then (quadruples content).any (·.all isScalarValue)
  else if e.number = basic then
    content.length % 2 = 0 && (pairs content).all (fun n => isScalarValue n && n < 0xFFFF)
  else false

def written? (a : Attribute) : Option WrittenAttribute :=
  if a.kind.isReadable ∧ isWritable a.value then
    some ⟨a.kind.arcs, Der.write (UInt8.ofNat a.value.number) a.value.content⟩
  else none

end Attribute

namespace WrittenAttribute

def put (a : WrittenAttribute) (as : List WrittenAttribute) : List WrittenAttribute :=
  if as.any (·.kind == a.kind) then as.map (fun b => if b.kind = a.kind then a else b)
  else as ++ [a]

def write (as : List WrittenAttribute) : Except Der.Oid.Fault Bytes := do
  let groups ← as.mapM (fun a => do
    return Der.set [Der.sequence [Der.oid (← Der.Oid.ofArcs? a.kind), a.value]])
  return Der.sequence groups

end WrittenAttribute

namespace DistinguishedName

def reader : Der.Reader DistinguishedName := do
  let e ← Der.numbered Der.Tag.sequence
  let (groups, rest) := Der.manyFrom Attribute.group e.content.length e.content
  return ⟨groups, e.raw.take (e.raw.length - rest.length)⟩

def unreadable : String := "<X509Error: Invalid X.509 name>"

def text (n : DistinguishedName) : String :=
  let groups := n.groups.mapM (fun as => (as.mapM Attribute.text).map (" + ".intercalate ·))
  (groups.map (", ".intercalate ·)).getD unreadable

def written? (n : DistinguishedName) : Option (List WrittenAttribute) :=
  n.groups.foldlM (fun seen group =>
    match group with
    | [a] => do return (← a.written?).put seen
    | _ => none) []

end DistinguishedName
end Wiretap
