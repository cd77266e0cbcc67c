import Wiretap.Certificate.Leaf
import Wiretap.Failure.Report
import Wiretap.Issuer.Embedded
import Wiretap.KeyStore

/-!
# Issuing certificates

An issuer is an authority's certificate with a key. It issues a certificate
for a host, signs it and checks the signature against its own certificate, so
nothing is issued with a key that is not the authority's. What is drawn anew
for each certificate is given from outside: the key, the serial number and the
time.
-/

set_option autoImplicit false

namespace Wiretap
open Wiretap.Text

/-- The certificate that verifies, the text it came from, the name under which the authority
signs, the identifier of its key, and the key. -/
structure Issuer where
  certificate : Certificate
  pem : String
  name : List WrittenAttribute
  keyIdentifier : Bytes
  key : PrivateKey
  deriving Inhabited

structure Draw where
  now : Timestamp
  key : PrivateKey
  serial : Bytes
  deriving Inhabited

structure IssuedCertificate where
  host : String
  certificate : Bytes
  pem : String
  key : PrivateKey
  keyStore : KeyStore
  deriving Inhabited

inductive IssueBreak where
  | beyondCalendar
  | identifier (fault : Der.Oid.Fault)
  deriving DecidableEq, Repr, Inhabited

def IssueBreak.text : IssueBreak → String
  | .beyondCalendar => "resulting value is out of range"
  | .identifier fault => fault.text

inductive IssueStop where
  | failed (error : CertificateFailure)
  | broken (reason : IssueBreak)
  deriving DecidableEq, Repr, Inhabited

def IssuedCertificate.structureText (c : IssuedCertificate) : String :=
  inBraces "IssuedCertificate"
    s!"hostname: {Quoted.text c.host}, key_store: {c.keyStore.structureText}, .."

namespace Issuer

def loaded (c : Certificate) : LogLine :=
  ⟨.info, s!"Loaded interception CA '{c.subject.text}'"⟩

def readKey (text : String) : Except CertificateFailure PrivateKey :=
  match PemSection.first? text with
  | none => .error (.malformedMaterial "CA key: malformed framing")
  | some s =>
    match PrivateKey.readAny? s.bytes with
    | none => .error (.malformedMaterial "CA key: Could not parse key pair")
    | some key => .ok key

def readAuthority (text : String) : Except CertificateFailure Certificate :=
  match PemSection.find? "CERTIFICATE" text with
  | none => .error (.malformedMaterial "no certificate in CA PEM")
  | some (.error _) => .error (.malformedMaterial "CA certificate: malformed section")
  | some (.ok s) =>
    match Certificate.read? s.bytes with
    | none => .error (.malformedMaterial "CA certificate: Could not parse certificate")
    | some (c, _) => .ok { c with raw := s.bytes }

def readSigner (text : String) :
    Except CertificateFailure (Certificate × List WrittenAttribute) :=
  let found := do
    let (c, _) ← Certificate.read? (← PemSection.first? text).bytes
    guard c.hasClearUsage
    return (c, ← c.subject.written?)
  match found with
  | none => .error (.malformedMaterial "CA certificate: Could not parse certificate")
  | some found => .ok found

/-- Whether the key is the certificate's shows only when a certificate is issued. -/
def ofPem (certificate key : String) : Except CertificateFailure Issuer := do
  let key ← readKey key
  let authority ← readAuthority certificate
  let (c, name) ← readSigner certificate
  let identifier := c.subjectKey?.getD (Leaf.keyIdentifier key.publicInfo)
  return ⟨authority, certificate, name, identifier, key⟩

def embedded : Except CertificateFailure Issuer := ofPem Embedded.certificate Embedded.key

/-- Checks that the authority signed the certificate; bytes behind it do not matter. -/
def verify (i : Issuer) (certificate : Bytes) : Except CertificateFailure Unit :=
  match Certificate.read? certificate with
  | none => .error (.verification "invalid certificate")
  | some (c, _) =>
    if c.isSignedBy i.certificate.publicInfo then .ok ()
    else .error (.verification "signature verification error")

def backdating : Nat := 60

def lastYear : Int := 9999

def positive : Bytes → Bytes
  | [] => [1]
  | b :: rest => ((b &&& 0x7F) ||| 0x01) :: rest

def issued (host : String) (days : Nat) : LogLine :=
  ⟨.debug, s!"Issued certificate for {host} ({days} days)"⟩

def issue (i : Issuer) (d : Draw) (hostName : String) (days : Nat) :
    Except IssueStop IssuedCertificate :=
  let host := trim hostName
  if host.isEmpty then .error (.failed (.generation "hostname must not be empty"))
  else if days = 0 then .error (.failed (.generation "validity must be at least one day"))
  else if !host.toList.all (fun c => c.toNat < 128) then
    .error (.failed (.generation s!"invalid host name: {host}"))
  else
    let notAfter := d.now.second + days * 86400
    if lastYear < (Date.ofDays (notAfter / 86400)).year then .error (.broken .beyondCalendar)
    else match WrittenAttribute.write i.name with
      | .error fault => .error (.broken (.identifier fault))
      | .ok name =>
        let leaf : Leaf :=
          ⟨host, positive d.serial, d.now.second - backdating, notAfter, d.key.publicInfo⟩
        let certificate := leaf.signed ⟨name, i.keyIdentifier, i.key⟩
        match i.verify certificate with
        | .error e => .error (.failed e)
        | .ok () => .ok ⟨host, certificate, PemSection.text ⟨"CERTIFICATE", certificate⟩, d.key,
            ⟨[certificate, i.certificate.raw], d.key.enveloped, .enveloped⟩⟩

end Issuer
end Wiretap
