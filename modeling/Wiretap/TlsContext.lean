import Wiretap.Issuer
import Wiretap.ServerName
import Wiretap.Session

/-!
# TLS of a session

How a session deals with TLS: what it presents to clients when it terminates
their TLS, and under which name it reaches the target. A session without TLS
passes bytes through on both sides.
-/

set_option autoImplicit false

namespace Wiretap

structure TlsContext where
  -- what is presented to clients, when their TLS is terminated
  presented : Option KeyStore
  -- the name of the target, when it is reached over TLS
  target : Option ServerName
  verifies : Bool
  deriving Inhabited

inductive TlsStop where
  | failed (error : SessionFailure)
  | broken (reason : IssueBreak)
  deriving Inhabited

namespace TlsContext

def plain : TlsContext := ⟨none, none, false⟩

def interceptsClients (t : TlsContext) : Bool := t.presented.isSome

def reachesTargetOverTls (t : TlsContext) : Bool := t.target.isSome

def unverified : LogLine := ⟨.warn, "Upstream certificate verification is DISABLED"⟩

def noIssuer : CertificateFailure := .missingMaterial "no certificate issuer available"

def present (issuer : Option Issuer) (d : Draw) (name : String) (days : Nat) :
    Except TlsStop (KeyStore × List LogLine) :=
  match issuer with
  | none => .error (.failed (.certificate noIssuer))
  | some i =>
    match i.issue d name days with
    | .error (.broken reason) => .error (.broken reason)
    | .error (.failed e) => .error (.failed (.certificate e))
    | .ok c =>
      match c.keyStore.serverCertificate with
      | .error e => .error (.failed (.certificate e))
      | .ok _ => .ok (c.keyStore, [Issuer.issued c.host days,
          ⟨.info, s!"Intercepting client TLS as '{name}'"⟩])

/-- What is logged before a certificate is issued, which stays logged if that fails. -/
def warned (s : Session) (t : Tuning) : List LogLine :=
  if s.tls && (s.serverName.bind ServerName.read?).isSome && !t.verifyTarget then [unverified]
  else []

/-- The context that a session needs, and what is logged on the way. A certificate is issued
only when clients are intercepted. -/
def forSession (s : Session) (t : Tuning) (issuer : Option Issuer) (d : Draw) :
    Except TlsStop (TlsContext × List LogLine) :=
  if !s.tls then .ok (plain, [])
  else match s.serverName with
    | none => .error (.failed (.invalid .missingServerName))
    | some name =>
      match ServerName.read? name with
      | none => .error (.failed (.network (.serverName name)))
      | some target =>
        if t.interceptClients then do
          let (store, more) ← present issuer d name t.validityDays
          return (⟨some store, some target, t.verifyTarget⟩, warned s t ++ more)
        else .ok (⟨none, some target, t.verifyTarget⟩, warned s t)

end TlsContext
end Wiretap
