import Wiretap.Config

/-!
# Proxy sessions

A session is one run of the proxy: where it listens, where it relays to, and
whether it is active. Its ports are not zero, and it names a TLS server
exactly when it uses TLS. Only the active flag changes after it is made.
-/

set_option autoImplicit false

namespace Wiretap
open Wiretap.Text

structure Session where
  localAddress : String
  localPort : UInt16
  targetHost : String
  targetPort : UInt16
  tls : Bool
  serverName : Option String
  active : Bool
  deriving DecidableEq, Repr, Inhabited

namespace Session

def make (localAddress : String) (localPort : UInt16) (targetHost : String)
    (targetPort : UInt16) (tls : Bool) (serverName : Option String) :
    Except ConfigFailure Session :=
  if isBlank localAddress then .error (.badAddress "local address must not be empty")
  else if isBlank targetHost then .error (.badAddress "target host must not be empty")
  else if localPort = 0 ∨ targetPort = 0 then
    .error (.badPort ("ports must be between 1 and 65535 " ++
      s!"(got {localPort.toNat} and {targetPort.toNat})"))
  else
    let serverName := serverName.filter (fun host => !isBlank host)
    match tls, serverName with
    | true, none => .error .missingServerName
    | false, some host =>
      .error (.outOfRange s!"SNI host '{host}' given for a session without TLS")
    | _, _ => .ok ⟨localAddress, localPort, targetHost, targetPort, tls, serverName, false⟩

def ofSettings (s : SessionSettings) : Except ConfigFailure Session :=
  make s.listenAddress s.listenPort s.targetHost s.targetPort s.tls
    (if s.tls then s.serverName else none)

def setActive (s : Session) (active : Bool) : Session := { s with active }

def info (s : Session) : String :=
  s!"{s.localAddress}:{s.localPort.toNat} → {s.targetHost}:{s.targetPort.toNat}" ++
    match s.serverName with
    | some name => s!" (TLS, SNI {name})"
    | none => ""

def text (s : Session) : String :=
  s!"ProxySession[{s.info} - " ++ (if s.active then "ACTIVE]" else "STOPPED]")

end Session
end Wiretap
