import Wiretap.Server

/-!
# Networks of a rehearsal

A rehearsal runs the proxy on a network of its own. An isolated network lets
any address be bound and reaches nobody. A loopback network is a machine with
the loopback addresses of both families and nothing else. Some calls can be
made to fail.
-/

set_option autoImplicit false

namespace Wiretap.Rehearsal

inductive Network where
  | isolated
  | loopback
  deriving DecidableEq, Repr, Inhabited

structure Faults where
  accept : List Int
  localAddress : Option Int
  deriving DecidableEq, Repr, Inhabited

def Faults.none : Faults := ⟨[], .none⟩

namespace Network

def portTaken : IoFailure := .system 98

def addressMissing : IoFailure := .system 99

def unreachable : IoFailure := .system 101

def resetByPeer : IoFailure := .system 104

def refusedConnection : IoFailure := .system 111

def innerNul : IoFailure := .described .invalidInput "file name contained an unexpected NUL byte"

def unknownName : IoFailure :=
  .described .other "failed to lookup address information: Name or service not known"

def resolve (host : String) : Except IoFailure IpAddress :=
  match IpAddress.read? host.toList with
  | some ip => .ok ip
  | none => .error (if host.toList.contains '\x00' then innerNul else unknownName)

def hasInterface (ip : IpAddress) : Bool := ip.isLoopback || ip.isUnspecified

def bind (n : Network) (host : String) (port : UInt16) (taken : Bool) :
    Except NetworkFailure IpAddress :=
  let hindered (h : Server.Hindrance) : NetworkFailure := h.failure host port
  match resolve host with
  | .error e => .error (hindered (.unresolved e))
  | .ok ip =>
    if n == .loopback && !hasInterface ip then .error (hindered (.socket addressMissing))
    else if taken then .error (hindered (.socket portTaken))
    else .ok ip

def connect (n : Network) (host : String) (served : Bool) : Except IoFailure Unit :=
  match resolve host with
  | .error e => .error e
  | .ok ip =>
    if n == .isolated || !ip.isLoopback then .error unreachable
    else if served && ip == .v4 [127, 0, 0, 1] then .ok ()
    else .error refusedConnection

def clientAddress (listener : IpAddress) : IpAddress :=
  if listener.isUnspecified then
    if listener.isV4 then .v4 [127, 0, 0, 1] else .v6 [0, 0, 0, 0, 0, 0, 0, 1]
  else listener

end Network
end Wiretap.Rehearsal
