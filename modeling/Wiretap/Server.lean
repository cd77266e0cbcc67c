import Wiretap.Address
import Wiretap.Connection
import Wiretap.Failure.Report

/-!
# Listening servers

A server binds one address and accepts clients on it until it is asked to
stop. Its state, its stop flag and the address it was bound to outlive a run.
A run is a machine on events: each says what the awaited call gave, and is
possible only in some phases. A step gives the next state and what was done.

Once a server is stopping or stopped, no run takes its state back. A client
is handed on only when nobody objects to it, and a failed accept ends nothing:
the run rests for a moment and accepts again.
-/

set_option autoImplicit false

namespace Wiretap

inductive ServerState where
  | created
  | bound
  | accepting
  | stopping
  | stopped
  deriving DecidableEq, Repr, Inhabited

namespace ServerState

def all : List ServerState := [.created, .bound, .accepting, .stopping, .stopped]

def rank : ServerState → Nat
  | .created => 0
  | .bound => 1
  | .accepting => 2
  | .stopping => 3
  | .stopped => 4

def name : ServerState → String
  | .created => "created"
  | .bound => "bound"
  | .accepting => "accepting"
  | .stopping => "stopping"
  | .stopped => "stopped"

end ServerState

structure Client where
  id : ConnectionId
  peer : SocketAddress
  accepted : Timestamp
  deriving DecidableEq, Repr, Inhabited

def Client.connection (c : Client) : Connection :=
  .fresh c.id c.peer.ip.text c.peer.port c.accepted

inductive Verdict where
  | unasked
  | admitted
  | refused (error : SessionFailure)
  | brokeOff (complaint : String)
  deriving Inhabited

namespace Server

structure Setup where
  address : String
  port : UInt16
  targetHost : String
  targetPort : UInt16
  deriving DecidableEq, Repr, Inhabited

inductive Phase where
  | waiting
  | binding
  | locating
  | opening (bound : SocketAddress)
  | accepting (bound : SocketAddress)
  | resting (bound : SocketAddress) (resume : Nat)
  | ended
  deriving DecidableEq, Repr, Inhabited

inductive Event where
  | begun
  | bound
  | bindFailed (error : NetworkFailure)
  | located (address : SocketAddress)
  | locateFailed (error : IoFailure)
  | opened
  | accepted (client : Client) (verdict : Verdict)
  | acceptFailed (error : IoFailure)
  | rested
  | stopSeen
  | dropped

inductive Action where
  | logged (line : LogLine)
  | reported (error : Failure) (category : Category)
  | asked (client : Client)
  | admitted (client : Client)

/-- How long a run rests after a failed accept, in milliseconds. -/
def restMillis : Nat := 100

def authority (host : String) (port : UInt16) : String := s!"{host}:{port.toNat}"

inductive Hindrance where
  | unresolved (error : IoFailure)
  | nowhere
  | socket (error : IoFailure)
  deriving Inhabited

def Hindrance.failure (address : String) (port : UInt16) : Hindrance → NetworkFailure
  | .unresolved error => .resolution s!"{authority address port}: {error.message}"
  | .nowhere => .resolution (authority address port)
  | .socket error => .bind error

end Server

structure Server where
  state : ServerState
  stopRequested : Bool
  localAddress : Option SocketAddress
  deriving DecidableEq, Repr, Inhabited

namespace Server

def fresh : Server := ⟨.created, false, none⟩

def isRunning (s : Server) : Bool := s.state == .bound || s.state == .accepting

def raise (s : Server) : Server := { s with stopRequested := true }

/-- The second half, which leaves a server alone that is stopping or stopped. -/
def retreat (s : Server) : Server :=
  { s with state := if s.state.rank < ServerState.stopping.rank then .stopping else s.state }

-- nothing is awaited between the two
def stop (s : Server) : Server := s.raise.retreat

@[simp] theorem stop_requested (s : Server) : s.stop.stopRequested = true := rfl

theorem stop_state (s : Server) : s.stop.state =
    if s.state.rank < ServerState.stopping.rank then .stopping else s.state := rfl

def advance (s : Server) (next : ServerState) : Server :=
  if s.state = .stopping ∨ s.state = .stopped then s else { s with state := next }

def leave (s : Server) : Server := { s with state := .stopped }

/-- The address of the first listener is kept. -/
def locate (s : Server) (a : SocketAddress) : Server :=
  { s with localAddress := s.localAddress.or (some a) }

def note (level : LogLevel) (message : String) : Action := .logged ⟨level, message⟩

def noteOn (c : Client) (level : LogLevel) (message : String) : Action :=
  note level s!"[{c.id.text}] {message}"

def dispatch (c : Client) (v : Verdict) : List Action :=
  noteOn c .info s!"accepted connection from {c.peer.text}" ::
    match v with
    | .unasked => [.admitted c]
    | .admitted => [.asked c, .admitted c]
    | .refused e =>
      [.asked c, noteOn c .warn s!"connection from {c.peer.text} refused: {e.message}",
        .reported (.session e) .connectionHandling]
    | .brokeOff complaint =>
      [.asked c, noteOn c .error s!"connection accepted callback panicked: {complaint}"]

def giveUp (s : Server) (e : NetworkFailure) (log : List Action) :
    Server × Phase × List Action :=
  (s.leave, .ended, log ++ [.reported (.network e) .proxyServer])

def endAccepting (s : Server) (bound : SocketAddress) (reason : String) :
    Server × Phase × List Action :=
  (s.leave, .ended, [note .debug reason,
    note .info s!"Proxy on {bound.text} no longer accepting connections"])

def acceptStep (now : Nat) (s : Server) (bound : SocketAddress) :
    Event → Option (Server × Phase × List Action)
  | .stopSeen =>
    if s.stopRequested then
      some (s.endAccepting bound s!"Stop requested, leaving accept loop on {bound.text}")
    else none
  -- One poll looks at the flag and then accepts, and what follows an accepted client does not
  -- look again: a stop during the poll is as good as one right after it.
  | .accepted c v =>
    if s.stopRequested then none else some (s, .accepting bound, dispatch c v)
  -- Here the flag is looked at again, so a stop since the poll comes before this step.
  | .acceptFailed e =>
    if s.stopRequested then
      some (s.endAccepting bound s!"Accept interrupted by shutdown: {e.message}")
    else some (s, .resting bound (now + restMillis),
      [.reported (.network (.accept e)) .proxyServer])
  | _ => none

/-- One event of a run at time `now`. -/
def step (setup : Setup) (now : Nat) (s : Server) (phase : Phase) (e : Event) :
    Option (Server × Phase × List Action) :=
  match phase, e with
  | .waiting, .begun =>
    if s.stopRequested then
      some (s.leave, .ended, [note .debug "Proxy server stopped before it started"])
    else some (s, .binding, [])
  | .waiting, .dropped => some (s, .ended, [])
  | .binding, .bound => some (s, .locating, [])
  | .binding, .bindFailed e =>
    some (s.giveUp e [note .error
      s!"Unable to listen on {authority setup.address setup.port}: {e.message}"])
  | .locating, .located a =>
    some ((s.locate a).advance .bound, .opening a, [note .info
      s!"Proxy listening on {a.text} -> {authority setup.targetHost setup.targetPort}"])
  | .locating, .locateFailed e => some (s.giveUp (.bind e) [])
  | .opening a, .opened => some (s.advance .accepting, .accepting a, [])
  | .resting a resume, .rested => if resume ≤ now then some (s, .accepting a, []) else none
  | .ended, _ => none
  | _, .dropped => some (s.leave, .ended, [])
  | .accepting a, e => s.acceptStep now a e
  | _, _ => none

end Server
end Wiretap
