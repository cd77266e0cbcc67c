import Wiretap.Pump
import Wiretap.Server

/-!
# Connection handlers

A handler relays one admitted client to the target. It takes over the client,
which may need a TLS handshake, reaches the target, and then runs one pump in
each direction until both have ended. Whatever happens to it, the sink is told
once that the connection is closed: after the last capture, and after both
streams have been released.

A handler that fails before it relays reports one failure and captures
nothing.
-/

set_option autoImplicit false

namespace Wiretap

def NetworkFailure.targetCategory : NetworkFailure → Category
  | .connect _ _ => .networkIo
  | _ => .connectionHandling

namespace Handler

structure Setup where
  client : Client
  targetHost : String
  targetPort : UInt16
  settings : DrainSettings
  sink : Option Sink
  complaint : Option String
  deriving Inhabited

inductive Phase where
  | waiting
  | greeting
  | reaching
  | relaying (toTarget toClient : Pump) (torn : Bool)
  | gone
  deriving DecidableEq, Repr, Inhabited

inductive Event where
  | begun
  | clientReady
  | clientFailed (error : NetworkFailure)
  | targetReady
  | targetFailed (error : NetworkFailure)
  | pump (direction : Direction) (event : Pump.Event)
  | dropped

inductive Action where
  | logged (line : LogLine)
  | reported (error : Failure) (category : Category)
  | relayed (direction : Direction) (action : Pump.Action)
  | releasedClient
  | releasedTarget
  | closed

def note (s : Setup) (level : LogLevel) (message : String) : Action :=
  .logged ⟨level, s!"[{s.client.id.text}] {message}"⟩

def pumpSetup (s : Setup) (d : Direction) : Pump.Setup :=
  ⟨s.client.id, d, s.settings, s.sink, true⟩

/-- The notice of the close. It holds the sink until the sink is told. -/
structure Notice where
  sink : Option Sink

def Notice.arm (s : Setup) : Notice := ⟨s.sink⟩

def Notice.notify (s : Setup) (n : Notice) : Notice × List Action :=
  (⟨none⟩,
    if n.sink.isSome then
      [note s .trace "notifying connection closed", .closed] ++
        s.complaint.toList.map (fun c => note s .error s!"connection closed callback panicked: {c}")
    else [])

/-- A notice that is given up is sent if it was not sent before. -/
def Notice.drop (s : Setup) (n : Notice) : List Action := (n.notify s).2

def Notice.fire (s : Setup) (n : Notice) : List Action :=
  let (spent, told) := n.notify s
  told ++ spent.drop s

def leave (s : Setup) (target : Bool) : List Action :=
  [.releasedClient] ++ (if target then [.releasedTarget] else []) ++
    [note s .info s!"connection from {s.client.peer.text} closed"] ++ (Notice.arm s).fire s

def fail (s : Setup) (e : NetworkFailure) (c : Category) : Phase × List Action :=
  (.gone, .reported (.network e) c :: leave s false)

def relay (s : Setup) : Phase × List Action :=
  let (toTarget, first) := Pump.start (pumpSetup s .toTarget)
  let (toClient, second) := Pump.start (pumpSetup s .toClient)
  (.relaying toTarget toClient false,
    note s .info (s!"relaying {s.client.peer.text} <-> " ++
        Server.authority s.targetHost s.targetPort) ::
      (first.map (.relayed .toTarget) ++ second.map (.relayed .toClient)))

def outcomeLine (s : Setup) (outcome : Outcome) : Action :=
  match outcome with
  | .sourceClosed => note s .trace s!"forwarder done: {outcome.name}"
  | .tornDown => note s .trace s!"forwarder done: {outcome.name}"
  | .readFailed => note s .debug s!"forwarder stopped on failure: {outcome.name}"
  | .writeFailed => note s .debug s!"forwarder stopped on failure: {outcome.name}"

def raises (actions : List Pump.Action) : Bool :=
  actions.any (fun a => match a with
    | .raised => true
    | _ => false)

/-- The phase with both pumps as they are now; the last pump that ends takes the handler with it.
-/
def settle (s : Setup) (toTarget toClient : Pump) (torn : Bool) : Phase × List Action :=
  if toTarget.outcome?.isSome && toClient.outcome?.isSome then (.gone, leave s true)
  else (.relaying toTarget toClient torn, [])

def pumpStep (s : Setup) (now : Nat) (toTarget toClient : Pump) (torn : Bool) (d : Direction)
    (e : Pump.Event) : Option (Phase × List Action) :=
  let p := match d with
    | .toTarget => toTarget
    | .toClient => toClient
  (p.step (pumpSetup s d) torn now e).map fun (p, actions) =>
    let torn := torn || raises actions
    let (phase, last) := match d with
      | .toTarget => settle s p toClient torn
      | .toClient => settle s toTarget p torn
    (phase, actions.map (.relayed d) ++ p.outcome?.toList.map (outcomeLine s) ++ last)

def step (s : Setup) (now : Nat) (phase : Phase) (e : Event) : Option (Phase × List Action) :=
  match phase, e with
  | .waiting, .begun => some (.greeting, [])
  | .waiting, .dropped => some (.gone, .releasedClient :: (Notice.arm s).drop s)
  | .greeting, .clientReady => some (.reaching, [])
  | .greeting, .clientFailed e => some (fail s e .connectionHandling)
  | .reaching, .targetReady => some (relay s)
  | .reaching, .targetFailed e => some (fail s e e.targetCategory)
  | .relaying toTarget toClient torn, .pump d e => pumpStep s now toTarget toClient torn d e
  | _, _ => none

def Action.report? : Action → Option (Failure × Category)
  | .reported e c => some (e, c)
  | .relayed _ (.reported e) => some (.io e, .networkIo)
  | _ => none

def Action.line? : Action → Option LogLine
  | .logged line => some line
  | .relayed _ (.logged line) => some line
  | _ => none

end Handler
end Wiretap
