import Wiretap.Rehearsal.Network
import Wiretap.Rehearsal.Peer
import Wiretap.Service

/-!
# Scenes

A scene is a service on the network of a rehearsal, with the clients that
connected to it and the streams between them, the proxy and the targets.
Computing takes no time. As long as something can happen at the present moment
it happens; then the clock moves to the next moment at which a burst is over
or a server has rested.

Streams carry what was written and not yet read. A TLS handshake either fits
or does not, and changes nothing about the bytes that are carried after it.
-/

set_option autoImplicit false

namespace Wiretap.Rehearsal

structure Place where
  taken : Bool
  peer : Peer
  deriving DecidableEq, Repr, Inhabited

/-- A client with its streams. -/
structure Link where
  name : String
  engine : Nat
  client : Client
  hello : Option String
  task : Option Nat
  greeted : Bool
  sent : Bytes
  -- the client has gone, perhaps with an error for who reads from it
  leaving : Option (Option IoFailure)
  received : Bytes
  finished : Bool
  answer : Bytes
  targetEnded : Bool
  deriving Inhabited

/-- Who is asked about clients: nobody, or somebody whose first verdicts are known. -/
structure Doorkeeper where
  asked : Bool
  verdicts : List Verdict
  deriving Inhabited

structure Scene where
  network : Network
  now : Nat
  faults : Faults
  doorkeeper : Doorkeeper
  service : Service
  places : List Place
  links : List Link
  -- what engines did and reported, the newest first
  history : List Engine.Action
  reports : List Service.Reported
  deriving Inhabited

namespace Link

def make (name : String) (engine : Nat) (c : Client) (hello : Option String) : Link :=
  ⟨name, engine, c, hello, none, false, [], none, [], false, [], false⟩

def isQueued (l : Link) : Bool := l.task.isNone && !l.finished

def isThere (l : Link) : Bool := l.leaving.isNone

def sameName (a b : ServerName) : Bool :=
  match a, b with
  | .host a, .host b => a.toLower == b.toLower
  | .address a, .address b => a == b
  | _, _ => false

def handshakeError : IoFailure := .described .invalidData "handshake failed"

def greet (l : Link) (tls : TlsContext) : Option (Handler.Event × Link) :=
  let failed := some (.clientFailed (.handshake l.client.peer.text handshakeError), l)
  if !tls.interceptsClients then some (.clientReady, l)
  else match l.hello, tls.target with
    | some name, some presented =>
      if (ServerName.read? name).any (sameName presented) then
        some (.clientReady, { l with greeted := true })
      else failed
    | _, _ => if !l.sent.isEmpty || !l.isThere then failed else none

def reach (l : Link) (n : Network) (p : Peer) (setup : Engine.Setup) :
    Option (Handler.Event × Link) :=
  let target := Server.authority setup.server.targetHost setup.server.targetPort
  let (greeting, ended) := p.opening
  let ready := some (.targetReady, { l with answer := greeting, targetEnded := ended })
  match n.connect setup.server.targetHost p.isServed with
  | .error e => some (.targetFailed (.connect target e), l)
  | .ok () =>
    if !setup.tls.reachesTargetOverTls then ready
    else match p.handshake setup.tls.verifies with
      | none => none
      | some true => ready
      | some false => some (.targetFailed (.handshake target handshakeError), l)

def readTurn (size now : Nat) (deadline : Option Nat) (waiting : Bytes)
    (ending : Option (Option IoFailure)) : Option (Pump.Event × Bytes) :=
  if !waiting.isEmpty then
    let size := max size 1
    some (.chunk (waiting.take size), waiting.drop size)
  else match ending with
    | some none => some (.sourceEnd, [])
    | some (some e) => some (.readError e, [])
    | none => if deadline.any (· ≤ now) then some (.quiet, []) else none

def pumpTurn (p : Pump) (torn : Bool) (size now : Nat) (waiting : Bytes)
    (ending : Option (Option IoFailure)) : Option (Pump.Event × Bytes) :=
  match p.phase with
  | .reading deadline =>
    if torn then some (.tornDown, waiting) else readTurn size now deadline waiting ending
  | .writing _ rest =>
    some (if torn then .tornDown else .took rest.length, waiting)
  | .flushing _ => some (if torn then .tornDown else .flushed, waiting)
  | .closing _ _ => some (.closed, waiting)
  | .ended _ => none

def relay (l : Link) (now size : Nat) (toTarget toClient : Pump) (torn : Bool) :
    Option (Handler.Event × Link) :=
  match pumpTurn toTarget torn size now l.sent l.leaving with
  | some (e, sent) => some (.pump .toTarget e, { l with sent })
  | none =>
    (pumpTurn toClient torn size now l.answer (if l.targetEnded then some none else none)).map
      (fun (e, answer) => (.pump .toClient e, { l with answer }))

def turn (l : Link) (n : Network) (now : Nat) (p : Peer) (setup : Engine.Setup) :
    Handler.Phase → Option (Handler.Event × Link)
  | .greeting => l.greet setup.tls
  | .reaching => l.reach n p setup
  | .relaying toTarget toClient torn =>
    l.relay now setup.settings.bufferSize toTarget toClient torn
  | .waiting => none
  | .gone => none

def deliver (l : Link) (p : Peer) : Handler.Action → Link
  | .relayed .toTarget (.wrote bytes) =>
    let (answer, ended) := p.answer bytes
    { l with answer := l.answer ++ answer, targetEnded := l.targetEnded || ended }
  | .relayed .toTarget .shutdown => { l with targetEnded := true }
  | .relayed .toClient (.wrote bytes) => { l with received := l.received ++ bytes }
  | .relayed .toClient .shutdown => { l with finished := true }
  | .releasedClient => { l with finished := true }
  | _ => l

end Link

namespace Scene

def clock (s : Scene) : Timestamp := .ofMillis s.now

def engine? (s : Scene) (k : Nat) : Option Engine :=
  (s.service.manager.engines[k]?).map (·.engine)

def place (s : Scene) (k : Nat) : Place := s.places[k]?.getD ⟨false, ⟨.echo, false, []⟩⟩

def peer (s : Scene) (k : Nat) : Peer :=
  let p := (s.place k).peer
  if (s.engine? k).any (·.setup.tls.reachesTargetOverTls) then p else p.unguarded

def numbers (s : Scene) : List Nat := List.range s.service.manager.engines.length

def modifyLink (s : Scene) (which : Link → Bool) (f : Link → Link) : Scene :=
  { s with links := s.links.map (fun l => if which l then f l else l) }

def isOf (k i : Nat) (l : Link) : Bool := l.engine == k && l.task == some i

def absorb (s : Scene) (a : Manager.Action) : Scene :=
  let s := { s with reports := a.report?.toList ++ s.reports }
  match a with
  | .engine k a =>
    let s := { s with history := a :: s.history }
    match a with
    | .handler i a => s.modifyLink (isOf k i) (fun l => l.deliver (s.peer k) a)
    | _ => s
  | _ => s

def absorbAll (s : Scene) (actions : List Manager.Action) : Scene := actions.foldl absorb s

def perform (s : Scene) (k : Nat) (step : Engine.Step) : Option Scene :=
  (s.service.engineStep s.clock s.now k step).map fun (service, actions) =>
    { s with service }.absorbAll actions

def carryOut (s : Scene) (k : Nat) (step : Engine.Step) : Scene := (s.perform k step).getD s

def verdict (d : Doorkeeper) : Verdict × Doorkeeper :=
  if !d.asked then (.unasked, d)
  else match d.verdicts with
    | [] => (.admitted, d)
    | v :: verdicts => (v, { d with verdicts })

def acceptTurn (s : Scene) (k : Nat) (e : Engine) : Option Scene := do
  let l ← s.links.find? (fun l => l.engine == k && l.isQueued)
  match s.faults.accept with
  | code :: accept =>
    let s := { s with faults := { s.faults with accept } }
    s.perform k (.run (.acceptFailed (.system code)))
  | [] =>
    let task := e.handlers.length
    let (v, doorkeeper) := verdict s.doorkeeper
    let here (other : Link) : Bool := other.client.id == l.client.id
    let s := { s with doorkeeper }
    let s := s.modifyLink here (fun l => { l with task := some task })
    let s ← s.perform k (.run (.accepted l.client v))
    if (s.engine? k).any (·.handlers.length == task) then
      some (s.modifyLink here (fun l => { l with task := none, finished := true }))
    else some s

def runTurn (s : Scene) (k : Nat) (e : Engine) : Option Scene :=
  let setup := e.setup.server
  match e.run with
  | .waiting => s.perform k (.run .begun)
  | .binding =>
    s.perform k (.run (match s.network.bind setup.address setup.port (s.place k).taken with
      | .ok _ => .bound
      | .error e => .bindFailed e))
  | .locating =>
    match s.faults.localAddress with
    | some code =>
      let s := { s with faults := { s.faults with localAddress := none } }
      s.perform k (.run (.locateFailed (.system code)))
    | none => do
      let ip ← IpAddress.read? setup.address.toList
      s.perform k (.run (.located ⟨ip, setup.port⟩))
  | .opening _ => s.perform k (.run .opened)
  | .accepting _ =>
    if e.server.stopRequested then s.perform k (.run .stopSeen) else s.acceptTurn k e
  | .resting _ resume => if resume ≤ s.now then s.perform k (.run .rested) else none
  | .ended => none

def canResume (p : Pool) (i : Nat) : Bool :=
  match p.status i with
  | some .submitted => true
  | some .handed => true
  | some .queued => p.closed
  | _ => false

def taskTurn (s : Scene) (k : Nat) (e : Engine) : Option Scene := do
  let i ← (List.range e.handlers.length).find? (canResume e.pool)
  s.perform k (.resume i)

def linkTurn (s : Scene) (l : Link) : Option Scene := do
  let e ← s.engine? l.engine
  let i ← l.task
  let phase ← e.handlers[i]?
  let (event, after) ← l.turn s.network s.now (s.peer l.engine) e.setup phase
  let s := s.modifyLink (isOf l.engine i) (fun _ => after)
  s.perform l.engine (.handler i event)

def turn (s : Scene) : Option Scene :=
  (s.numbers.findSome? (fun k => do
    let e ← s.engine? k
    (s.runTurn k e).or (s.taskTurn k e))).or (s.links.findSome? s.linkTurn)

def settle : Nat → Scene → Scene
  | 0, s => s
  | fuel + 1, s =>
    match s.turn with
    | some s => settle fuel s
    | none => s

def budget (s : Scene) : Nat :=
  s.links.foldr (fun l n => 16 * (l.sent.length + l.answer.length) + 64 + n) 0 +
    64 * s.service.manager.engines.length + s.faults.accept.length + 64

def settled (s : Scene) : Scene := s.settle s.budget

def pumpDue (torn : Bool) (p : Pump) : Option Nat :=
  match p.phase with
  | .reading deadline => if torn then none else deadline
  | _ => none

def handlerDue : Handler.Phase → List Nat
  | .relaying a b torn => (pumpDue torn a).toList ++ (pumpDue torn b).toList
  | _ => []

def engineDue (e : Engine) : List Nat :=
  (match e.run with
    | .resting _ resume => [resume]
    | _ => []) ++ e.handlers.flatMap handlerDue

def nextDue (s : Scene) : Option Nat :=
  (s.service.manager.engines.flatMap (fun h => engineDue h.engine)).min?

/-- Lets things happen until `stop` holds or the deadline has come, and says whether `stop`
holds then. -/
def waitFor (stop : Scene → Bool) (deadline : Nat) : Nat → Scene → Scene × Bool
  | 0, s => (s, stop s)
  | fuel + 1, s =>
    let s := s.settled
    if stop s then (s, true)
    else
      match s.nextDue with
      | some time =>
        if time ≤ deadline && s.now < time then waitFor stop deadline fuel { s with now := time }
        else ({ s with now := max s.now deadline }, false)
      | none => ({ s with now := max s.now deadline }, false)

def wait (s : Scene) (duration : Nat) (stop : Scene → Bool) : Scene × Bool :=
  s.waitFor stop (s.now + duration) (s.budget + duration)

end Scene
end Wiretap.Rehearsal
