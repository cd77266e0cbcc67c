import Wiretap.Rehearsal.Scene

/-!
# Clients of a rehearsal

A client connects to a listener, writes and reads, and goes. Whoever waits for
something to happen gives up after a while.
-/

set_option autoImplicit false

namespace Wiretap.Rehearsal.Scene

def patience : Nat := 5000

def waitPatiently (s : Scene) (stop : Scene → Bool) : Scene × Bool := s.wait patience stop

def find? (s : Scene) (name : String) : Option Link :=
  s.links.reverse.find? (fun l => l.name == name && l.isThere)

def linkOf? (s : Scene) (id : ConnectionId) : Option Link :=
  s.links.find? (fun l => l.client.id == id)

def modifyClient (s : Scene) (id : ConnectionId) (f : Link → Link) : Scene :=
  s.modifyLink (fun l => l.client.id == id) f

/-- A client goes. One that does not end its stream first and leaves something unread resets the
connection. -/
def goes (s : Scene) (l : Link) (ending : Bool) : Scene :=
  let error := if ending || l.received.isEmpty then none else some Network.resetByPeer
  s.modifyClient l.client.id (fun l => { l with leaving := some error })

def listener? (s : Scene) (k : Nat) : Option IpAddress := do
  let e ← s.engine? k
  match e.run with
  | .opening a => a.ip
  | .accepting a => a.ip
  | .resting a _ => a.ip
  | _ => none

def connect (s : Scene) (k : Nat) (name : String) (id : ConnectionId) (hello : Option String) :
    Option Scene :=
  if s.network == .isolated then none
  else (s.listener? k).map fun ip =>
    let s := ((s.find? name).map (s.goes · false)).getD s
    let port := UInt16.ofNat (50000 + s.links.length)
    let client : Client := ⟨id, ⟨Network.clientAddress ip, port⟩, s.clock⟩
    { s with links := s.links ++ [.make name k client hello] }

def shakeHands (s : Scene) (id : ConnectionId) : Scene × Bool :=
  let (s, _) := s.waitPatiently (fun s =>
    (s.linkOf? id).all (fun l => l.greeted || l.finished ||
      (s.engine? l.engine).all (fun e => !e.setup.tls.interceptsClients)))
  match s.linkOf? id with
  | none => (s, false)
  | some l => if l.greeted then (s, true) else (s.goes l true, false)

def join (s : Scene) (k : Nat) (name : String) (id : ConnectionId) (hello : Option String) :
    Scene × Bool :=
  match s.connect k name id hello with
  | none => (s, false)
  | some s => if hello.isSome then s.shakeHands id else (s, true)

inductive Talk where
  | noClient
  | late
  | heard (bytes : Bytes)

def talk (s : Scene) (name : String) (bytes : Bytes) (expected : Option Nat) : Scene × Talk :=
  match s.find? name with
  | none => (s, .noClient)
  | some l =>
    let id := l.client.id
    let s := s.modifyClient id (fun l =>
      if l.finished then l else { l with sent := l.sent ++ bytes })
    let (s, done) := s.waitPatiently (fun s => (s.linkOf? id).all (fun l =>
      l.finished || expected.any (· ≤ l.received.length)))
    let heard := ((s.linkOf? id).map (·.received)).getD []
    let heard := expected.elim heard heard.take
    (s.modifyClient id (fun l => { l with received := l.received.drop heard.length }),
      if done then .heard heard else .late)

def hangUp (s : Scene) (name : String) (ending : Bool) : Scene × Option Link :=
  match s.find? name with
  | none => (s, none)
  | some l => (s.goes l ending, some l)

/-! What is waited for, and whether it came. -/

def registry (s : Scene) : Registry := s.service.recorder.registry

def capturedTotal (s : Scene) : Nat := 
  s.registry.snapshot.foldr (fun c n => c.totalBytes + n) 0

def awaitRegistered (s : Scene) (id : ConnectionId) : Scene × Bool :=
  s.waitPatiently (·.registry.contains id)

def awaitOver (s : Scene) (l : Option Link) : Scene × Bool :=
  s.waitPatiently (fun s => l.all (fun l => (s.registry.get? l.client.id).all (!·.active)))

def awaitCaptured (s : Scene) (bytes : Nat) : Scene × Bool :=
  s.waitPatiently (bytes ≤ ·.capturedTotal)

def awaitOpen (s : Scene) (most : Nat) : Scene × Bool :=
  s.waitPatiently (·.registry.activeCount ≤ most)

def awaitReports (s : Scene) (count : Nat) : Scene × Bool :=
  s.waitPatiently (count ≤ ·.reports.length)

def awaitInactive (s : Scene) : Scene × Bool := s.waitPatiently (!·.service.isActive)

end Wiretap.Rehearsal.Scene
