import Wiretap.Rehearsal.Visit

/-!
# Running servers in a rehearsal

Starting and stopping the sessions of a service, or running one server by
itself, with each wait that belongs to it.
-/

set_option autoImplicit false

namespace Wiretap.Rehearsal.Scene

def begin (n : Network) (service : Service) (places : List Place) (d : Doorkeeper) : Scene :=
  ⟨n, 0, .none, d, service, places, [], [], []⟩

def state? (s : Scene) (k : Nat) : Option ServerState := (s.engine? k).map (·.server.state)

def start (s : Scene) (d : Draw) (session : Session) (place : Place) :
    Scene × Except StartStop Session :=
  let (result, service, actions) := s.service.start s.clock d session
  let s := { s with service }.absorbAll actions
  match result, s.service.currentSession? with
  | .ok (), some session => ({ s with places := s.places ++ [place] }, .ok session)
  | .ok (), none => (s, .ok session)
  | .error e, _ => (s, .error e)

def listening (s : Scene) : Scene × Option Nat :=
  match s.service.manager.held with
  | none => (s, none)
  | some k =>
    let (s, _) := s.waitPatiently (fun s =>
      (s.state? k).all (fun state => ServerState.accepting.rank ≤ state.rank))
    (s, if s.state? k == some .accepting then some k else none)

def runEnded (s : Scene) (k : Nat) : Bool := (s.engine? k).all (·.run == .ended)

def endRun (s : Scene) (k limit : Nat) : Scene :=
  let (s, done) := s.wait limit (fun s => s.runEnded k)
  if done then s
  else
    let s := { s with service := s.service.log Manager.overdue }
    s.carryOut k (.run .dropped)

def isIdle (s : Scene) (k : Nat) : Bool := (s.engine? k).all (·.pool.active == 0)

def closePool (s : Scene) (k graceful forced : Nat) : Scene × PoolShutdown :=
  let (s, done) := (s.carryOut k .stopAccepting).wait graceful (·.isIdle k)
  if done then ({ s with service := s.service.log Pool.terminated }, .graceful)
  else
    let (s, done) := (s.carryOut k (.closePermits graceful)).wait forced (·.isIdle k)
    if done then (s, .forced) else (s.carryOut k .detach, .incomplete)

def stop (s : Scene) : Scene × Option PoolShutdown :=
  match s.service.current with
  | none => (s, none)
  | some i =>
    let policy := s.service.manager.policy
    let (s, outcome) := match s.service.release s.clock s.now with
      | none => (s, none)
      | some (k, service, actions) =>
        let s := ({ s with service }.absorbAll actions).endRun k policy.acceptLoop
        let (s, outcome) := s.closePool k policy.graceful policy.forced
        ({ s with service := s.service.log (Manager.stopped outcome) }, some outcome)
    ({ s with service := s.service.finishStop i }, outcome)

def hosting (setup : Engine.Setup) (pool : Pool) : Service :=
  let manager := Manager.make .default .default none ⟨setup.sink, setup.complaint⟩
  let engine : Engine := { Engine.make setup pool with run := .ended }
  Service.make { manager with sessions := [default], engines := [⟨0, engine⟩], held := some 0 }

def runServer (s : Scene) : Scene × Option ServerState :=
  let s := s.carryOut 0 .call
  let settles (s : Scene) : Bool :=
    (s.state? 0).all (fun state => state == .accepting || state == .stopped)
  let s := if settles s then s else (s.waitPatiently settles).1
  (s, s.state? 0)

def stopServer (s : Scene) : Scene × Bool :=
  let running := !s.runEnded 0
  let s := s.carryOut 0 .stop
  (if running then (s.waitPatiently (·.runEnded 0)).1 else s, running)

/-- How a server that nobody has run comes to accept. -/
def opening : List Engine.Step :=
  [.call, .run .begun, .run .bound, .run (.located ⟨.v4 [127, 0, 0, 1], 1⟩), .run .opened]

def attend (s : Scene) (id : ConnectionId) (hello : Option String) : Option (Scene × Bool) := do
  let s ← (opening.foldl (·.carryOut 0 ·) s).connect 0 "" id hello
  if hello.isSome then s.shakeHands id else (s, true)

def askedCount (s : Scene) : Nat :=
  s.history.countP (fun a => match a with
    | .server (.asked _) => true
    | _ => false)

def closedCount (s : Scene) : Nat :=
  s.history.countP (fun a => match a with
    | .handler _ .closed => true
    | _ => false)

def awaitClosed (s : Scene) (count : Nat) : Scene × Bool :=
  s.waitPatiently (count ≤ ·.closedCount)

def awaitIdle (s : Scene) : Scene × Bool := s.waitPatiently (·.isIdle 0)

def captured (s : Scene) (d : Direction) : Bytes :=
  s.history.reverse.flatMap (fun a => match a with
    | .handler _ (.relayed d' (.captured bytes)) => if d' = d then bytes else []
    | _ => [])

def takeReports (s : Scene) : Scene × List Service.Reported :=
  ({ s with reports := [] }, s.reports.reverse)

end Wiretap.Rehearsal.Scene
