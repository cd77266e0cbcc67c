import Wiretap.Manager
import Wiretap.Registry.Recorder

/-!
# The proxy service

A service runs one session at a time and records what its connections carry.
The registry is cleared when a session is started and kept when it is stopped.
A service is asked about every client before a handler is made for it, and
admits all of them.

What an engine does reaches the recorder in the same step: a client it was
asked about is registered, captured bytes become a packet, and the closing of
a handler closes its connection.
-/

set_option autoImplicit false

namespace Wiretap

structure Service where
  manager : Manager
  recorder : Recorder
  -- the session that was started last
  current : Option Nat
  deriving Inhabited

namespace Service

abbrev Reported := Failure × Category

inductive Step where
  | start (draw : Draw) (session : Session)
  | release
  | engine (number : Nat) (step : Engine.Step)
  | finishStop (session : Nat)
  | deactivate (session : Nat)

def make (m : Manager) : Service := ⟨m, .empty, none⟩

def isActive (s : Service) : Bool := s.current.any s.manager.isActive

def isSessionActive (s : Service) : Bool := s.isActive && s.manager.isRunning

def currentSession? (s : Service) : Option Session :=
  s.current.bind (fun i => s.manager.sessions[i]?)

def log (s : Service) (line : LogLine) : Service :=
  { s with recorder := s.recorder.note line.level line.message }

def client? (s : Service) (number task : Nat) : Option Client := do
  let h ← s.manager.engines[number]?
  h.engine.clients[task]?

def record (s : Service) (time : Timestamp) (number : Nat) (a : Engine.Action) : Recorder :=
  match a with
  | .server (.asked c) => s.recorder.accepted c.connection
  | .handler i (.relayed d (.captured bytes)) =>
    ((s.client? number i).map (fun c => s.recorder.captured time c.id d bytes)).getD s.recorder
  | .handler i .closed =>
    ((s.client? number i).map (fun c => s.recorder.closed time c.id)).getD s.recorder
  | _ => s.recorder

def absorb (time : Timestamp) (s : Service) (a : Manager.Action) : Service :=
  let s := a.line?.elim s s.log
  match a with
  | .engine k a => { s with recorder := s.record time k a }
  | _ => s

def absorbAll (time : Timestamp) (s : Service) (actions : List Manager.Action) : Service :=
  actions.foldl (absorb time) s

/-- Starts a session, unless the current one is active on a server that has not stopped.
The registry is cleared before the manager is asked. -/
def start (s : Service) (time : Timestamp) (d : Draw) (session : Session) :
    Except StartStop Unit × Service × List Manager.Action :=
  if s.manager.isServing && s.isActive then (.error (.failed .alreadyActive), s, [])
  else
    let s := { s with recorder := (s.recorder.apply .clear).2 }
    let (manager, i) := s.manager.give session
    let (result, manager, actions) := manager.start d i
    let s := absorbAll time { s with manager } actions
    match result with
    | .error e => (.error e, s, actions)
    | .ok () => (.ok (), { s with current := some i }.log
        ⟨.info, s!"Proxy session started: {session.info}"⟩, actions)

def release (s : Service) (time : Timestamp) (now : Nat) :
    Option (Nat × Service × List Manager.Action) :=
  (s.manager.release now).map fun (k, manager, actions) =>
    (k, absorbAll time { s with manager } actions, actions)

def engineStep (s : Service) (time : Timestamp) (now k : Nat) (step : Engine.Step) :
    Option (Service × List Manager.Action) :=
  (s.manager.engineStep now k step).map fun (manager, actions) =>
    (absorbAll time { s with manager } actions, actions)

def deactivate (s : Service) (i : Nat) : Service :=
  { s with manager := s.manager.setActive i false }

def finishStop (s : Service) (i : Nat) : Service :=
  (s.deactivate i).log ⟨.info, "Proxy session stopped"⟩

/-- One step at time `now`, which the clock reads as `time`. -/
def step (s : Service) (time : Timestamp) (now : Nat) :
    Step → Option (Service × List Manager.Action)
  | .start d session => some (s.start time d session).2
  | .release => (s.release time now).map (·.2)
  | .engine k step => s.engineStep time now k step
  | .finishStop i => some (s.finishStop i, [])
  | .deactivate i => some (s.deactivate i, [])

end Service
end Wiretap
