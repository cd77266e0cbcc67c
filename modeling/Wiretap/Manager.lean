import Wiretap.Engine

/-!
# Session managers

A manager runs sessions on engines and holds the engine of at most one of
them. It keeps every session it was given and every engine it made, by number,
since connections outlive the server that accepted them. A session is active
from the start of its engine until its accept task ends or it is stopped.

A start that fails changes nothing. Stopping takes the held engine at once;
waiting for its accept task and for its pool comes after that.
-/

set_option autoImplicit false

namespace Wiretap

/-- Why a session could not be started. The last two end the program's thread. -/
inductive StartStop where
  | failed (error : SessionFailure)
  | broken (reason : IssueBreak)
  | tooManyConnections
  deriving Inhabited

namespace Manager

structure Hosted where
  session : Nat
  engine : Engine
  deriving Inhabited

inductive Action where
  | logged (line : LogLine)
  | reported (error : Failure) (category : Category)
  | engine (number : Nat) (action : Engine.Action)

def Action.report? : Action → Option (Failure × Category)
  | .reported e c => some (e, c)
  | .engine _ a => a.report?
  | .logged _ => none

def Action.line? : Action → Option LogLine
  | .logged line => some line
  | .engine _ a => a.line?
  | .reported _ _ => none

def note (level : LogLevel) (message : String) : Action := .logged ⟨level, message⟩

structure Capture where
  sink : Option Sink
  complaint : Option String
  deriving Inhabited

end Manager

structure Manager where
  tuning : Tuning
  policy : ShutdownPolicy
  issuer : Option Issuer
  capture : Manager.Capture
  sessions : List Session
  engines : List Manager.Hosted
  held : Option Nat
  deriving Inhabited

namespace Manager

def make (t : Tuning) (p : ShutdownPolicy) (i : Option Issuer) (c : Capture) : Manager :=
  ⟨t, p, i, c, [], [], none⟩

def give (m : Manager) (s : Session) : Manager × Nat :=
  ({ m with sessions := m.sessions ++ [s] }, m.sessions.length)

def setActive (m : Manager) (i : Nat) (active : Bool) : Manager :=
  { m with sessions := m.sessions.modify i (·.setActive active) }

def isActive (m : Manager) (i : Nat) : Bool := (m.sessions[i]?).any (·.active)

def hosted? (m : Manager) : Option Hosted := m.held.bind (fun k => m.engines[k]?)

def serverState? (m : Manager) : Option ServerState := m.hosted?.map (·.engine.server.state)

def isRunning (m : Manager) : Bool := m.hosted?.any (·.engine.server.isRunning)

def isServing (m : Manager) : Bool := m.serverState?.any (· != .stopped)

def serverSetup (s : Session) : Server.Setup :=
  ⟨s.localAddress, s.localPort, s.targetHost, s.targetPort⟩

def engineSetup (m : Manager) (s : Session) (tls : TlsContext) : Engine.Setup :=
  ⟨serverSetup s, tls, .ofTuning m.tuning, m.capture.sink, m.capture.complaint⟩

def discarded (m : Manager) : List Action :=
  (m.hosted?.bind (fun h => m.sessions[h.session]?)).toList.map
    (fun s => note .debug s!"Discarding stopped server of {s.info}")

def warned (m : Manager) (s : Session) : List Action :=
  (TlsContext.warned s m.tuning).map .logged

def host (m : Manager) (i : Nat) (s : Session) (tls : TlsContext) (pool : Pool) : Manager :=
  let m := m.setActive i true
  { m with
    engines := m.engines ++ [⟨i, .make (m.engineSetup s tls) pool⟩]
    held := some m.engines.length }

def start (m : Manager) (d : Draw) (i : Nat) :
    Except StartStop Unit × Manager × List Action :=
  match m.sessions[i]? with
  | none => (.error (.failed .poolClosed), m, [])
  | some s =>
    if m.isServing then (.error (.failed .alreadyRunning), m, [])
    else
      match TlsContext.forSession s m.tuning m.issuer d with
      | .error (.broken reason) => (.error (.broken reason), m, m.discarded ++ m.warned s)
      | .error (.failed e) =>
        (.error (.failed e), m, m.discarded ++ m.warned s ++
          [.reported (.session e) .initialization])
      | .ok (tls, log) =>
        match Pool.make m.tuning.maxConnections with
        | .error _ => (.error .tooManyConnections, m, m.discarded ++ log.map .logged)
        | .ok pool =>
          (.ok (), m.host i s tls pool, m.discarded ++ log.map .logged ++
            [note .info s!"Proxy server started: {s.info}"])

/-- The first part of a stop: the held engine is let go and asked to end, and its session is no
longer active. -/
def release (m : Manager) (now : Nat) : Option (Nat × Manager × List Action) := do
  let k ← m.held
  let h ← m.engines[k]?
  let (engine, actions) ← h.engine.step now .stop
  let m := { m with held := none, engines := m.engines.set k { h with engine } }
  some (k, m.setActive h.session false,
    note .info "Stopping proxy server..." :: actions.map (.engine k))

/-- Whether a step is the last of an accept task that was not given up from outside. -/
def endsTask (before after : Engine) : Engine.Step → Bool
  | .run .dropped => false
  | .run _ => before.run != .ended && after.run == .ended
  | _ => false

def engineStep (m : Manager) (now k : Nat) (step : Engine.Step) :
    Option (Manager × List Action) := do
  let h ← m.engines[k]?
  let (engine, actions) ← h.engine.step now step
  let after := { m with engines := m.engines.set k { h with engine } }
  some (if endsTask h.engine engine step then after.setActive h.session false else after,
    actions.map (.engine k))

def stopped (outcome : PoolShutdown) : LogLine :=
  ⟨.info, s!"Proxy server stopped ({outcome.name})"⟩

def overdue : LogLine := ⟨.warn, "Accept loop did not stop in time, aborting it"⟩

end Manager
end Wiretap
