import Wiretap.Handler
import Wiretap.Pool
import Wiretap.TlsContext

/-!
# Engines

An engine is a server with the pool that its handlers run on. An admitted
client becomes a handler, and the handler a task of the pool, under the same
number. A handler that the pool rejects, or cancels before it starts, is
dropped; one that is gone has ended its task.

Everything that can happen to an engine is one step: the run of its server
meets an event, a task is resumed, a handler meets an event, or the engine is
asked to stop in one of the stages of a shutdown.
-/

set_option autoImplicit false

namespace Wiretap

namespace Engine

structure Setup where
  server : Server.Setup
  tls : TlsContext
  settings : DrainSettings
  sink : Option Sink
  complaint : Option String
  deriving Inhabited

inductive Step where
  | call
  | run (event : Server.Event)
  | resume (task : Nat)
  | handler (task : Nat) (event : Handler.Event)
  | stop
  | stopAccepting
  | closePermits (waited : Nat)
  | detach

inductive Action where
  | server (action : Server.Action)
  | handler (task : Nat) (action : Handler.Action)
  | logged (line : LogLine)

def Action.report? : Action → Option (Failure × Category)
  | .server (.reported e c) => some (e, c)
  | .handler _ a => a.report?
  | _ => none

def Action.line? : Action → Option LogLine
  | .server (.logged line) => some line
  | .handler _ a => a.line?
  | .logged line => some line
  | _ => none

end Engine

structure Engine where
  setup : Engine.Setup
  server : Server
  run : Server.Phase
  pool : Pool
  clients : List Client
  handlers : List Handler.Phase
  deriving Inhabited

namespace Engine

def make (setup : Setup) (pool : Pool) : Engine := ⟨setup, .fresh, .waiting, pool, [], []⟩

def handlerSetup (e : Engine) (c : Client) : Handler.Setup :=
  ⟨c, e.setup.server.targetHost, e.setup.server.targetPort, e.setup.settings, e.setup.sink,
    e.setup.complaint⟩

def setHandler (e : Engine) (i : Nat) (phase : Handler.Phase) : Engine :=
  { e with handlers := e.handlers.set i phase }

def submit (e : Engine) (c : Client) : Engine × List Action :=
  let i := e.handlers.length
  let (pool, accepted) := e.pool.submit
  let e := { e with pool, clients := e.clients ++ [c], handlers := e.handlers ++ [.waiting] }
  if accepted then (e, [])
  else
    let dropped := Handler.step (e.handlerSetup c) 0 .waiting .dropped
    let (phase, actions) := dropped.getD (.gone, [])
    (e.setHandler i phase, actions.map (.handler i) ++ [.server (Server.noteOn c .warn
      s!"connection from {c.peer.text} dropped: {SessionFailure.poolClosed.message}")])

def follow (e : Engine) : List Server.Action → Engine × List Action
  | [] => (e, [])
  | a :: rest =>
    let (e, here) := match a with
      | .admitted c => e.submit c
      | _ => (e, [])
    let (e, after) := e.follow rest
    (e, .server a :: here ++ after)

def runStep (e : Engine) (now : Nat) (event : Server.Event) : Option (Engine × List Action) :=
  (e.server.step e.setup.server now e.run event).map fun (server, run, actions) =>
    ({ e with server, run }).follow actions

def handlerStep (e : Engine) (now i : Nat) (event : Handler.Event) :
    Option (Engine × List Action) := do
  let c ← e.clients[i]?
  let phase ← e.handlers[i]?
  let (phase, actions) ← Handler.step (e.handlerSetup c) now phase event
  let e := e.setHandler i phase
  let e := match phase with
    | .gone => { e with pool := (e.pool.finish i).getD e.pool }
    | _ => e
  some (e, actions.map (.handler i))

/-- The pool resumes a task: its handler begins, is dropped, or goes on waiting. -/
def resume (e : Engine) (now i : Nat) : Option (Engine × List Action) := do
  let pool ← e.pool.resume i
  let e := { e with pool }
  match pool.status i with
  | some .running => e.handlerStep now i .begun
  | some .cancelled =>
    (e.handlerStep now i .dropped).map (fun (e, actions) =>
      (e, .logged Pool.cancelledTask :: actions))
  | _ => some (e, [])

def isRunningTask (e : Engine) (i : Nat) : Bool := e.pool.status i == some .running

def step (e : Engine) (now : Nat) : Step → Option (Engine × List Action)
  | .call => if e.run = .ended then some ({ e with run := .waiting }, []) else none
  | .run event => e.runStep now event
  | .resume i => e.resume now i
  | .handler i event => if e.isRunningTask i then e.handlerStep now i event else none
  | .stop => some ({ e with server := e.server.stop }, [])
  | .stopAccepting =>
    some ({ e with pool := e.pool.stopAccepting }, [.logged e.pool.shuttingDown])
  | .closePermits waited =>
    some ({ e with pool := e.pool.closePermits }, [.logged (Pool.cancelling waited)])
  | .detach => some ({ e with pool := e.pool.detach }, [.logged e.pool.detaching])

end Engine
end Wiretap
