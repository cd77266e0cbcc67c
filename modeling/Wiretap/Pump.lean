import Wiretap.Config
import Wiretap.Failure.Report
import Wiretap.Identifier
import Wiretap.Packet
import Wiretap.Text.Utf8

/-!
# Pumps

A pump relays one direction of a connection. It reads a chunk, writes and
flushes it, and only then adds it to the current burst. A burst is captured
as one packet when the source has been quiet for long enough, when it has
grown to the size limit, or when the pump ends. Both pumps of a connection
share a teardown flag, which the first one to end raises.

A pump is a machine on events: each says what the awaited call gave, and is
possible only in some phases. A step gives the next state and what was done.
-/

set_option autoImplicit false

namespace Wiretap

inductive Outcome where
  | sourceClosed
  | readFailed
  | writeFailed
  | tornDown
  deriving DecidableEq, Repr, Inhabited

def Outcome.name : Outcome → String
  | .sourceClosed => "SourceClosed"
  | .readFailed => "ReadFailed"
  | .writeFailed => "WriteFailed"
  | .tornDown => "TornDown"

/-- Who is given captured bursts. The n-th call returns, or breaks off with a complaint. -/
structure Sink where
  complaint : Nat → Bytes → Option String
  deriving Inhabited

def Sink.quiet : Sink := ⟨fun _ _ => none⟩

namespace Pump

structure Setup where
  id : ConnectionId
  direction : Direction
  settings : DrainSettings
  sink : Option Sink
  reporting : Bool
  deriving Inhabited

inductive Phase where
  | reading (deadline : Option Nat)
  | writing (chunk rest : Bytes)
  | flushing (chunk : Bytes)
  | closing (outcome : Outcome) (deadline : Nat)
  | ended (outcome : Outcome)
  deriving DecidableEq, Repr, Inhabited

inductive Event where
  | chunk (bytes : Bytes)
  | sourceEnd
  | readError (error : IoFailure)
  | quiet
  | tornDown
  | took (count : Nat)
  | writeError (error : IoFailure)
  | flushed
  | flushError (error : IoFailure)
  | closed
  | closeError (error : IoFailure)
  | closeTimeout

inductive Action where
  | read (bytes : Bytes)
  | wrote (bytes : Bytes)
  | flushed
  | captured (bytes : Bytes)
  | reported (error : IoFailure)
  | raised
  | shutdown
  | logged (line : LogLine)

def closeMillis : Nat := 1000

def previewSize : Nat := 64

end Pump

/-- The burst keeps its chunks, the newest first, and how many bytes they hold;
`offered` counts the bursts captured so far. -/
structure Pump where
  phase : Pump.Phase
  burst : List Bytes
  held : Nat
  offered : Nat
  deriving DecidableEq, Repr, Inhabited

namespace Pump
open Wiretap.Text

def note (s : Setup) (level : LogLevel) (message : String) : Action :=
  .logged ⟨level, s!"[{s.id.text}] {message}"⟩

def capturedLine (s : Setup) (bytes : Bytes) : Action :=
  note s .trace (s!"captured {s.direction.arrow} {bytes.length} bytes: " ++
    String.ofList (Utf8.lenient (bytes.take previewSize)) ++
    if bytes.length > previewSize then " ..." else "")

/-- Giving a burst to the sink; a complaint goes no further than the log. -/
def offer (s : Setup) (turn : Nat) (bytes : Bytes) : List Action :=
  match s.sink with
  | none => []
  | some sink =>
    .captured bytes :: (sink.complaint turn bytes).toList.map
      (fun c => note s .error s!"data captured callback panicked: {c}")

def emit (s : Setup) (p : Pump) : Pump × List Action :=
  if p.burst.isEmpty then (p, [])
  else
    let bytes := p.burst.reverse.flatten
    ({ p with burst := [], held := 0, offered := p.offered + 1 },
      capturedLine s bytes :: offer s p.offered bytes)

/-- The last burst is captured before the flag is raised and the destination shut down. -/
def finish (s : Setup) (now : Nat) (outcome : Outcome) (p : Pump) : Pump × List Action :=
  let (p, actions) := p.emit s
  ({ p with phase := .closing outcome (now + closeMillis) },
    actions ++ [note s .debug s!"{s.direction.arrow} forwarder finished: {outcome.name}",
      .raised, .shutdown])

def failure (s : Setup) (operation : String) (error : IoFailure) : List Action :=
  note s .debug s!"{s.direction.arrow} {operation} failed: {error.message}" ::
    if s.reporting then [.reported error] else []

def readFailed (s : Setup) (now : Nat) (error : IoFailure) (p : Pump) : Pump × List Action :=
  let (p, actions) := p.finish s now .readFailed
  (p, failure s "read" error ++ actions)

/-- A write that fails once the flag is up is part of the teardown. -/
def writeFailed (s : Setup) (torn : Bool) (now : Nat) (error : IoFailure) (p : Pump) :
    Pump × List Action :=
  if torn then p.finish s now .tornDown
  else
    let (p, actions) := p.finish s now .writeFailed
    (p, failure s "write" error ++ actions)

def forwarded (s : Setup) (now : Nat) (chunk : Bytes) (p : Pump) : Pump × List Action :=
  let p := { p with burst := chunk :: p.burst, held := p.held + chunk.length }
  if p.held < s.settings.maxPacket then
    ({ p with phase := .reading (some (now + s.settings.quiescence)) }, [.flushed])
  else
    let (p, actions) := p.emit s
    ({ p with phase := .reading none }, .flushed :: actions)

def capacity (s : Setup) : Nat := max s.settings.bufferSize 1

def fits (s : Setup) (bytes : Bytes) : Bool := !bytes.isEmpty && bytes.length ≤ capacity s

/-- The step from waiting in a read. Data at the deadline itself is still in time. -/
def readStep (s : Setup) (torn : Bool) (now : Nat) (deadline : Option Nat) (p : Pump) :
    Event → Option (Pump × List Action)
  | .tornDown => if torn then some (p.finish s now .tornDown) else none
  | .quiet =>
    if !torn && deadline.any (· ≤ now) then
      let (p, actions) := p.emit s
      some ({ p with phase := .reading none }, actions)
    else none
  | .chunk bytes =>
    if !torn && deadline.all (now ≤ ·) && fits s bytes then
      some ({ p with phase := .writing bytes bytes }, [.read bytes])
    else none
  | .sourceEnd =>
    if !torn && deadline.all (now ≤ ·) then some (p.finish s now .sourceClosed) else none
  | .readError error =>
    if !torn && deadline.all (now ≤ ·) then some (p.readFailed s now error) else none
  | _ => none

def writeStep (s : Setup) (torn : Bool) (now : Nat) (chunk rest : Bytes) (p : Pump) :
    Event → Option (Pump × List Action)
  | .tornDown => if torn then some (p.finish s now .tornDown) else none
  | .took 0 => some (p.writeFailed s torn now (.plain .writeZero))
  | .took count =>
    if torn || rest.length < count then none
    else
      let left := rest.drop count
      some ({ p with phase := if left.isEmpty then .flushing chunk else .writing chunk left },
        [.wrote (rest.take count)])
  | .writeError error => some (p.writeFailed s torn now error)
  | _ => none

def flushStep (s : Setup) (torn : Bool) (now : Nat) (chunk : Bytes) (p : Pump) :
    Event → Option (Pump × List Action)
  | .tornDown => if torn then some (p.finish s now .tornDown) else none
  | .flushed => if torn then none else some (p.forwarded s now chunk)
  | .flushError error => some (p.writeFailed s torn now error)
  | _ => none

def closeStep (s : Setup) (now : Nat) (outcome : Outcome) (deadline : Nat) (p : Pump) :
    Event → Option (Pump × List Action)
  | .closed => some ({ p with phase := .ended outcome }, [])
  | .closeError error => some ({ p with phase := .ended outcome },
      [note s .trace s!"shutdown of destination failed: {error.message}"])
  | .closeTimeout =>
    if deadline ≤ now then some ({ p with phase := .ended outcome },
      [note s .trace "shutdown of destination timed out"])
    else none
  | _ => none

/-- One event at time `now`, with the teardown flag as the pump finds it. -/
def step (s : Setup) (torn : Bool) (now : Nat) (p : Pump) (e : Event) :
    Option (Pump × List Action) :=
  match p.phase with
  | .reading deadline => p.readStep s torn now deadline e
  | .writing chunk rest => p.writeStep s torn now chunk rest e
  | .flushing chunk => p.flushStep s torn now chunk e
  | .closing outcome deadline => p.closeStep s now outcome deadline e
  | .ended _ => none

def start (s : Setup) : Pump × List Action :=
  (⟨.reading none, [], 0, 0⟩, [note s .trace s!"{s.direction.arrow} forwarder started"])

def outcome? (p : Pump) : Option Outcome :=
  match p.phase with
  | .ended outcome => some outcome
  | _ => none

end Pump
end Wiretap
