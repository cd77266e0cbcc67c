import Std.Async.DNS
import Std.Async.Signal
import Std.Async.TCP
import Std.Async.Timer
import Std.Sync.Mutex
import Wiretap.Program

/-!
# The command

The program on the sockets of this machine. Every call that is awaited gives
one event, and the service decides what comes of it; nothing is decided here.
Steps of the service are taken one at a time, and whatever a step logged,
reported or captured is shown before the next.

Sockets here carry plain bytes. A handshake that a session asks for fails.
-/

set_option autoImplicit false

namespace Wiretap.Live
open Std.Async

abbrev Socket := TCP.Socket.Client
abbrev Listener := TCP.Socket.Server

structure Stage where
  state : Std.Mutex (Service × Readers)
  asJson : Bool
  fatal : IO.Promise Report

def pause : Std.Time.Millisecond.Offset := 20

def reader : String := "display"

def wallTime : IO Timestamp := do
  let now ← Std.Time.Timestamp.now
  return .ofMillis now.toMillisecondsSinceUnixEpoch.val

def put (line : LogLine) : IO Unit := do
  if Program.isShown line then IO.eprintln (Program.logText (← wallTime) line)

def deliver (asJson : Bool) : Delivery → IO Unit
  | .event (.packetAdded id p) =>
    if asJson then IO.println (Program.packetRecord id p) else put (Program.packetLine id p)
  | .event _ => return ()
  | .missed count => put (Program.fellBehind count)

def reportsOf (actions : List Manager.Action) : List Service.Reported :=
  actions.filterMap (·.report?)

namespace Stage

def tell (w : Stage) (lines : List LogLine) (reports : List Service.Reported)
    (given : List Delivery) : IO Unit := do
  lines.forM put
  reports.forM (fun r => (Program.reportLines r).forM put)
  if let some report := Program.fatal? reports then w.fatal.resolve report
  given.forM (deliver w.asJson)

def update {α : Type} (w : Stage)
    (f : Timestamp → Nat → Service → α × Service × List Service.Reported) : IO α :=
  w.state.atomically do
    let (service, readers) ← get
    let (a, service, reports) := f (← wallTime) (← IO.monoMsNow) service
    let (lines, recorder) := service.recorder.takeLog
    let (given, readers) :=
      (readers.read recorder.feed reader (Feed.capacity + 1)).getD ([], readers)
    w.tell lines reports given
    set ({ service with recorder }, readers)
    return a

def service (w : Stage) : IO Service := w.state.atomically do return (← get).1

def log (w : Stage) (line : LogLine) : IO Unit :=
  w.update fun _ _ s => ((), s.log line, [])

def perform (w : Stage) (k : Nat) (step : Engine.Step) : IO Bool :=
  w.update fun time now s =>
    match s.engineStep time now k step with
    | some (s, actions) => (true, s, reportsOf actions)
    | none => (false, s, [])

def engine? (w : Stage) (k : Nat) : IO (Option Engine) :=
  return ((← w.service).manager.engines[k]?).map (·.engine)

def phase? (w : Stage) (k i : Nat) : IO (Option Handler.Phase) :=
  return (← w.engine? k).bind (fun e => e.handlers[i]?)

partial def wait (w : Stage) (limit : Nat) (holds : Service → Bool) : Async Bool := do
  let start ← IO.monoMsNow
  if holds (← w.service) then return true
  if limit = 0 then return false
  sleep pause
  w.wait (limit - ((← IO.monoMsNow) - start)) holds

end Stage

def codeOf : IO.Error → Option UInt32
  | .alreadyExists _ c _ => c
  | .otherError c _ => c
  | .resourceBusy c _ => c
  | .resourceVanished c _ => c
  | .unsupportedOperation c _ => c
  | .hardwareFault c _ => c
  | .unsatisfiedConstraints c _ => c
  | .illegalOperation c _ => c
  | .protocolError c _ => c
  | .timeExpired c _ => c
  | .interrupted _ c _ => c
  | .noFileOrDirectory _ c _ => c
  | .invalidArgument _ c _ => c
  | .permissionDenied _ c _ => c
  | .resourceExhausted _ c _ => c
  | .inappropriateType _ c _ => c
  | _ => none

def failureOf (e : IO.Error) : IoFailure :=
  match codeOf e with
  | some c => .system c.toInt32.toInt.natAbs
  | none => .described .other (toString e)

def noHandshake : IoFailure := .described .unsupported "TLS is not spoken on these sockets"

def attempt {α : Type} (call : Async α) : Async (Except IoFailure α) := do
  try
    return .ok (← call)
  catch e =>
    return .error (failureOf e)

def ofNet : Std.Net.SocketAddress → SocketAddress
  | .v4 a => ⟨.v4 a.addr.octets.toList, a.port⟩
  | .v6 a => ⟨.v6 a.addr.segments.toList, a.port⟩

def withPort (port : UInt16) : Std.Net.IPAddr → Std.Net.SocketAddress
  | .v4 addr => .v4 ⟨addr, port⟩
  | .v6 addr => .v6 ⟨addr, port⟩

def literal? (host : String) : Option Std.Net.IPAddr :=
  match IpAddress.read? host.toList with
  | some (.v4 [a, b, c, d]) => some (.v4 (.ofParts a b c d))
  | some (.v6 [a, b, c, d, e, f, g, h]) => some (.v6 (.ofParts a b c d e f g h))
  | _ => none

def addresses (host : String) : Async (List Std.Net.IPAddr) := do
  match literal? host with
  | some ip => return [ip]
  | none => return (← DNS.getAddrInfo host "").toList

def backlog : UInt32 := 1024

def openListener (setup : Server.Setup) : Async (Except NetworkFailure Listener) := do
  let hindered (h : Server.Hindrance) : NetworkFailure := h.failure setup.address setup.port
  match ← attempt (addresses setup.address) with
  | .error e => return .error (hindered (.unresolved e))
  | .ok [] => return .error (hindered .nowhere)
  | .ok (ip :: _) =>
    let opened ← attempt do
      let listener ← TCP.Socket.Server.mk
      listener.bind (withPort setup.port ip)
      listener.listen backlog
      return listener
    return opened.mapError (fun e => hindered (.socket e))

def openTarget (host : String) (port : UInt16) : Async (Except IoFailure Socket) := do
  let mut last : IoFailure := .described .other "no address"
  match ← attempt (addresses host) with
  | .error e => return .error e
  | .ok ips =>
    for ip in ips do
      let opened ← attempt do
        let socket ← TCP.Socket.Client.mk
        socket.connect (withPort port ip)
        socket.noDelay
        return socket
      match opened with
      | .ok socket => return .ok socket
      | .error e => last := e
    return .error last

/-- An event of a pump. One that comes at a deadline or after the flag is preceded by it. -/
def meet (w : Stage) (k i : Nat) (d : Direction) (e : Pump.Event) : IO Unit := do
  let send (e : Pump.Event) : IO Bool := w.perform k (.handler i (.pump d e))
  unless ← send e do
    discard <| send .quiet
    unless ← send e do
      discard <| send .tornDown

def readSome (source : Socket) (size : Nat) : Async (Option Pump.Event) := do
  let got ← attempt do
    Selectable.one #[
      .case (source.recvSelector (UInt64.ofNat (max size 1))) (fun bytes => return some bytes),
      .case (← Selector.sleep pause) (fun _ => return none)]
  match got with
  | .ok none => return none
  | .ok (some (some bytes)) => return some (.chunk bytes.toList)
  | .ok (some none) => return some .sourceEnd
  | .error e => return some (.readError e)

partial def runPump (w : Stage) (k i : Nat) (d : Direction) (size : Nat)
    (source destination : Socket) : Async Unit := do
  match ← w.phase? k i with
  | some (.relaying toTarget toClient torn) =>
    let pump := match d with
      | .toTarget => toTarget
      | .toClient => toClient
    let served (call : Async Unit) (good : Pump.Event) (bad : IoFailure → Pump.Event) :
        Async Unit := do
      match ← attempt call with
      | .ok () => meet w k i d good
      | .error e => meet w k i d (bad e)
    match pump.phase with
    | .ended _ => return ()
    | .closing _ _ => served destination.shutdown .closed .closeError
    | .writing _ rest =>
      if torn then meet w k i d .tornDown
      else served (destination.send ⟨rest.toArray⟩) (.took rest.length) .writeError
    | .flushing _ => meet w k i d (if torn then .tornDown else .flushed)
    | .reading _ =>
      if torn then meet w k i d .tornDown
      else match ← readSome source size with
        | some e => meet w k i d e
        -- possible only once the deadline has come
        | none => discard <| w.perform k (.handler i (.pump d .quiet))
    runPump w k i d size source destination
  | _ => return ()

partial def awaitTurn (w : Stage) (k i : Nat) : Async Bool := do
  discard <| w.perform k (.resume i)
  match (← w.engine? k).bind (·.pool.status i) with
  | some .running => return true
  | none => return false
  | some status =>
    if status.isOver then return false
    sleep pause
    awaitTurn w k i

def serveClient (w : Stage) (k i : Nat) (setup : Engine.Setup) (peer : String)
    (client : Socket) : Async Unit := do
  let tell (e : Handler.Event) : IO Unit := discard (w.perform k (.handler i e))
  let target := Server.authority setup.server.targetHost setup.server.targetPort
  unless ← awaitTurn w k i do return
  if setup.tls.interceptsClients then
    tell (.clientFailed (.handshake peer noHandshake))
    return
  tell .clientReady
  match ← openTarget setup.server.targetHost setup.server.targetPort with
  | .error e => tell (.targetFailed (.connect target e))
  | .ok socket =>
    if setup.tls.reachesTargetOverTls then
      tell (.targetFailed (.handshake target noHandshake))
      return
    tell .targetReady
    let size := setup.settings.bufferSize
    discard <| Async.concurrently (runPump w k i .toTarget size client socket)
      (runPump w k i .toClient size socket client)

def randomBytes (count : USize) : IO (List UInt8) := return (← IO.getRandomBytes count).toList

def freshId : IO ConnectionId := do
  let bytes ← randomBytes 16
  let marked := bytes.zipIdx.map fun (b, place) =>
    if place = 6 then b &&& 0x0F ||| 0x40
    else if place = 8 then b &&& 0x3F ||| 0x80
    else b
  return .ofNat (marked.foldl (fun n b => 256 * n + b.toNat) 0)

partial def acceptAll (w : Stage) (k : Nat) (setup : Engine.Setup) (listener : Listener) :
    Async Unit := do
  let run (e : Server.Event) : IO Unit := discard (w.perform k (.run e))
  run .stopSeen
  unless (← w.engine? k).all (·.run == .ended) do
    let next ← attempt do
      Selectable.one #[
        .case listener.acceptSelector (fun socket => return some socket),
        .case (← Selector.sleep pause) (fun _ => return none)]
    match next with
    | .ok none => pure ()
    | .ok (some socket) =>
      let peer := ofNet (← socket.getPeerName)
      let client : Client := ⟨← freshId, peer, ← wallTime⟩
      run (.accepted client .admitted)
      let count := ((← w.engine? k).map (·.handlers.length)).getD 0
      background (serveClient w k (count - 1) setup peer.text socket)
    | .error e =>
      run (.acceptFailed e)
      sleep (Std.Time.Millisecond.Offset.ofNat Server.restMillis)
      run .rested
    acceptAll w k setup listener

def runServer (w : Stage) (k : Nat) (setup : Engine.Setup) : Async Unit := do
  let run (e : Server.Event) : IO Unit := discard (w.perform k (.run e))
  run .begun
  match ← openListener setup.server with
  | .error e => run (.bindFailed e)
  | .ok listener =>
    run .bound
    match ← attempt (listener.getSockName : IO _) with
    | .error e => run (.locateFailed e)
    | .ok address =>
      run (.located (ofNet address))
      run .opened
      acceptAll w k setup listener

def isIdle (k : Nat) (s : Service) : Bool :=
  (s.manager.engines[k]?).all (·.engine.pool.active == 0)

def runEnded (k : Nat) (s : Service) : Bool :=
  (s.manager.engines[k]?).all (·.engine.run == .ended)

def closePool (w : Stage) (k : Nat) (p : ShutdownPolicy) : Async PoolShutdown := do
  discard <| w.perform k .stopAccepting
  if ← w.wait p.graceful (isIdle k) then
    w.log Pool.terminated
    return .graceful
  discard <| w.perform k (.closePermits p.graceful)
  if ← w.wait p.forced (isIdle k) then return .forced
  discard <| w.perform k .detach
  return .incomplete

def stop (w : Stage) : Async Unit := do
  let s ← w.service
  let released : Option Nat ← w.update fun time now s =>
    match s.release time now with
    | some (k, s, actions) => (some k, s, reportsOf actions)
    | none => (none, s, [])
  if let some k := released then
    unless ← w.wait s.manager.policy.acceptLoop (runEnded k) do
      w.log Manager.overdue
      discard <| w.perform k (.run .dropped)
    w.log (Manager.stopped (← closePool w k s.manager.policy))
  if let some i := s.current then
    w.update fun _ _ s => ((), s.finishStop i, [])

def untilOver (w : Stage) : Async UInt32 := do
  let signal ← Signal.Waiter.mk .sigint false
  let caught : Task (Except IO.Error Int) := (← signal.wait).run
  let interrupted : Task (Option Report) := caught.map (fun _ => none)
  let first : BaseIO (Option Report) := IO.waitAny [interrupted, w.fatal.result?]
  match ← first with
  | none =>
    w.log Program.interrupted
    return 0
  | some report =>
    w.log (Program.failed report)
    return 1

partial def freshPrime : IO Nat := do
  let n := Der.natOf (← randomBytes 128) ||| 3 <<< 1022 ||| 1
  if Crypto.isProbablePrime n then return n else freshPrime

partial def freshKey : IO PrivateKey := do
  let (a, b) := (← freshPrime, ← freshPrime)
  let key := Crypto.RsaPrivateKey.ofPrimes (max a b) (min a b)
  if key.isValid then return .rsa key else freshKey

def freshDraw (l : Program.Launch) : IO Draw := do
  let key ← if l.issuer.isSome then freshKey else pure default
  return ⟨← wallTime, key, ← randomBytes 16⟩

def serve (l : Program.Launch) : Async UInt32 := do
  let service := l.service
  let readers := Readers.none.subscribe service.recorder.feed reader
  let w : Stage := ⟨← Std.Mutex.new (service, readers), l.options.json, ← IO.Promise.new⟩
  let draw ← (freshDraw l : IO _)
  let started ← w.update fun time _ s =>
    let (result, s, actions) := s.start time draw l.session
    (result, s, reportsOf actions)
  match started with
  | .error (.failed e) =>
    w.log (Program.unstarted e)
    return 1
  | .error _ => return 101
  | .ok () =>
    let s ← w.service
    if let some k := s.manager.held then
      if let some h := s.manager.engines[k]? then
        background (runServer w k h.engine.setup)
    let status ← untilOver w
    stop w
    w.log (Program.summary (← w.service).recorder.registry)
    return status

def readFile (path : String) : IO (Except IoFailure (List UInt8)) := do
  try
    return .ok (← IO.FS.readBinFile path).toList
  catch e =>
    return .error (failureOf e)

def run (args : List String) : IO UInt32 := do
  let names := Options.specs.filterMap (·.env)
  let env ← names.filterMapM (fun n => return (← IO.getEnv n).map (n, ·))
  match Options.read args (env.lookup ·) with
  | .error refusal =>
    let (status, text) := Program.refusal Program.usage refusal
    IO.print text
    if status ≠ 0 then IO.eprintln s!"error: {refusal.name}\n\n{Program.usage}"
    return UInt32.ofNat status
  | .ok o =>
    IO.print Program.banner
    let content ← (o.configFile.mapM readFile : IO _)
    match Program.prepare o (fun _ => content.getD (.ok [])) with
    | .error e =>
      (Program.importing :: e.log).forM put
      return 1
    | .ok l => (serve l).block

end Wiretap.Live

def main (args : List String) : IO UInt32 := Wiretap.Live.run args
