import Wiretap.Pump

/-!
# Pumps between scripted ends

A script says when each piece of a source can be read and how a destination
serves its calls. Pumps that share one teardown flag are run against such ends
under virtual time: computing takes none, and the clock moves to the next
moment at which a call can return. When two things happen at one moment, a
raised flag comes before reading and writing, and data before a deadline.
-/

set_option autoImplicit false

namespace Wiretap.Pump

inductive Arrival where
  | data (bytes : Bytes)
  | failure (error : IoFailure)
  | ending
  deriving Inhabited

structure Piece where
  time : Option Nat
  arrival : Arrival
  deriving Inhabited

def draw (size now : Nat) : List Piece → Option (Event × List Piece)
  | [] => some (.sourceEnd, [])
  | piece :: rest =>
    if piece.time.any (· ≤ now) then
      match piece.arrival with
      | .data [] => some (.sourceEnd, rest)
      | .data bytes =>
        let left := bytes.drop size
        some (.chunk (bytes.take size),
          if left.isEmpty then rest else { piece with arrival := .data left } :: rest)
      | .failure error => some (.readError error, rest)
      | .ending => some (.sourceEnd, rest)
    else none

def drawn (e : Event) : List Piece → Option Nat
  | ⟨_, .data _⟩ :: _ => some (match e with
    | .chunk bytes => bytes.length
    | _ => 0)
  | _ => none

structure Barrier where
  size : Nat
  error : Option IoFailure
  once : Bool
  deriving Inhabited

inductive CloseReply where
  | ok
  | error (error : IoFailure)
  | never
  deriving Inhabited

structure Destination where
  delay : Nat
  most : Option Nat
  barrier : Option Barrier
  flushDelay : Nat
  flushFailure : Option (Nat × IoFailure)
  closeDelay : Nat
  closeReply : CloseReply
  deriving Inhabited

structure Line where
  setup : Setup
  pump : Pump
  source : List Piece
  destination : Destination
  due : Option Nat
  accepted : Nat
  flushes : Nat
  reads : List (Nat × Nat)
  writes : List (Nat × Nat)
  trace : List (Nat × Action)
  ended : Option Nat
  deriving Inhabited

/-- What a line can do at one moment. A write that is interrupted is made again, and the pump
does not hear of it. -/
inductive Turn where
  | event (e : Event) (after : Line)
  | again (after : Line)
  | wait (until? : Option Nat)
  | done

namespace Line

def begin (s : Setup) (source : List Piece) (d : Destination) : Line :=
  let (pump, actions) := Pump.start s
  ⟨s, pump, source, d, none, 0, 0, [], [], (actions.map (fun a => (0, a))).reverse, none⟩

def earlier : Option Nat → Option Nat → Option Nat
  | some a, some b => some (min a b)
  | some a, none => some a
  | none, b => b

def read (l : Line) (now : Nat) (deadline : Option Nat) : Turn :=
  match draw (capacity l.setup) now l.source with
  | some (e, source) => .event e { l with
      source, reads := (drawn e l.source).toList.map (now, ·) ++ l.reads }
  | none =>
    if deadline.any (· ≤ now) then .event .quiet l
    else .wait (earlier (l.source.head?.bind (·.time)) deadline)

def refuse (l : Line) (barrier : Barrier) : Turn :=
  let l := if barrier.once then
    { l with destination := { l.destination with barrier := none } } else l
  match barrier.error with
  | none => .event (.took 0) l
  | some error => if error.kind == .interrupted then .again l else .event (.writeError error) l

def write (l : Line) (now : Nat) (rest : Bytes) : Turn :=
  let wanted := l.destination.most.elim rest.length (min rest.length)
  let l := { l with due := none }
  match l.destination.barrier with
  | some barrier =>
    let count := min wanted (barrier.size - l.accepted)
    if count = 0 then l.refuse barrier
    else .event (.took count)
      { l with accepted := l.accepted + count, writes := (now, count) :: l.writes }
  | none => .event (.took wanted)
      { l with accepted := l.accepted + wanted, writes := (now, wanted) :: l.writes }

def flush (l : Line) : Turn :=
  let l := { l with due := none, flushes := l.flushes + 1 }
  match l.destination.flushFailure with
  | some (turn, error) => .event (if turn = l.flushes then .flushError error else .flushed) l
  | none => .event .flushed l

def close (l : Line) : Turn :=
  match l.destination.closeReply with
  | .ok => .event .closed l
  | .error error => .event (.closeError error) l
  | .never => .wait none

/-- Serves a call once its delay is over, which begins when the pump first waits for it. -/
def served (l : Line) (now delay : Nat) (deadline : Option Nat) (serve : Line → Turn)
    (late : Event) : Turn :=
  let due := l.due.getD (now + delay)
  let turn := if due ≤ now then serve l else .wait (some due)
  match turn with
  | .wait due =>
    if deadline.any (· ≤ now) then .event late l else .wait (earlier due deadline)
  | turn => turn

def turn (l : Line) (torn : Bool) (now : Nat) : Turn :=
  match l.pump.phase with
  | .reading deadline => if torn then .event .tornDown l else l.read now deadline
  | .writing _ rest =>
    if torn then .event .tornDown { l with due := none }
    else l.served now l.destination.delay none (fun l => l.write now rest) .quiet
  | .flushing _ =>
    if torn then .event .tornDown { l with due := none }
    else l.served now l.destination.flushDelay none flush .quiet
  | .closing _ deadline =>
    l.served now l.destination.closeDelay (some deadline) close .closeTimeout
  | .ended _ => .done

def schedule (l : Line) (now : Nat) : Line :=
  match l.pump.phase with
  | .writing _ _ => { l with due := some (l.due.getD (now + l.destination.delay)) }
  | .flushing _ => { l with due := some (l.due.getD (now + l.destination.flushDelay)) }
  | .closing _ _ => { l with due := some (l.due.getD (now + l.destination.closeDelay)) }
  | .reading _ => l
  | .ended _ => l

def follow (l : Line) (torn : Bool) (now : Nat) (e : Event) : Option (Line × Bool) :=
  (l.pump.step l.setup torn now e).map fun (pump, actions) =>
    ({ l with
        pump
        trace := actions.reverse.map (fun a => (now, a)) ++ l.trace
        ended := if pump.outcome?.isSome then some now else none },
      actions.any (fun a => match a with
        | .raised => true
        | _ => false))

/-! What the trace of a line shows, in the order of time. -/

def traced {α : Type} (l : Line) (pick : Action → Option α) : List (Nat × α) :=
  l.trace.reverse.filterMap (fun (time, a) => (pick a).map (time, ·))

def written (l : Line) : Bytes :=
  (l.traced (fun a => match a with
    | .wrote bytes => some bytes
    | _ => none)).flatMap (·.2)

def captures (l : Line) : List (Nat × Bytes) :=
  l.traced (fun a => match a with
    | .captured bytes => some bytes
    | _ => none)

def failures (l : Line) : List IoFailure :=
  (l.traced (fun a => match a with
    | .reported error => some error
    | _ => none)).map (·.2)

def log (l : Line) : List LogLine :=
  (l.traced (fun a => match a with
    | .logged line => some line
    | _ => none)).map (·.2)

def shutdownTime? (l : Line) : Option Nat :=
  ((l.traced (fun a => match a with
    | .shutdown => some ()
    | _ => none)).head?).map (·.1)

end Line

/-- Lines that share a flag, at one moment of virtual time; `signal` is when the flag is
raised from outside. -/
structure Simulation where
  now : Nat
  torn : Bool
  signal : Option Nat
  lines : List Line
  deriving Inhabited

namespace Simulation

def horizon : Nat := 1000000000

def act (torn : Bool) (now : Nat) : List Line → Option (List Line × Bool)
  | [] => none
  | l :: ls =>
    let l := l.schedule now
    match l.turn torn now with
    | .event e after => (after.follow torn now e).map (fun (l, raised) => (l :: ls, raised))
    | .again after => some (after :: ls, false)
    | _ => (act torn now ls).map (fun (ls, raised) => (l :: ls, raised))

def nextMoment (torn : Bool) (now : Nat) (ls : List Line) : Option Nat :=
  ls.foldl (fun next l => match l.turn torn now with
    | .wait time => Line.earlier next time
    | _ => next) none

def step (s : Simulation) : Option Simulation :=
  if s.signal.any (· ≤ s.now) then some { s with torn := true, signal := none }
  else
    match act s.torn s.now s.lines with
    | some (lines, raised) => some { s with lines, torn := s.torn || raised }
    | none =>
      let lines := s.lines.map (·.schedule s.now)
      if lines.all (·.ended.isSome) then none
      else
        match Line.earlier (nextMoment s.torn s.now lines) s.signal with
        | some next => if next ≤ horizon then some { s with now := next, lines } else none
        | none => none

def run : Nat → Simulation → Simulation
  | 0, s => s
  | fuel + 1, s =>
    match s.step with
    | some s => run fuel s
    | none => s

def budget (pieces : List Piece) : Nat :=
  pieces.foldr (fun p n => n + match p.arrival with
    | .data bytes => 8 * bytes.length + 16
    | _ => 16) 64

def finish (s : Simulation) : Simulation :=
  s.run (s.lines.foldr (fun l n => budget l.source + n) 0)

end Simulation
end Wiretap.Pump
