import Wiretap.Pool

/-!
# Pools under virtual time

Each task runs for a time that is known beforehand, or for ever. Whoever uses
the pool acts at moments and takes turns with the tasks. The user's turn ends
when it waits, or after a fixed number of operations; then a fixed number of
tasks that can go on do so, in the order in which they became able to, before
the user has its next turn if it can go on too. Time passes when nobody can go
on, and at the moment to which the user waits the user is served first. A
shutdown waits for the tasks up to its two limits.
-/

set_option autoImplicit false

namespace Wiretap.Pool

structure Plan where
  length : Option Nat
  panics : Bool
  deriving DecidableEq, Repr, Inhabited

structure Record where
  started : Option Nat
  finished : Option Nat
  dropped : Option Nat
  deriving DecidableEq, Repr, Inhabited

structure Schedule where
  now : Nat
  pool : Pool
  plans : List Plan
  records : List Record
  ready : List Nat
  budget : Nat
  deriving Repr, Inhabited

namespace Schedule

def turnLength : Nat := 128

def roundLength : Nat := 61

def begin (p : Pool) : Schedule := ⟨0, p, [], [], [], turnLength⟩

def withPool (s : Schedule) (f : Pool → Pool) : Schedule := { s with pool := f s.pool }

def due (s : Schedule) (i : Nat) : Option Nat := do
  let status ← s.pool.status i
  let record ← s.records[i]?
  let plan ← s.plans[i]?
  if status = .running then return (← record.started) + (← plan.length) else none

def mark (s : Schedule) (i : Nat) (f : Record → Record) : Schedule :=
  { s with records := s.records.modify i f }

def resume (s : Schedule) (i : Nat) : Option Schedule := do
  let s := { s with pool := ← s.pool.resume i }
  match s.pool.status i with
  | some .running => s.mark i (fun r => { r with started := some s.now })
  | some .cancelled => s.mark i (fun r => { r with dropped := some s.now })
  | _ => s

def finish (s : Schedule) (i : Nat) : Option Schedule := do
  if (s.due i).any (· ≤ s.now) then
    let plan ← s.plans[i]?
    let s := { s with pool := ← s.pool.finish i, ready := s.ready ++ s.pool.queue.take 1 }
    if plan.panics then s.mark i (fun r => { r with dropped := some s.now })
    else s.mark i (fun r => { r with finished := some s.now })
  else none

def goOn (s : Schedule) (i : Nat) : Schedule :=
  let s := (s.resume i).getD s
  (s.finish i).getD s

def round : Nat → Schedule → Schedule
  | 0, s => s
  | n + 1, s =>
    match s.ready with
    | [] => s
    | i :: ready => round n ({ s with ready }.goOn i)

def newTurn (s : Schedule) : Schedule := { s with budget := turnLength }

def pass (s : Schedule) : Schedule := (s.round roundLength).newTurn

def spend (s : Schedule) : Schedule :=
  let s := if s.budget = 0 then s.pass else s
  { s with budget := s.budget - 1 }

def nextDue (s : Schedule) : Option Nat :=
  ((List.range s.plans.length).filterMap s.due).min?

def advance (s : Schedule) (time : Nat) : Schedule :=
  let ending := (List.range s.plans.length).filter (fun i => s.due i == some time)
  { s with now := time, ready := s.ready ++ ending }

def waitFrom (awaited : Pool → Bool) (alarm : Nat) : Nat → Schedule → Schedule
  | 0, s => s
  | fuel + 1, s =>
    let s := s.round roundLength
    if awaited s.pool then s.newTurn
    else if !s.ready.isEmpty then waitFrom awaited alarm fuel s
    else
      let time := s.nextDue.elim alarm (min alarm)
      let s := s.advance time
      if time = alarm then s.newTurn else waitFrom awaited alarm fuel s

def wait (s : Schedule) (awaited : Pool → Bool) (alarm : Nat) : Schedule :=
  s.waitFrom awaited alarm (8 * s.plans.length + 2)

def sleep (s : Schedule) (duration : Nat) : Schedule :=
  let alarm := s.now + duration
  let s := if s.budget = 0 then s.pass else s
  (if s.now < alarm then s.wait (fun _ => false) alarm else s).spend

def submit (s : Schedule) (plan : Plan) : Schedule × Bool :=
  let s := if s.pool.accepting then s.spend else s
  let (pool, accepted) := s.pool.submit
  let record : Record := ⟨none, none, if accepted then none else some s.now⟩
  ({ s with
      pool
      plans := s.plans ++ [plan]
      records := s.records ++ [record]
      ready := if accepted then s.ready ++ [s.plans.length] else s.ready }, accepted)

def active (s : Schedule) : Nat × Schedule :=
  let s := s.spend
  (s.pool.active, s.withPool (fun p => p.forget p.tracked.length))

/-- Takes note of tasks that are over, one an operation, until none is tracked or the
deadline has passed. The deadline is not looked at in a turn that began used up. -/
def drainFrom (deadline : Nat) : Nat → Schedule → Schedule × Bool
  | 0, s => (s, false)
  | fuel + 1, s =>
    let ended := min s.budget (s.pool.tracked.length - s.pool.active)
    let later := { s.withPool (·.forget ended) with budget := s.budget - ended }
    if later.pool.tracked.isEmpty then (later, true)
    else if 0 < s.budget ∧ deadline ≤ s.now then
      ({ later with budget := later.budget - 1 }, false)
    else if later.budget = 0 then drainFrom deadline fuel later.pass
    else
      let anyEnded (p : Pool) : Bool := p.active < p.tracked.length
      drainFrom deadline fuel (later.wait anyEnded deadline)

def drain (s : Schedule) (duration : Nat) : Schedule × Bool :=
  s.drainFrom (s.now + duration) (2 * s.plans.length + 4)

def shutdown (s : Schedule) (graceful forced : Nat) : Schedule × PoolShutdown :=
  let (s, drained) := (s.withPool stopAccepting).spend.drain graceful
  if drained then (s, .graceful)
  else
    let s := { s.withPool closePermits with ready := s.ready ++ s.pool.queue }
    let (s, drained) := s.drain forced
    if drained then (s, .forced) else (s.withPool detach, .incomplete)

end Schedule
end Wiretap.Pool
