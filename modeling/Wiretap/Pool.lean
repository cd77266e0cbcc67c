import Wiretap.Failure.Report

/-!
# Worker pools

A pool runs the tasks submitted to it, at most `limit` at a time, or all at
once when the limit is zero. With a limit a task first needs a permit; tasks
wait for permits in the order in which they asked. Closing the permits cancels
the tasks that have not started. A started task is never interrupted.

Every change of a pool is one step: a submission, a task that is resumed, a
running task that ends, a note taken of tasks that are over, or one of the
stages of a shutdown.
-/

set_option autoImplicit false

namespace Wiretap

inductive TaskStatus where
  | submitted
  | queued
  -- A permit was handed to the task, which has not been resumed since.
  | handed
  | running
  | finished
  | cancelled
  | rejected
  deriving DecidableEq, Repr, Inhabited

namespace TaskStatus

def isOver : TaskStatus → Bool
  | .finished => true
  | .cancelled => true
  | .rejected => true
  | _ => false

end TaskStatus

inductive PoolShutdown where
  | graceful
  | forced
  | incomplete
  deriving DecidableEq, Repr, Inhabited

def PoolShutdown.name : PoolShutdown → String
  | .graceful => "Graceful"
  | .forced => "Forced"
  | .incomplete => "Incomplete"

/-- Tasks are numbered in the order of submission. `tracked` are those that a shutdown
waits for, `queue` those that wait for a permit. -/
structure Pool where
  limit : Nat
  accepting : Bool
  closed : Bool
  free : Nat
  queue : List Nat
  tasks : List TaskStatus
  tracked : List Nat
  deriving DecidableEq, Repr, Inhabited

namespace Pool

def maxPermits : Nat := 2305843009213693951

def tooManyPermits : String :=
  s!"a semaphore may not have more than MAX_PERMITS permits ({maxPermits})"

def make (limit : Nat) : Except String Pool :=
  if limit ≤ maxPermits then .ok ⟨limit, true, false, limit, [], [], []⟩
  else .error tooManyPermits

def status (p : Pool) (i : Nat) : Option TaskStatus := p.tasks[i]?

def setStatus (p : Pool) (i : Nat) (s : TaskStatus) : Pool :=
  { p with tasks := p.tasks.set i s }

def isOpen (p : Pool) (i : Nat) : Bool := (p.status i).all (fun s => !s.isOver)

/-- A new task; a pool that no longer accepts tasks rejects it. Tasks that are over are no longer
tracked. -/
def submit (p : Pool) : Pool × Bool :=
  if p.accepting then
    ({ p with
        tasks := p.tasks ++ [.submitted]
        tracked := p.tracked.filter p.isOpen ++ [p.tasks.length] }, true)
  else ({ p with tasks := p.tasks ++ [.rejected] }, false)

def release (p : Pool) : Pool :=
  match p.queue with
  | [] => { p with free := p.free + 1 }
  | i :: queue => { p.setStatus i .handed with queue }

def resume (p : Pool) (i : Nat) : Option Pool :=
  match p.status i with
  | some .submitted =>
    if p.limit = 0 then some (p.setStatus i .running)
    else if p.closed then some (p.setStatus i .cancelled)
    else if 0 < p.free then some { p.setStatus i .running with free := p.free - 1 }
    else some { p.setStatus i .queued with queue := p.queue ++ [i] }
  | some .queued => if p.closed then some (p.setStatus i .cancelled) else none
  | some .handed =>
    if p.closed then some (p.setStatus i .cancelled).release else some (p.setStatus i .running)
  | _ => none

def finish (p : Pool) (i : Nat) : Option Pool :=
  match p.status i with
  | some .running =>
    let p := p.setStatus i .finished
    some (if p.limit = 0 then p else p.release)
  | _ => none

def active (p : Pool) : Nat := p.tracked.countP p.isOpen

def trackedWithout (p : Pool) : Nat → List Nat → List Nat
  | 0, tracked => tracked
  | _ + 1, [] => []
  | n + 1, i :: tracked =>
    if p.isOpen i then i :: p.trackedWithout (n + 1) tracked else p.trackedWithout n tracked

def forget (p : Pool) (n : Nat) : Pool := { p with tracked := p.trackedWithout n p.tracked }

def stopAccepting (p : Pool) : Pool := { p with accepting := false }

def closePermits (p : Pool) : Pool := { p with closed := true, queue := [] }

def detach (p : Pool) : Pool := { p with tracked := [] }

inductive Step where
  | submit
  | resume (i : Nat)
  | finish (i : Nat) (panicked : Bool)
  | forget (count : Nat)
  | stopAccepting
  | closePermits
  | detach
  deriving DecidableEq, Repr, Inhabited

def step (p : Pool) : Step → Option Pool
  | .submit => some p.submit.1
  | .resume i => p.resume i
  | .finish i _ => p.finish i
  | .forget count => some (p.forget count)
  | .stopAccepting => some p.stopAccepting
  | .closePermits => some p.closePermits
  | .detach => some p.detach

def shuttingDown (p : Pool) : LogLine :=
  ⟨.info, s!"Shutting down worker pool ({p.tracked.length} tasks)"⟩

def durationText (millis : Nat) : String :=
  if millis = 0 then "0ns"
  else if millis < 1000 then s!"{millis}ms"
  else if millis % 1000 = 0 then s!"{millis / 1000}s"
  else
    let digits := (toString (1000 + millis % 1000)).toList.drop 1
    let digits := (digits.reverse.dropWhile (· = '0')).reverse
    s!"{millis / 1000}." ++ String.ofList digits ++ "s"

def cancelling (waited : Nat) : LogLine :=
  ⟨.warn, s!"Worker pool did not terminate within {durationText waited}, " ++
    "cancelling queued tasks"⟩

def detaching (p : Pool) : LogLine :=
  ⟨.error, s!"Worker pool still has {p.active} running tasks after forced shutdown, " ++
    "detaching them"⟩

def terminated : LogLine := ⟨.debug, "Worker pool terminated gracefully"⟩

def cancelledTask : LogLine := ⟨.debug, "Worker pool closed before the task could start"⟩

end Pool
end Wiretap
