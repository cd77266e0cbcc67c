import Wiretap.Proofs.Pool.Moves
import Wiretap.Proofs.Run

/-!
# Pools from the first task to the end of a shutdown

A pool is used in time: tasks are submitted, go on and end, and one call shuts it
down, which waits for the tasks up to two deadlines. The turns may come in any
order, at any moment, and only the deadlines and what the pool itself asks stand
in their way. After the shutdown has returned the pool may be dropped. What a
schedule does is such a life, in which time waits for the tasks (`schedule_lives`).
-/

set_option autoImplicit false

namespace Wiretap.Pool

inductive Mode where
  | serving
  | called (graceful forced : Nat)
  | waiting (deadline forced : Nat)
  | forcing (deadline : Nat)
  | returned (outcome : PoolShutdown)
  deriving DecidableEq, Repr

namespace Mode

def isServing : Mode → Bool
  | .serving => true
  | _ => false

def isClosed : Mode → Bool
  | .forcing _ => true
  | .returned .forced => true
  | .returned .incomplete => true
  | _ => false

def isReturned : Mode → Bool
  | .returned _ => true
  | _ => false

def isLocked : Mode → Bool
  | .waiting _ _ => true
  | .forcing _ => true
  | _ => false

end Mode

structure Life where
  now : Nat
  pool : Pool
  mode : Mode
  asking : Nat
  deriving DecidableEq, Repr

/-- Time may pass at any moment, or only when no task can go on, as it does in a schedule. -/
inductive Clock where
  | free
  | prompt
  deriving DecidableEq, Repr

def isIdle (p : Pool) : Bool := (List.range p.tasks.length).all (fun i => (p.resume i).isNone)

def Clock.lets : Clock → Pool → Bool
  | .free, _ => true
  | .prompt, p => p.isIdle

inductive Turn where
  | ask
  | enter
  | poll (i : Nat)
  | finish (i : Nat) (panicked : Bool)
  | reap (count : Nat)
  | pass (duration : Nat)
  | shutdown (graceful forced : Nat)
  | wait
  | drained
  | expire
  | drop
  deriving DecidableEq, Repr

inductive Deed where
  | rejected (i : Nat)
  | started (i : Nat)
  | ended (i : Nat) (panicked : Bool)
  | handed (i : Nat)
  | dropped (i : Nat)
  | aborted (i : Nat)
  | closing
  | awaits (deadline : Nat)
  | expired
  | returned (outcome : PoolShutdown)
  deriving DecidableEq, Repr

def abandon (p : Pool) : Pool :=
  p.tracked.foldl (fun p i => if p.isOpen i then p.setStatus i .cancelled else p) p

def news (i : Nat) : TaskStatus → List Deed
  | .running => [.started i]
  | .cancelled => [.dropped i]
  | _ => []

def polled (p : Pool) (i : Nat) : List Deed := (p.status i).elim [] (news i)

def handedOn (p : Pool) : List Deed := p.queue.head?.toList.map .handed

namespace Life

def begin (p : Pool) : Life := ⟨0, p, .serving, 0⟩

def resolve (l : Life) (asking : Nat) : Life × List Deed :=
  ({ l with pool := l.pool.submit.1, asking },
    if l.pool.submit.2 then [] else [.rejected l.pool.tasks.length])

def act (clock : Clock) (l : Life) : Turn → Option (Life × List Deed)
  | .ask =>
    if l.pool.accepting then some ({ l with asking := l.asking + 1 }, [])
    else some (l.resolve l.asking)
  | .enter =>
    if l.mode.isLocked ∨ l.asking = 0 then none else some (l.resolve (l.asking - 1))
  | .poll i => (l.pool.step (.resume i)).map fun pool => ({ l with pool }, pool.polled i)
  | .finish i panicked => (l.pool.step (.finish i panicked)).map fun pool =>
    ({ l with pool }, .ended i panicked :: l.pool.handedOn)
  | .reap count => some ({ l with pool := l.pool.forget count }, [])
  | .pass duration =>
    if clock.lets l.pool then some ({ l with now := l.now + duration }, []) else none
  | .shutdown graceful forced =>
    match l.mode with
    | .serving =>
      some ({ l with pool := l.pool.stopAccepting, mode := .called graceful forced }, [.closing])
    | _ => none
  | .wait =>
    match l.mode with
    | .called graceful forced =>
      some ({ l with mode := .waiting (l.now + graceful) forced }, [.awaits (l.now + graceful)])
    | _ => none
  | .drained =>
    match l.mode, l.pool.tracked with
    | .waiting _ _, [] => some ({ l with mode := .returned .graceful }, [.returned .graceful])
    | .forcing _, [] => some ({ l with mode := .returned .forced }, [.returned .forced])
    | _, _ => none
  | .expire =>
    if l.pool.tracked = [] then none
    else
      match l.mode with
      | .waiting deadline forced =>
        if deadline ≤ l.now then
          some ({ l with pool := l.pool.closePermits, mode := .forcing (l.now + forced) },
            [.expired])
        else none
      | .forcing deadline =>
        if deadline ≤ l.now then
          some ({ l with pool := l.pool.detach, mode := .returned .incomplete },
            [.returned .incomplete])
        else none
      | _ => none
  | .drop =>
    match l.mode with
    | .returned _ =>
      some ({ l with pool := l.pool.abandon }, (l.pool.tracked.filter l.pool.isOpen).map .aborted)
    | _ => none

def step (clock : Clock) (l : Life) (t : Turn) : Option (Life × List (Nat × Deed)) :=
  (l.act clock t).map fun (m, deeds) => (m, deeds.map (fun d => (l.now, d)))

inductive Does (clock : Clock) (l : Life) : Life → List Deed → Prop where
  | asks : Does clock l { l with asking := l.asking + 1 } []
  | submits (asking : Nat) : Does clock l { l with pool := l.pool.submit.1, asking }
      (if l.pool.submit.2 then [] else [.rejected l.pool.tasks.length])
  | polls {i : Nat} {pool : Pool} (move : Move l.pool (.resume i) pool) :
      Does clock l { l with pool } (pool.polled i)
  | ends {i : Nat} {panicked : Bool} {pool : Pool}
      (move : Move l.pool (.finish i panicked) pool) :
      Does clock l { l with pool } (.ended i panicked :: l.pool.handedOn)
  | reaps (count : Nat) : Does clock l { l with pool := l.pool.forget count } []
  | passes (duration : Nat) (still : clock.lets l.pool = true) :
      Does clock l { l with now := l.now + duration } []
  | calls (graceful forced : Nat) (on : l.mode = .serving) :
      Does clock l { l with pool := l.pool.stopAccepting, mode := .called graceful forced }
        [.closing]
  | waits (graceful forced : Nat) (on : l.mode = .called graceful forced) :
      Does clock l { l with mode := .waiting (l.now + graceful) forced }
        [.awaits (l.now + graceful)]
  | drains (deadline forced : Nat) (on : l.mode = .waiting deadline forced)
      (none : l.pool.tracked = []) :
      Does clock l { l with mode := .returned .graceful } [.returned .graceful]
  | drainsLate (deadline : Nat) (on : l.mode = .forcing deadline) (none : l.pool.tracked = []) :
      Does clock l { l with mode := .returned .forced } [.returned .forced]
  | expires (deadline forced : Nat) (on : l.mode = .waiting deadline forced)
      (due : deadline ≤ l.now) :
      Does clock l { l with pool := l.pool.closePermits, mode := .forcing (l.now + forced) }
        [.expired]
  | detaches (deadline : Nat) (on : l.mode = .forcing deadline) (due : deadline ≤ l.now) :
      Does clock l { l with pool := l.pool.detach, mode := .returned .incomplete }
        [.returned .incomplete]
  | drops (outcome : PoolShutdown) (on : l.mode = .returned outcome) :
      Does clock l { l with pool := l.pool.abandon }
        ((l.pool.tracked.filter l.pool.isOpen).map .aborted)

section
variable {clock : Clock} {l m : Life} {t : Turn} {d : Deed} {deeds : List Deed} {q : Pool}
  {i k : Nat} {next : TaskStatus}
  {said log : List (Nat × Deed)}

theorem act_does (h : l.act clock t = some (m, deeds)) : Does clock l m deeds := by
  cases t with
  | ask =>
    by_cases ha : l.pool.accepting = true
    · simp only [act, ha, if_true, Option.some.injEq, Prod.mk.injEq] at h
      obtain ⟨rfl, rfl⟩ := h
      exact .asks
    · simp only [act, ha, if_false, Bool.false_eq_true, Option.some.injEq] at h
      cases h
      exact .submits l.asking
  | enter =>
    simp only [act, Option.ite_none_left_eq_some, Option.some.injEq] at h
    obtain ⟨-, h⟩ := h
    cases h
    exact .submits (l.asking - 1)
  | poll i =>
    obtain ⟨pool, hp, heq⟩ := Option.map_eq_some_iff.mp h
    cases heq
    exact .polls (step_move hp)
  | finish i panicked =>
    obtain ⟨pool, hp, heq⟩ := Option.map_eq_some_iff.mp h
    cases heq
    exact .ends (step_move hp)
  | reap count =>
    cases h
    exact .reaps count
  | pass duration =>
    simp only [act, Option.ite_none_right_eq_some, Option.some.injEq, Prod.mk.injEq] at h
    obtain ⟨hstill, rfl, rfl⟩ := h
    exact .passes duration hstill
  | shutdown graceful forced =>
    simp only [act] at h
    split at h <;> cases h
    exact .calls graceful forced ‹_›
  | wait =>
    simp only [act] at h
    split at h <;> cases h
    exact .waits _ _ ‹_›
  | drained =>
    simp only [act] at h
    split at h <;> cases h
    · exact .drains _ _ ‹_› ‹_›
    · exact .drainsLate _ ‹_› ‹_›
  | expire =>
    simp only [act, Option.ite_none_left_eq_some] at h
    obtain ⟨-, h⟩ := h
    split at h
    · simp only [Option.ite_none_right_eq_some, Option.some.injEq, Prod.mk.injEq] at h
      obtain ⟨hdue, rfl, rfl⟩ := h
      exact .expires _ _ ‹_› hdue
    · simp only [Option.ite_none_right_eq_some, Option.some.injEq, Prod.mk.injEq] at h
      obtain ⟨hdue, rfl, rfl⟩ := h
      exact .detaches _ ‹_› hdue
    · cases h
  | drop =>
    simp only [act] at h
    split at h <;> cases h
    exact .drops _ ‹_›

theorem step_does (h : l.step clock t = some (m, said)) :
    ∃ deeds, Does clock l m deeds ∧ said = deeds.map (fun d => (l.now, d)) := by
  obtain ⟨⟨n, deeds⟩, hact, heq⟩ := Option.map_eq_some_iff.mp h
  cases heq
  exact ⟨deeds, act_does hact, rfl⟩

theorem mem_handedOn {p : Pool} :
    d ∈ p.handedOn ↔ ∃ i, p.queue.head? = some i ∧ d = .handed i := by
  simp [handedOn, eq_comm]

theorem forget_open {p : Pool} {i : Nat} (ho : p.isOpen i = true) (n : Nat) (tracked : List Nat)
    (h : i ∈ tracked) : i ∈ p.trackedWithout n tracked := by
  induction tracked generalizing n with
  | nil => exact absurd h List.not_mem_nil
  | cons k tracked ih =>
    cases n with
    | zero => exact h
    | succ n =>
      by_cases hk : p.isOpen k = true
      · simp only [trackedWithout, hk, if_true, List.mem_cons]
        exact (List.mem_cons.mp h).imp_right (ih (n + 1))
      · have hik : i ≠ k := fun he => hk (he ▸ ho)
        simp only [trackedWithout, hk, if_false, Bool.false_eq_true]
        exact ih n ((List.mem_cons.mp h).resolve_left hik)

theorem forget_none {p : Pool} (n : Nat) : p.trackedWithout n [] = [] := by
  cases n <;> rfl

theorem abandon_none {p : Pool} (h : p.tracked = []) : p.abandon = p := by
  rw [abandon, h]
  rfl

def Watched (p : Pool) : Prop :=
  ∀ i was, p.status i = some was → was.isOver = false → i ∈ p.tracked

theorem open_iff {p : Pool} {i : Nat} {was : TaskStatus} (h : p.status i = some was) :
    p.isOpen i = true ↔ was.isOver = false := by
  simp [isOpen, h]

theorem submit_watched {p : Pool} (h : Watched p) : Watched p.submit.1 := by
  intro i was hi ho
  have hold : p.status i = some was → i ∈ p.tracked.filter p.isOpen := fun hp =>
    List.mem_filter.mpr ⟨h i was hp ho, (open_iff hp).mpr ho⟩
  rw [submit_status] at hi
  unfold submit
  by_cases ha : p.accepting = true
  · simp only [ha, if_true] at hi ⊢
    by_cases hn : i = p.tasks.length
    · simp [hn]
    · rw [if_neg hn] at hi
      exact List.mem_append_left _ (hold hi)
  · simp only [ha, if_false, Bool.false_eq_true] at hi ⊢
    by_cases hn : i = p.tasks.length
    · rw [if_pos hn] at hi
      rw [← Option.some.inj hi] at ho
      cases ho
    · rw [if_neg hn] at hi
      exact h i was hi ho

theorem kept_watched {p q : Pool} {s : Step} (hf : Fair p) (hm : Move p s q) (hk : Kept p q)
    (h : Watched p) : Watched q := by
  intro i was hi ho
  have hlt : i < p.tasks.length := hk.length ▸ (List.getElem?_eq_some_iff.mp hi).1
  obtain ⟨old, hold⟩ : ∃ old, p.status i = some old := ⟨_, List.getElem?_eq_getElem hlt⟩
  have hopen : old.isOver = false := by
    by_cases hover : old.isOver = true
    · rw [move_over hf hm hold hover] at hi
      rw [← Option.some.inj hi, hover] at ho
      cases ho
    · simpa using hover
  rw [hk.tracked]
  exact h i old hold hopen

theorem forget_watched {p : Pool} (n : Nat) (h : Watched p) : Watched (p.forget n) := by
  intro i was hi ho
  have hi : p.status i = some was := hi
  exact forget_open ((open_iff hi).mpr ho) n p.tracked (h i was hi ho)

structure Agrees (l : Life) : Prop where
  fair : Fair l.pool
  accepting : l.pool.accepting = l.mode.isServing
  closed : l.pool.closed = l.mode.isClosed
  watched : l.mode ≠ .returned .incomplete → Watched l.pool
  empty : l.mode.isReturned = true → l.pool.tracked = []

theorem kept_agrees {q : Pool} {s : Step} (h : Agrees l) (hm : Move l.pool s q)
    (hk : Kept l.pool q) : Agrees { l with pool := q } :=
  ⟨move_fair h.fair hm, hk.accepting.trans h.accepting, hk.closed.trans h.closed,
    fun hw => kept_watched h.fair hm hk (h.watched hw), fun hr => hk.tracked.trans (h.empty hr)⟩

theorem submit_agrees (h : Agrees l) (asking : Nat) :
    Agrees { l with pool := l.pool.submit.1, asking } := by
  have hsame : l.pool.submit.1.accepting = l.pool.accepting ∧
      l.pool.submit.1.closed = l.pool.closed := by
    unfold submit
    split <;> exact ⟨rfl, rfl⟩
  refine ⟨submit_fair h.fair, hsame.1.trans h.accepting, hsame.2.trans h.closed,
    fun hw => submit_watched (h.watched hw), fun hr => ?_⟩
  have hoff : l.pool.accepting = false := by
    have hr : l.mode.isReturned = true := hr
    rw [h.accepting]
    revert hr
    cases l.mode <;> simp [Mode.isReturned, Mode.isServing]
  show l.pool.submit.1.tracked = []
  simp only [submit, hoff, Bool.false_eq_true, if_false]
  exact h.empty hr

theorem mode_agrees {mode : Mode} (h : Agrees l) (hs : mode.isServing = l.mode.isServing)
    (hc : mode.isClosed = l.mode.isClosed) (hw : l.mode ≠ .returned .incomplete)
    (he : mode.isReturned = true → l.pool.tracked = []) : Agrees { l with mode } :=
  ⟨h.fair, h.accepting.trans hs.symm, h.closed.trans hc.symm, fun _ => h.watched hw, he⟩

theorem does_agrees (h : Agrees l) (hd : Does clock l m deeds) : Agrees m := by
  cases hd with
  | asks => exact ⟨h.fair, h.accepting, h.closed, h.watched, h.empty⟩
  | submits asking => exact submit_agrees h asking
  | polls move => exact kept_agrees h move (resume_kept move)
  | ends move => exact kept_agrees h move (finish_kept move)
  | reaps count =>
    refine ⟨move_fair h.fair (.forgets count), h.accepting, h.closed,
      fun hw => forget_watched count (h.watched hw), fun hr => ?_⟩
    show l.pool.trackedWithout count l.pool.tracked = []
    rw [h.empty hr, forget_none]
  | passes duration still => exact ⟨h.fair, h.accepting, h.closed, h.watched, h.empty⟩
  | calls graceful forced on =>
    have hc : l.pool.closed = false := by rw [h.closed, on]; rfl
    exact ⟨move_fair h.fair .stops, rfl, hc, fun _ => h.watched (by rw [on]; simp), nofun⟩
  | waits graceful forced on =>
    exact mode_agrees h (by rw [on]; rfl) (by rw [on]; rfl) (by simp [on]) nofun
  | drains deadline forced on none =>
    exact mode_agrees h (by rw [on]; rfl) (by rw [on]; rfl) (by simp [on]) (fun _ => none)
  | drainsLate deadline on none =>
    exact mode_agrees h (by rw [on]; rfl) (by rw [on]; rfl) (by simp [on]) (fun _ => none)
  | expires deadline forced on due =>
    have ha : l.pool.accepting = false := by rw [h.accepting, on]; rfl
    exact ⟨move_fair h.fair .closes, ha, rfl, fun _ => h.watched (by rw [on]; simp), nofun⟩
  | detaches deadline on due =>
    have ha : l.pool.accepting = false := by rw [h.accepting, on]; rfl
    have hc : l.pool.closed = true := by rw [h.closed, on]; rfl
    -- From here on tasks that go on are not tracked.
    exact ⟨move_fair h.fair .detaches, ha, hc, fun hw => absurd rfl hw, fun _ => rfl⟩
  | drops outcome on =>
    rw [abandon_none (h.empty (by rw [on]; rfl))]
    exact h

theorem does_limit (h : Agrees l) (hd : Does clock l m deeds) : m.pool.limit = l.pool.limit := by
  cases hd with
  | submits => exact move_limit .submits
  | polls move => exact move_limit move
  | ends move => exact move_limit move
  | drops outcome on =>
    rw [abandon_none (h.empty (by rw [on]; rfl))]
  | _ => rfl

theorem begin_agrees {limit : Nat} {p : Pool} (hp : make limit = .ok p) : Agrees (begin p) := by
  refine ⟨make_fair hp, ?_, ?_, fun _ i was hi => ?_, nofun⟩
  · rw [begin, make_eq hp]
    rfl
  · rw [begin, make_eq hp]
    rfl
  · rw [begin, make_eq hp] at hi
    simp [status] at hi

theorem polled_status (h : q.status k = some next) : q.polled k = news k next := by
  rw [polled, h]
  rfl

theorem poll_step (hr : l.pool.resume i = some q) (hs : q.status i = some next) :
    l.step clock (.poll i) =
      some ({ l with pool := q }, (news i next).map (fun d => (l.now, d))) := by
  rw [step, act, Pool.step, hr]
  show some (({ l with pool := q } : Life), (q.polled i).map (fun d => (l.now, d))) = _
  rw [polled_status hs]

theorem finish_step (hf : l.pool.finish i = some q) (panicked : Bool) :
    l.step clock (.finish i panicked) = some ({ l with pool := q },
      (l.now, .ended i panicked) :: l.pool.handedOn.map (fun d => (l.now, d))) := by
  rw [step, act, Pool.step, hf]
  rfl

/-- What holds of a new pool and is kept by each turn of a pool as far as its shutdown holds
after every run. -/
theorem run_holds {limit : Nat} {p : Pool} {turns : List Turn}
    {P : Life → List (Nat × Deed) → Prop} (hp : make limit = .ok p)
    (h : runAll (step clock) turns (begin p) = some (l, log)) (hbegin : P (begin p) [])
    (hstep : ∀ l log m deeds, Agrees l → l.pool.limit = limit → Does clock l m deeds →
      P l log → P m (log ++ deeds.map (fun d => (l.now, d)))) :
    P l log ∧ Agrees l ∧ l.pool.limit = limit := by
  refine run_invariant (P := fun _ l log => P l log ∧ Agrees l ∧ l.pool.limit = limit) ?_
    ⟨hbegin, begin_agrees hp, by rw [begin, make_eq hp]⟩ h
  rintro - l log t m said ⟨hl, ha, hlimit⟩ hs
  obtain ⟨deeds, hd, rfl⟩ := step_does hs
  exact ⟨hstep l log m deeds ha hlimit hd hl, does_agrees ha hd, (does_limit ha hd).trans hlimit⟩

end
end Life
end Wiretap.Pool
