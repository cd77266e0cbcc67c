import Mathlib.Data.List.Perm.Subperm
import Wiretap.Proofs.Pool.Readiness

/-!
# Schedules as lives of a pool

A drain ends when no task is left or its deadline has come. So whatever the user
of a schedule does, one operation after another and with one shutdown, is a life
of the pool in which time waits for the tasks.
-/

set_option autoImplicit false

namespace Wiretap.Pool.Schedule

structure Running (s : Schedule) : Prop extends Steady s where
  prompt : Prompt s
  effort : s.effort ≤ 4 * s.plans.length

structure Spent (s t : Schedule) : Prop where
  running : Running t
  now : t.now = s.now
  plans : t.plans = s.plans
  tracked : t.pool.tracked = s.pool.tracked
  lives : ∀ mode, Lives (s.life mode) (t.life mode)

def noted (s : Schedule) : Schedule :=
  let ended := min s.budget (s.pool.tracked.length - s.pool.active)
  { s.withPool (·.forget ended) with budget := s.budget - ended }

def drainage (s : Schedule) (deadline : Nat) : Nat :=
  if s.budget = 0 then 2 * s.pool.tracked.length + 2
  else if s.pool.active < s.pool.tracked.length ∨ deadline ≤ s.now then
    2 * s.pool.tracked.length
  else 2 * s.pool.tracked.length + 1

structure Drained (s t : Schedule) (deadline : Nat) (drained : Bool) : Prop where
  running : Running t
  plans : t.plans = s.plans
  lives : ∀ mode, Lives (s.life mode) (t.life mode)
  none : drained = true → t.pool.tracked = []
  left : drained = false → t.pool.tracked ≠ [] ∧ deadline ≤ t.now

def entered (s : Schedule) (plan : Plan) : Schedule :=
  let record : Record := ⟨none, none, if s.pool.submit.2 then none else some s.now⟩
  { s with
    pool := s.pool.submit.1
    plans := s.plans ++ [plan]
    records := s.records ++ [record]
    ready := if s.pool.submit.2 then s.ready ++ [s.plans.length] else s.ready }

def closing (s : Schedule) : Schedule :=
  { s.withPool closePermits with ready := s.ready ++ s.pool.queue }

def force (s : Schedule) (forced : Nat) : Schedule × PoolShutdown :=
  let (s, drained) := s.closing.drain forced
  if drained then (s, .forced) else (s.withPool detach, .incomplete)

inductive Use where
  | submit (plan : Plan)
  | sleep (duration : Nat)
  | active

def use (s : Schedule) : Use → Schedule
  | .submit plan => (s.submit plan).1
  | .sleep duration => s.sleep duration
  | .active => s.active.2

section
variable {s t u : Schedule} {p : Pool} {n deadline fuel : Nat}

theorem turn_running (h : Running s) (n : Nat) : Running { s with budget := n } :=
  ⟨⟨h.fair, h.plans, h.records, h.tracked⟩, h.prompt, h.effort⟩

theorem pass_spent (h : Running s) : Spent s s.pass := by
  obtain ⟨hw, hprompt⟩ := round_later h.toSteady h.prompt roundLength
  have hround : Running (s.round roundLength) :=
    ⟨hw.steady, hprompt, by rw [hw.plans]; exact Nat.le_trans hw.effort h.effort⟩
  exact ⟨turn_running hround turnLength, hw.now, hw.plans, hw.tracked, hw.lives⟩

theorem spend_spent (h : Running s) : Spent s s.spend := by
  unfold spend
  by_cases hb : s.budget = 0
  · rw [if_pos hb]
    have hp := pass_spent h
    exact ⟨turn_running hp.running _, hp.now, hp.plans, hp.tracked, hp.lives⟩
  · rw [if_neg hb]
    exact ⟨turn_running h _, rfl, rfl, rfl, fun mode => lives_refl _⟩

theorem wait_ends {alarm : Nat} (h : Running s) (ha : s.now < alarm) (awaited : Pool → Bool) :
    Waited s (s.wait awaited alarm) alarm ∧
      (awaited (s.wait awaited alarm).pool = true ∨ (s.wait awaited alarm).now = alarm) := by
  have heffort := h.effort
  exact waitFrom_ends h.toSteady h.prompt ha (by omega)

theorem waited_running {alarm : Nat} (h : Running s) (hw : Waited s t alarm) : Running t :=
  ⟨hw.steady, hw.prompt, by rw [hw.plans]; exact Nat.le_trans hw.effort h.effort⟩

theorem without_length (p : Pool) (n : Nat) (tracked : List Nat) :
    (p.trackedWithout n tracked).length =
      tracked.length - min n (tracked.length - tracked.countP p.isOpen) := by
  induction tracked generalizing n with
  | nil => cases n <;> simp [trackedWithout]
  | cons i tracked ih =>
    have hle : tracked.countP p.isOpen ≤ tracked.length := List.countP_le_length
    cases n with
    | zero => simp [trackedWithout]
    | succ n =>
      by_cases hi : p.isOpen i = true
      · simp only [trackedWithout, hi, if_true, List.length_cons, ih, List.countP_cons_of_pos]
        omega
      · simp only [trackedWithout, hi, if_false, Bool.false_eq_true, ih, List.length_cons,
          not_false_eq_true, List.countP_cons_of_neg]
        omega

theorem forget_running (h : Running s) (n : Nat) : Running (s.withPool (·.forget n)) := by
  have hlength := without_length s.pool n s.pool.tracked
  refine ⟨⟨move_fair h.fair (.forgets n), h.plans, h.records, ?_⟩, fun i hi => ?_, h.effort⟩
  · have htracked := h.tracked
    show (s.pool.trackedWithout _ s.pool.tracked).length ≤ s.pool.tasks.length
    omega
  · exact h.prompt i (goes_same (t := s.withPool (·.forget n)) (s := s) rfl rfl
      (due_same rfl rfl rfl) rfl hi)

theorem forget_lives (s : Schedule) (n : Nat) (mode : Mode) :
    Lives (s.life mode) ((s.withPool (·.forget n)).life mode) := by
  have hreap : (s.life mode).step .prompt (.reap n) =
      some ((s.withPool (·.forget n)).life mode, []) := rfl
  exact lives_step hreap

theorem noted_running (h : Running s) : Running s.noted :=
  turn_running (forget_running h _) _

theorem noted_lives (s : Schedule) (mode : Mode) : Lives (s.life mode) (s.noted.life mode) :=
  forget_lives s _ mode

theorem noted_length (s : Schedule) : s.noted.pool.tracked.length =
    s.pool.tracked.length - min s.budget (s.pool.tracked.length - s.pool.active) := by
  have hlength := without_length s.pool
    (min s.budget (s.pool.tracked.length - s.pool.active)) s.pool.tracked
  have hactive : s.pool.tracked.countP s.pool.isOpen = s.pool.active := rfl
  show (s.pool.trackedWithout _ s.pool.tracked).length = _
  omega

theorem drainFrom_succ (s : Schedule) (deadline fuel : Nat) :
    s.drainFrom deadline (fuel + 1) =
      if s.noted.pool.tracked.isEmpty then (s.noted, true)
      else if 0 < s.budget ∧ deadline ≤ s.now then
        ({ s.noted with budget := s.noted.budget - 1 }, false)
      else if s.noted.budget = 0 then s.noted.pass.drainFrom deadline fuel
      else (s.noted.wait (fun p => p.active < p.tracked.length) deadline).drainFrom
        deadline fuel := rfl

theorem drainage_le (hb : s.budget ≠ 0) :
    s.drainage deadline ≤ 2 * s.pool.tracked.length + 1 := by
  rw [drainage, if_neg hb]
  split <;> omega

theorem drainage_waited (hb : s.budget ≠ 0) (deadline : Nat)
    (h : s.pool.active < s.pool.tracked.length ∨ deadline ≤ s.now) :
    s.drainage deadline = 2 * s.pool.tracked.length := by
  rw [drainage, if_neg hb, if_pos h]

theorem drainage_pass (deadline : Nat) (hturn : s.noted.budget = 0)
    (hp : Spent s.noted s.noted.pass) :
    s.noted.pass.drainage deadline < s.drainage deadline := by
  have hlength := noted_length s
  have hbudget : s.noted.budget =
    s.budget - min s.budget (s.pool.tracked.length - s.pool.active) := rfl
  have hle : s.noted.pass.drainage deadline ≤ 2 * s.noted.pass.pool.tracked.length + 1 :=
    drainage_le (by decide : turnLength ≠ 0)
  rw [hp.tracked] at hle
  by_cases hb : s.budget = 0
  · rw [hb, Nat.zero_min] at hlength
    have hs : s.drainage deadline = 2 * s.pool.tracked.length + 2 := by rw [drainage, if_pos hb]
    omega
  · have hs := drainage_waited hb deadline (.inl (by omega))
    omega

theorem drainage_wait (hnow : s.now < deadline) (hturn : s.noted.budget ≠ 0) (hb : t.budget ≠ 0)
    (htracked : t.pool.tracked = s.noted.pool.tracked)
    (hend : t.pool.active < t.pool.tracked.length ∨ deadline ≤ t.now) :
    t.drainage deadline < s.drainage deadline := by
  have hlength := noted_length s
  have hbudget : s.noted.budget =
    s.budget - min s.budget (s.pool.tracked.length - s.pool.active) := rfl
  have hone : s.budget ≠ 0 := by omega
  rw [drainage_waited hb deadline hend, htracked, drainage, if_neg hone]
  split <;> omega

/-- A drain with enough fuel ends when no task is left, or at its deadline. -/
theorem drainFrom_ends {drained : Bool} (h : Running s) (hf : s.drainage deadline < fuel)
    (hd : s.drainFrom deadline fuel = (t, drained)) : Drained s t deadline drained := by
  -- A pass and a wait both lower the drainage.
  induction fuel generalizing s with
  | zero => omega
  | succ fuel ih =>
    have hnoted := noted_running h
    have hlength := noted_length s
    rw [drainFrom_succ] at hd
    by_cases hempty : s.noted.pool.tracked = []
    · simp only [hempty, List.isEmpty_nil, if_true, Prod.mk.injEq] at hd
      obtain ⟨rfl, rfl⟩ := hd
      exact ⟨hnoted, rfl, noted_lives s, fun _ => hempty, nofun⟩
    have hsome : s.noted.pool.tracked.isEmpty = false := by simpa using hempty
    by_cases hdue : 0 < s.budget ∧ deadline ≤ s.now
    · simp only [hsome, hdue, Bool.false_eq_true, if_false, and_self, if_true,
        Prod.mk.injEq] at hd
      obtain ⟨rfl, rfl⟩ := hd
      exact ⟨turn_running hnoted _, rfl, noted_lives s, nofun, fun _ => ⟨hempty, hdue.2⟩⟩
    simp only [hsome, hdue, Bool.false_eq_true, if_false] at hd
    by_cases hturn : s.noted.budget = 0
    · have hp := pass_spent hnoted
      have hless := drainage_pass deadline hturn hp
      rw [if_pos hturn] at hd
      have hrest := ih hp.running (by omega) hd
      exact ⟨hrest.running, hrest.plans.trans hp.plans, fun mode =>
        lives_trans (lives_trans (noted_lives s mode) (hp.lives mode)) (hrest.lives mode),
        hrest.none, hrest.left⟩
    · have hbudget : s.noted.budget ≤ s.budget := Nat.sub_le _ _
      have hnow : s.now < deadline := by omega
      have hbefore : s.noted.now < deadline := hnow
      rw [if_neg hturn] at hd
      obtain ⟨hw, hend⟩ := wait_ends hnoted hbefore (fun p => p.active < p.tracked.length)
      have hless := drainage_wait hnow hturn (by rw [hw.budget]; decide) hw.tracked
        (hend.imp of_decide_eq_true fun he => Nat.le_of_eq he.symm)
      have hrest := ih (waited_running hnoted hw) (by omega) hd
      exact ⟨hrest.running, hrest.plans.trans hw.plans, fun mode =>
        lives_trans (lives_trans (noted_lives s mode) (hw.lives mode)) (hrest.lives mode),
        hrest.none, hrest.left⟩

theorem drain_ends {duration : Nat} {drained : Bool} (h : Running s)
    (hd : s.drain duration = (t, drained)) : Drained s t (s.now + duration) drained := by
  have htracked := h.tracked
  have hplans := h.plans
  have hle : s.drainage (s.now + duration) ≤ 2 * s.pool.tracked.length + 2 := by
    unfold drainage
    split
    · omega
    · split <;> omega
  exact drainFrom_ends h (by omega) hd

theorem entered_due {plan : Plan} {i : Nat} (h : Running s) (hi : i ≠ s.plans.length) :
    (s.entered plan).due i = s.due i := by
  have hstatus : (s.entered plan).pool.status i = s.pool.status i := by
    show s.pool.submit.1.status i = _
    rw [submit_status, if_neg (h.plans ▸ hi)]
  by_cases hlt : i < s.plans.length
  · have hrecord : i < s.records.length := by rw [h.records, ← h.plans]; exact hlt
    exact due_same hstatus (List.getElem?_append_left hrecord) (List.getElem?_append_left hlt)
  · have hnone : s.pool.status i = none :=
      List.getElem?_eq_none_iff.mpr (by rw [← h.plans]; omega)
    simp [due, hstatus, hnone]

theorem entered_other {plan : Plan} {i : Nat} (h : Running s) (hi : i ≠ s.plans.length) :
    (s.entered plan).pool.status i = s.pool.status i := by
  show s.pool.submit.1.status i = _
  rw [submit_status, if_neg (h.plans ▸ hi)]

theorem entered_prompt (h : Running s) (plan : Plan) : Prompt (s.entered plan) := by
  intro i hi
  have hready : s.ready ⊆ (s.entered plan).ready := by
    unfold entered
    by_cases ha : s.pool.submit.2 = true <;> simp [ha]
  by_cases hnew : i = s.plans.length
  · have hstatus : (s.entered plan).pool.status i =
        some (if s.pool.accepting then .submitted else .rejected) := by
      show s.pool.submit.1.status i = _
      rw [submit_status, if_pos (hnew.trans h.plans)]
    by_cases ha : s.pool.accepting = true
    · simp [entered, submit_accepts, ha, hnew]
    · rcases hi with hres | ⟨d, hd, -⟩
      · simp [resume_isSome, hstatus, ha, TaskStatus.goesOn] at hres
      · rw [due_running hd] at hstatus
        simp [ha] at hstatus
  · have hclosed : (s.entered plan).pool.closed = s.pool.closed := (submit_rest s.pool).1
    exact hready (h.prompt i (goes_same (entered_other h hnew) hclosed (entered_due h hnew) rfl hi))

theorem entered_effort (h : Running s) (plan : Plan) :
    (s.entered plan).effort ≤ s.effort + 4 := by
  have hplans : (s.entered plan).plans.length = s.plans.length + 1 := by simp [entered]
  have hclosed : (s.entered plan).pool.closed = s.pool.closed := (submit_rest s.pool).1
  have hready : (s.entered plan).ready.length ≤ s.ready.length + 1 := by
    unfold entered
    by_cases ha : s.pool.submit.2 = true <;> simp [ha]
  have hold : (List.range s.plans.length).map (s.entered plan).weight =
      (List.range s.plans.length).map s.weight := by
    refine List.map_congr_left fun i hi => ?_
    have hne : i ≠ s.plans.length := Nat.ne_of_lt (List.mem_range.mp hi)
    exact weight_same (entered_other h hne) hclosed (entered_due h hne) rfl
  have hnew : (s.entered plan).weight s.plans.length ≤ 3 := by
    unfold weight
    cases (s.entered plan).pool.status s.plans.length with
    | none => exact Nat.zero_le _
    | some was => exact TaskStatus.weight_le _ _ was
  simp only [effort, hplans, List.range_succ, List.map_append, List.sum_append, hold,
    List.map_singleton, List.sum_singleton]
  omega

theorem entered_running (h : Running s) (plan : Plan) : Running (s.entered plan) := by
  have hplans : (s.entered plan).plans.length = s.plans.length + 1 := by simp [entered]
  have heffort := entered_effort h plan
  have hbound := h.effort
  have htracked := submit_tracked s.pool
  have hwas := h.tracked
  refine ⟨⟨submit_fair h.fair, ?_, ?_, ?_⟩, entered_prompt h plan, by omega⟩
  · rw [hplans, h.plans]
    exact (submit_length s.pool).symm
  · show (s.records ++ [_]).length = s.pool.submit.1.tasks.length
    rw [List.length_append, h.records, submit_length]
    rfl
  · show s.pool.submit.1.tracked.length ≤ s.pool.submit.1.tasks.length
    rw [submit_length]
    omega

/-- A submission that finds the pool accepting waits for the lock, and enters at once. -/
theorem entered_lives {mode : Mode} (hm : mode.isLocked = false) (plan : Plan) :
    Lives (s.life mode) ((s.entered plan).life mode) := by
  by_cases ha : s.pool.accepting = true
  · have hask : (s.life mode).step .prompt .ask = some (⟨s.now, s.pool, mode, 1⟩, []) := by
      simp [Life.step, Life.act, life, ha]
    have henter : (⟨s.now, s.pool, mode, 1⟩ : Life).step .prompt .enter =
        some ((s.entered plan).life mode, []) := by
      simp [Life.step, Life.act, Life.resolve, life, entered, hm, submit_accepts, ha]
    exact lives_trans (lives_step hask) (lives_step henter)
  · have hask : (s.life mode).step .prompt .ask =
        some ((s.entered plan).life mode, [(s.now, .rejected s.pool.tasks.length)]) := by
      simp [Life.step, Life.act, Life.resolve, life, entered, ha, submit_accepts]
    exact lives_step hask

theorem sleep_lives (h : Running s) (duration : Nat) (mode : Mode) :
    Running (s.sleep duration) ∧ Lives (s.life mode) ((s.sleep duration).life mode) := by
  have hturn : ∃ t, t = (if s.budget = 0 then s.pass else s) ∧ Running t ∧
      Lives (s.life mode) (t.life mode) := by
    by_cases hb : s.budget = 0
    · have hp := pass_spent h
      exact ⟨_, rfl, by rw [if_pos hb]; exact ⟨hp.running, hp.lives mode⟩⟩
    · exact ⟨_, rfl, by rw [if_neg hb]; exact ⟨h, lives_refl _⟩⟩
  obtain ⟨t, ht, hrunning, hlives⟩ := hturn
  simp only [sleep, ← ht]
  by_cases hlt : t.now < s.now + duration
  · obtain ⟨hw, -⟩ := wait_ends hrunning hlt (fun _ => false)
    have hp := spend_spent (waited_running hrunning hw)
    rw [if_pos hlt]
    exact ⟨hp.running, lives_trans hlives (lives_trans (hw.lives mode) (hp.lives mode))⟩
  · have hp := spend_spent hrunning
    rw [if_neg hlt]
    exact ⟨hp.running, lives_trans hlives (hp.lives mode)⟩

theorem use_lives {mode : Mode} (h : Running s) (hm : mode.isLocked = false) (use : Use) :
    Running (s.use use) ∧ Lives (s.life mode) ((s.use use).life mode) := by
  cases use with
  | submit plan =>
    by_cases ha : s.pool.accepting = true
    · have hp := spend_spent h
      have heq : s.use (.submit plan) = s.spend.entered plan := by
        simp only [Schedule.use, Schedule.submit, ha, if_true]
        rfl
      rw [heq]
      exact ⟨entered_running hp.running plan, lives_trans (hp.lives mode) (entered_lives hm plan)⟩
    · have heq : s.use (.submit plan) = s.entered plan := by
        simp only [Schedule.use, Schedule.submit, ha, if_false, Bool.false_eq_true]
        rfl
      rw [heq]
      exact ⟨entered_running h plan, entered_lives hm plan⟩
  | sleep duration => exact sleep_lives h duration mode
  | active =>
    have hp := spend_spent h
    exact ⟨forget_running hp.running _, lives_trans (hp.lives mode) (forget_lives _ _ mode)⟩

theorem queue_length (h : Orderly p) (hn : p.tasks.length = n) :
    p.queue.length ≤ ((List.range n).filter p.queue.contains).length := by
  refine (List.subperm_of_subset h.nodup fun i hi => ?_).length_le
  have hlt := (List.getElem?_eq_some_iff.mp (h.queued i hi)).1
  exact List.mem_filter.mpr ⟨List.mem_range.mpr (hn ▸ hlt), by simpa using hi⟩

theorem closing_prompt (h : Running s) : Prompt s.closing := by
  intro i hi
  have hdue : s.closing.due i = s.due i := due_same rfl rfl rfl
  rcases hi with hres | hend
  · rw [resume_isSome] at hres
    have hstatus : s.closing.pool.status i = s.pool.status i := rfl
    cases hs : s.pool.status i with
    | none => simp [hstatus, hs] at hres
    | some was =>
      have hgo : was.goesOn s.closing.pool.closed = true := by simpa [hstatus, hs] using hres
      have hgo : was.goesOn true = true := hgo
      by_cases hsame : was.goesOn s.pool.closed = true
      · have hready : (s.pool.resume i).isSome = true := by simp [resume_isSome, hs, hsame]
        exact List.mem_append_left _ (h.prompt i (.inl hready))
      · have hqueued : was = .queued := by cases was <;> simp_all [TaskStatus.goesOn]
        have hopen : s.pool.closed = false := by simpa [hqueued, TaskStatus.goesOn] using hsame
        exact List.mem_append_right _ (h.fair.waits hopen i (hqueued ▸ hs))
  · rw [hdue] at hend
    exact List.mem_append_left _ (h.prompt i (.inr hend))

/-- What becomes ready when the permits are closed was counted for the tasks that waited. -/
theorem closing_effort (h : Running s) : s.closing.effort ≤ s.effort := by
  have hqueue := queue_length h.fair.toOrderly h.plans.symm
  have hsum := sum_le (l := List.range s.plans.length) (f := s.closing.weight) (g := s.weight)
    (c := fun i => if s.pool.queue.contains i then 3 else 0) (fun i _ => ?_)
  · have hready : s.closing.ready.length = s.ready.length + s.pool.queue.length := by
      simp [closing, withPool]
    have hplans : s.closing.plans = s.plans := rfl
    rw [sum_indicator] at hsum
    rw [effort, effort, hready, hplans]
    omega
  · have hdue : s.closing.isLater i = s.isLater i := rfl
    have hclosed : s.closing.pool.closed = true := rfl
    have hstatus : s.closing.pool.status i = s.pool.status i := rfl
    by_cases hi : i ∈ s.pool.queue
    · have hs := h.fair.queued i hi
      have hopen : s.pool.closed = false := by
        by_cases hc : s.pool.closed = true
        · simp [h.fair.closed hc] at hi
        · simpa using hc
      simp [weight, hstatus, hclosed, hs, hi, hopen, TaskStatus.weight]
    · simp only [weight, hstatus, hclosed, hdue, List.contains_iff_mem, hi, if_false, Nat.add_zero]
      cases s.pool.status i with
      | none => exact Nat.le_refl _
      | some was =>
        cases was with
        | queued => exact Nat.zero_le _
        | _ => exact Nat.le_refl _

theorem closing_running (h : Running s) : Running s.closing :=
  ⟨⟨move_fair h.fair .closes, h.plans, h.records, h.tracked⟩, closing_prompt h,
    Nat.le_trans (closing_effort h) h.effort⟩

theorem withPool_prompt {f : Pool → Pool} (h : Prompt s)
    (hs : ∀ i, (f s.pool).status i = s.pool.status i)
    (hc : (f s.pool).closed = s.pool.closed) : Prompt (s.withPool f) := fun i hi =>
  h i (goes_same (t := s.withPool f) (s := s) (hs i) hc
    (due_same (t := s.withPool f) (s := s) (hs i) rfl rfl) rfl hi)

theorem expire_lives {deadline forced : Nat} (hleft : s.pool.tracked ≠ [])
    (hdue : deadline ≤ s.now) : Lives (s.life (.waiting deadline forced))
      (s.closing.life (.forcing (s.now + forced))) := by
  have hstep : (s.life (.waiting deadline forced)).step .prompt .expire =
      some (s.closing.life (.forcing (s.now + forced)), [(s.now, .expired)]) := by
    simp [Life.step, Life.act, life, hleft, hdue, closing, withPool]
  exact lives_step hstep

theorem detach_lives {deadline : Nat} (hleft : s.pool.tracked ≠ []) (hdue : deadline ≤ s.now) :
    Lives (s.life (.forcing deadline))
      ((s.withPool detach).life (.returned .incomplete)) := by
  have hstep : (s.life (.forcing deadline)).step .prompt .expire =
      some ((s.withPool detach).life (.returned .incomplete),
        [(s.now, .returned .incomplete)]) := by
    simp [Life.step, Life.act, life, hleft, hdue, withPool]
  exact lives_step hstep

theorem stopping_running (h : Running s) : Running (s.withPool stopAccepting) :=
  ⟨⟨move_fair h.fair .stops, h.plans, h.records, h.tracked⟩,
    withPool_prompt h.prompt (fun _ => rfl) rfl, h.effort⟩

theorem wait_lives (h : Running s) (graceful forced : Nat) :
    Lives (s.life .serving) ((s.withPool stopAccepting).spend.life
      (.waiting ((s.withPool stopAccepting).spend.now + graceful) forced)) := by
  have hcall : (s.life .serving).step .prompt (.shutdown graceful forced) =
      some ((s.withPool stopAccepting).life (.called graceful forced), [(s.now, .closing)]) := rfl
  have hwait : ∀ t : Schedule, (t.life (.called graceful forced)).step .prompt .wait =
      some (t.life (.waiting (t.now + graceful) forced), [(t.now, .awaits (t.now + graceful))]) :=
    fun _ => rfl
  exact lives_trans (lives_step hcall)
    (lives_trans ((spend_spent (stopping_running h)).lives _) (lives_step (hwait _)))

theorem detached_running (h : Running s) : Running (s.withPool detach) :=
  ⟨⟨move_fair h.fair .detaches, h.plans, h.records, Nat.zero_le _⟩,
    withPool_prompt h.prompt (fun _ => rfl) rfl, h.effort⟩

theorem force_lives {deadline : Nat} (h : Running s) (hleft : s.pool.tracked ≠ [])
    (hdue : deadline ≤ s.now) (forced : Nat) :
    Running (s.force forced).1 ∧ Lives (s.life (.waiting deadline forced))
      ((s.force forced).1.life (.returned (s.force forced).2)) := by
  have hexpired : Lives (s.life (.waiting deadline forced))
      (s.closing.life (.forcing (s.now + forced))) := expire_lives hleft hdue
  cases hdrain : s.closing.drain forced with
  | mk t drained =>
    have hd := drain_ends (closing_running h) hdrain
    have hlives := lives_trans hexpired (hd.lives _)
    simp only [force, hdrain]
    cases drained with
    | true =>
      have hdrained : (t.life (.forcing (s.now + forced))).step .prompt .drained =
          some (t.life (.returned .forced), [(t.now, .returned .forced)]) := by
        simp [Life.step, Life.act, life, hd.none rfl]
      exact ⟨hd.running, lives_trans hlives (lives_step hdrained)⟩
    | false =>
      obtain ⟨hleft, hdue⟩ := hd.left rfl
      exact ⟨detached_running hd.running, lives_trans hlives (detach_lives hleft hdue)⟩

theorem shutdown_eq (s : Schedule) (graceful forced : Nat) : s.shutdown graceful forced =
    let (t, drained) := (s.withPool stopAccepting).spend.drain graceful
    if drained then (t, .graceful) else t.force forced := by
  rfl

/-- A shutdown goes through its stages and returns. -/
theorem shutdown_lives (h : Running s) (graceful forced : Nat) :
    Running (s.shutdown graceful forced).1 ∧ Lives (s.life .serving)
      ((s.shutdown graceful forced).1.life (.returned (s.shutdown graceful forced).2)) := by
  have hwait := wait_lives h graceful forced
  have hrunning := (spend_spent (stopping_running h)).running
  rw [shutdown_eq]
  generalize (s.withPool stopAccepting).spend = w at hwait hrunning
  cases hdrain : w.drain graceful with
  | mk t drained =>
    have hd := drain_ends hrunning hdrain
    have hlives := lives_trans hwait (hd.lives _)
    cases drained with
    | true =>
      have hdrained : (t.life (.waiting (w.now + graceful) forced)).step .prompt .drained =
          some (t.life (.returned .graceful), [(t.now, .returned .graceful)]) := by
        simp [Life.step, Life.act, life, hd.none rfl]
      exact ⟨hd.running, lives_trans hlives (lives_step hdrained)⟩
    | false =>
      obtain ⟨hleft, hdue⟩ := hd.left rfl
      obtain ⟨hforced, hrest⟩ := force_lives hd.running hleft hdue forced
      exact ⟨hforced, lives_trans hlives hrest⟩

theorem uses_lives (mode : Mode) (h : Running s) (hm : mode.isLocked = false) (uses : List Use) :
    Running (uses.foldl use s) ∧ Lives (s.life mode) ((uses.foldl use s).life mode) := by
  induction uses generalizing s with
  | nil => exact ⟨h, lives_refl _⟩
  | cons use uses ih =>
    obtain ⟨hused, hlives⟩ := use_lives h hm use
    obtain ⟨hrest, hmore⟩ := ih hused
    exact ⟨hrest, lives_trans hlives hmore⟩

theorem begin_running {limit : Nat} (hp : make limit = .ok p) : Running (begin p) := by
  have htasks : p.tasks = [] := by rw [make_eq hp]
  have htracked : p.tracked = [] := by rw [make_eq hp]
  refine ⟨⟨make_fair hp, by simp [begin, htasks], by simp [begin, htasks],
    by simp [begin, htasks, htracked]⟩, fun i hi => ?_, Nat.le_refl _⟩
  have hnone : (begin p).pool.status i = none := by simp [begin, status, htasks]
  rcases hi with hres | ⟨d, hd, -⟩
  · simp [resume_isSome, hnone] at hres
  · rw [due_running hd] at hnone
    cases hnone

end

/-- Whatever the user does, before and after it shuts the pool down: it is a life of the pool in
which time waits for the tasks, and the shutdown returns. -/
theorem schedule_lives {limit : Nat} {p : Pool} (hp : make limit = .ok p) (before after : List Use)
    (graceful forced : Nat) :
    Lives (Life.begin p) ((before.foldl use (begin p)).life .serving) ∧
    Lives (Life.begin p)
      ((after.foldl use ((before.foldl use (begin p)).shutdown graceful forced).1).life
        (.returned ((before.foldl use (begin p)).shutdown graceful forced).2)) := by
  obtain ⟨hrunning, hbefore⟩ := uses_lives .serving (begin_running hp) rfl before
  obtain ⟨hshut, hreturn⟩ := shutdown_lives hrunning graceful forced
  obtain ⟨-, hafter⟩ := uses_lives (.returned _) hshut rfl after
  exact ⟨hbefore, lives_trans hbefore (lives_trans hreturn hafter)⟩

end Wiretap.Pool.Schedule
