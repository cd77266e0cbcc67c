import Wiretap.Proofs.Pool.Drains

/-!
# What a shutdown comes to

A pool is used for a while, one operation after another, and then shut down. Which of
its three outcomes the shutdown has, when it returns and what becomes of each task
can be read off the greedy timetable of the tasks that were submitted, and the limit.
-/

set_option autoImplicit false

namespace Wiretap.Pool.Schedule

def Use.duration : Use → Nat
  | .sleep duration => duration
  | _ => 0

def Use.jobs (now : Nat) : Use → List Job
  | .submit plan => [⟨now, plan.length⟩]
  | _ => []

def jobsFrom : Nat → List Use → List Job
  | _, [] => []
  | now, use :: uses => use.jobs now ++ jobsFrom (now + use.duration) uses

def elapsed (uses : List Use) : Nat := (uses.map Use.duration).sum

structure Untied (spans : List Span) (soft hard : Nat) : Prop where
  begun : ∀ span ∈ spans, span.begun ≠ some soft
  ended : ∀ span ∈ spans, span.ended ≠ some soft
  last : ∀ span ∈ relevant (some soft) spans, span.ended ≠ some hard

/-- What a shutdown comes to that begins to wait at a moment and waits for the two deadlines, when
so many tasks are tracked and the turn of its caller has room for so many notes. -/
structure Concludes (spans : List Span) (called soft hard tracked room : Nat) (t : Schedule)
    (outcome : PoolShutdown) : Prop where
  -- Without any time for the graceful wait, all notes have to be taken in one turn.
  graceful : outcome = .graceful ↔ AllOver spans soft ∧ (soft = called → tracked ≤ room)
  onTime : outcome = .graceful → t.now = lastEnd called spans
  forced : outcome ≠ .graceful → (outcome = .forced ↔ AllOver (relevant (some soft) spans) hard ∧
    (hard = soft → AllOver spans soft → tracked ≤ room + turnLength))
  late : outcome = .forced → t.now = lastEnd soft (relevant (some soft) spans)
  -- Exactly the tasks that began by the first deadline and are not over run on.
  incomplete : outcome = .incomplete → t.now = hard ∧ ∀ i, t.pool.status i = some .running ↔
    ∃ span, spans[i]? = some span ∧ span.hasBegun soft = true ∧ span.isOver hard = false
  bound : called ≤ t.now ∧ t.now ≤ hard
  ran : ∀ (i : Nat) (span : Span), spans[i]? = some span → span.hasBegun soft = true →
    ∃ record, t.records[i]? = some record ∧ record.started = span.begun ∧
      (span.isOver t.now = true → record.ended = span.ended)
  -- A task that did not begin by the first deadline never does, whatever comes later.
  dropped : outcome ≠ .graceful → ∀ (i : Nat) (span : Span), spans[i]? = some span →
    span.hasBegun soft = false → ∀ after : List Use, ∃ record,
      (after.foldl use t).records[i]? = some record ∧ record.started = none ∧
        (soft < (after.foldl use t).now → record = ⟨none, none, some soft⟩)
  rejects : ∀ (after : List Use) (plan : Plan), ((after.foldl use t).submit plan).2 = false

structure Serving (limit : Nat) (jobs : List Job) (s : Schedule) : Prop
    extends Keeps limit jobs none s where
  counted : s.plans.length = jobs.length
  tended : Tended s.pool
  accepting : s.pool.accepting = true

section
variable {limit : Nat} {jobs : List Job} {close : Option Nat} {s t : Schedule}

theorem serving_lasts (limit : Nat) (jobs : List Job) (alarm : Nat) :
    Lasting alarm (Serving limit jobs) := by
  have hkeeps := keeps_lasts limit jobs none alarm
  have hpool := pool_lasts (P := fun p => Tended p ∧ p.accepting = true)
    (fun p q _ hf hm hk h => ⟨kept_tended hf hm hk h.1, hk.accepting.trans h.2⟩)
    (fun p n h => ⟨forget_tended h.1 n, h.2⟩) alarm
  refine ⟨fun s i ready hs hp h hr => ?_, fun s hs hp h hr ha => ?_, fun s n h => ?_,
    fun s n h => ?_⟩
  · obtain ⟨htended, haccepting⟩ := hpool.goes s i ready hs hp ⟨h.tended, h.accepting⟩ hr
    obtain ⟨hw, -⟩ := popped_later hs hp hr
    exact ⟨hkeeps.goes s i ready hs hp h.toKeeps hr, by rw [hw.plans]; exact h.counted, htended,
      haccepting⟩
  · exact ⟨hkeeps.passes s hs hp h.toKeeps hr ha, h.counted, h.tended, h.accepting⟩
  · exact ⟨hkeeps.turns s n h.toKeeps, h.counted, h.tended, h.accepting⟩
  · exact ⟨hkeeps.notes s n h.toKeeps, h.counted, forget_tended h.tended n, h.accepting⟩

theorem begin_serving {p : Pool} (hp : make limit = .ok p) : Serving limit [] (begin p) := by
  refine ⟨begin_keeps hp, rfl, ⟨(Life.begin_agrees hp).watched nofun, ?_⟩, ?_⟩ <;> rw [make_eq hp]
  · nofun
  · rfl

theorem use_running (hs : Running s) (use : Use) : Running (s.use use) := by
  have hfree : Mode.serving.isLocked = false := rfl
  exact (use_lives hs hfree use).1

theorem use_serving (hs : Running s) (h : Serving limit jobs s) (use : Use) :
    Running (s.use use) ∧ Serving limit (jobs ++ use.jobs s.now) (s.use use) ∧
      (s.use use).now = s.now + use.duration := by
  have hlasts := serving_lasts limit jobs
  refine ⟨use_running hs use, ?_⟩
  cases use with
  | submit plan =>
    have hspent := spend_spent hs
    have hspend := spend_lasts (hlasts s.now) hs h
    have heq : s.use (.submit plan) = s.spend.entered plan := by
      simp only [Schedule.use, Schedule.submit, h.accepting, if_true]
      rfl
    rw [heq]
    refine ⟨⟨?_, ?_, submit_tended hspend.tended, ?_⟩, hspent.now⟩
    · have hkeeps := accepted_keeps hspent.running.toSteady hspend.toKeeps plan hspend.counted
        hspend.accepting
      rwa [hspent.now] at hkeeps
    · show (s.spend.plans ++ [plan]).length = (jobs ++ [_]).length
      rw [List.length_append, List.length_append, hspend.counted]
      rfl
    · exact (submit_accepting _).trans hspend.accepting
  | sleep duration =>
    obtain ⟨hslept, hnow⟩ := sleep_lasts (hlasts _) hs h
    exact ⟨(List.append_nil jobs).symm ▸ hslept, hnow⟩
  | active =>
    have hspend := spend_lasts (hlasts s.now) hs h
    exact ⟨(List.append_nil jobs).symm ▸ (hlasts s.now).notes _ _ hspend, (spend_spent hs).now⟩

theorem uses_serving (hs : Running s) (h : Serving limit jobs s) (uses : List Use) :
    Running (uses.foldl use s) ∧ Serving limit (jobs ++ jobsFrom s.now uses) (uses.foldl use s) ∧
      (uses.foldl use s).now = s.now + elapsed uses := by
  induction uses generalizing s jobs with
  | nil => exact ⟨hs, (List.append_nil jobs).symm ▸ h, rfl⟩
  | cons use uses ih =>
    obtain ⟨hused, hserving, hnow⟩ := use_serving hs h use
    obtain ⟨hrest, hkept, hlast⟩ := ih hused hserving
    refine ⟨hrest, ?_, ?_⟩
    · rw [List.append_assoc, hnow] at hkept
      exact hkept
    · rw [List.foldl_cons, hlast, hnow, elapsed, elapsed, List.map_cons, List.sum_cons]
      omega

/-- A pool that has been shut down keeps to the timetable of the tasks that it had. -/
theorem use_refusing (hs : Running s) (h : Keeps limit jobs close s)
    (ha : s.pool.accepting = false) (use : Use) : Running (s.use use) ∧
      Keeps limit jobs close (s.use use) ∧ (s.use use).pool.accepting = false := by
  have hlasts : ∀ alarm, Lasting alarm fun s =>
      Keeps limit jobs close s ∧ s.pool.accepting = false := fun alarm =>
    lasting_and (keeps_lasts limit jobs close alarm)
      (pool_lasts (P := fun p => p.accepting = false)
        (fun _ _ _ _ _ hk hp => hk.accepting.trans hp) (fun _ _ hp => hp) alarm)
  refine ⟨use_running hs use, ?_⟩
  cases use with
  | submit plan =>
    have heq : s.use (.submit plan) = s.entered plan := by
      simp only [Schedule.use, Schedule.submit, ha, if_false, Bool.false_eq_true]
      rfl
    rw [heq]
    exact ⟨rejected_keeps hs.toSteady h plan ha, (submit_accepting _).trans ha⟩
  | sleep duration => exact (sleep_lasts (hlasts _) hs ⟨h, ha⟩).1
  | active => exact (hlasts s.now).notes _ _ (spend_lasts (hlasts s.now) hs ⟨h, ha⟩)

theorem uses_refusing (hs : Running s) (h : Keeps limit jobs close s)
    (ha : s.pool.accepting = false) (uses : List Use) :
    Keeps limit jobs close (uses.foldl use s) ∧ (uses.foldl use s).pool.accepting = false := by
  induction uses generalizing s with
  | nil => exact ⟨h, ha⟩
  | cons use uses ih =>
    obtain ⟨hused, hkept, hoff⟩ := use_refusing hs h ha use
    exact ih hused hkept hoff

theorem begun_status {soft i : Nat} {span : Span} (h : Keeps limit jobs (some soft) t)
    (hb : ∀ span ∈ timetable limit jobs, span.begun ≠ some soft)
    (hspan : (timetable limit jobs)[i]? = some span) (hbegun : span.hasBegun soft = true) :
    t.pool.status i = some .running ∨ t.pool.status i = some .finished := by
  have htied := hb span (List.mem_of_getElem? hspan)
  obtain ⟨was, record, hwas, -, hfits⟩ := h.fits i span hspan
  cases hfits with
  | waits _ later still =>
    have hnow := still soft rfl
    exact absurd (begun_at hbegun fun u hu => hnow ▸ later u hu) htied
  | runs => exact .inl hwas
  | ends => exact .inr hwas
  | drops closed _ later =>
    cases closed
    exact absurd (begun_at hbegun later) htied

/-- Exactly the tasks run that had begun when the permits were closed and are not over. -/
theorem running_exactly {soft : Nat} (h : Keeps limit jobs (some soft) t)
    (hb : ∀ span ∈ timetable limit jobs, span.begun ≠ some soft)
    (he : ∀ span ∈ relevant (some soft) (timetable limit jobs), span.ended ≠ some t.now) (i : Nat) :
    t.pool.status i = some .running ↔ ∃ span, (timetable limit jobs)[i]? = some span ∧
      span.hasBegun soft = true ∧ span.isOver t.now = false := by
  constructor
  · intro hrun
    obtain ⟨span, b, hruns⟩ := running_due h hrun
    have hbegun : span.hasBegun soft = true := by
      simpa [Span.hasBegun, hruns.begun] using hruns.early soft rfl
    refine ⟨span, hruns.table, hbegun, ?_⟩
    have hcounts : span ∈ relevant (some soft) (timetable limit jobs) := mem_relevant.mpr
      ⟨List.mem_of_getElem? hruns.table, fun c hc => Option.some.inj hc ▸ hbegun⟩
    cases hend : span.ended with
    | none => simp [Span.isOver, hend]
    | some e =>
      have hle := hruns.later e hend
      have hne : e ≠ t.now := fun hnow => he span hcounts (hnow ▸ hend)
      simp [Span.isOver, hend]
      omega
  · rintro ⟨span, hspan, hbegun, hopen⟩
    obtain hrun | hfinished := begun_status h hb hspan hbegun
    · exact hrun
    · obtain ⟨was, record, hwas, -, hfits⟩ := h.fits i span hspan
      rw [hfinished, Option.some.injEq] at hwas
      subst hwas
      cases hfits with
      | waits pending => cases pending
      | ends _ ended past => simp [Span.isOver, ended, past] at hopen

theorem task_ran {i : Nat} {span : Span} (h : Keeps limit jobs close t)
    (hspan : (timetable limit jobs)[i]? = some span)
    (hi : t.pool.status i = some .running ∧ span.isOver t.now = false ∨
      t.pool.status i = some .finished) :
    ∃ record, t.records[i]? = some record ∧ record.started = span.begun ∧
      (span.isOver t.now = true → record.ended = span.ended) := by
  obtain ⟨was, record, hwas, hrecord, hfits⟩ := h.fits i span hspan
  refine ⟨record, hrecord, ?_⟩
  rcases hi with ⟨hi, hopen⟩ | hi <;> rw [hi, Option.some.injEq] at hwas <;> subst hwas
  · cases hfits with
    | waits pending => cases pending
    | runs begun => exact ⟨begun.symm, fun hover => absurd hover (by simp [hopen])⟩
  · cases hfits with
    | waits pending => cases pending
    | ends begun ended _ _ started noted =>
      exact ⟨started.trans begun.symm, fun _ => noted.trans ended.symm⟩

/-- A task that had not begun when the permits were closed never does. -/
theorem task_dropped {soft i : Nat} {span : Span} (h : Keeps limit jobs (some soft) t)
    (hspan : (timetable limit jobs)[i]? = some span) (hnot : span.hasBegun soft = false) :
    ∃ record, t.records[i]? = some record ∧ record.started = none ∧
      (soft < t.now → record = ⟨none, none, some soft⟩) := by
  obtain ⟨was, record, -, hrecord, hfits⟩ := h.fits i span hspan
  have hnone : ∀ b, span.begun = some b → ¬b ≤ soft := fun b hb hle => by
    simp [Span.hasBegun, hb, hle] at hnot
  refine ⟨record, hrecord, ?_⟩
  cases hfits with
  | waits _ _ still =>
    have hnow := still soft rfl
    exact ⟨rfl, fun hlt => by omega⟩
  | runs begun _ early => exact absurd (early soft rfl) (hnone _ begun)
  | ends begun _ _ early => exact absurd (early soft rfl) (hnone _ begun)
  | drops closed =>
    cases closed
    exact ⟨rfl, fun _ => rfl⟩

theorem submit_refused (ha : s.pool.accepting = false) (plan : Plan) :
    (s.submit plan).2 = false := by
  simp [Schedule.submit, Pool.submit, ha]

theorem spend_budget (s : Schedule) : s.spend.budget = turn s.budget - 1 := by
  unfold spend turn
  split <;> rfl

/-- The caller of a shutdown spends one operation on it and then waits. -/
theorem stopped_waiting (hs : Running s) (h : Serving limit jobs s) (soft : Nat) :
    ∃ w, w = (s.withPool stopAccepting).spend ∧ Running w ∧ w.now = s.now ∧
      Waiting limit jobs none s.now soft w ∧ w.pool.tracked = s.pool.tracked ∧
      turn w.budget = turn (turn s.budget - 1) := by
  have hstopped := stopping_running hs
  have hspent := spend_spent hstopped
  have hstart : Waiting limit jobs none s.now soft (s.withPool stopAccepting) :=
    ⟨aside_keeps h.toKeeps false s.pool.tracked s.budget, ⟨h.tended.watched, h.tended.known⟩, rfl,
      Nat.le_refl _, .inl rfl⟩
  refine ⟨_, rfl, hspent.running, hspent.now,
    spend_lasts (waiting_lasts limit jobs none s.now soft) hstopped hstart, hspent.tracked, ?_⟩
  rw [spend_budget]
  rfl

theorem closing_waiting {soft hard start alarm : Nat} (hs : Running s)
    (h : Waiting limit jobs none start alarm s) (hn : s.now = soft) :
    Waiting limit jobs (some soft) soft hard s.closing := by
  subst hn
  exact ⟨closing_keeps hs.toSteady h.toKeeps, ⟨h.tended.watched, h.tended.known⟩, h.refusing,
    Nat.le_refl _, .inl rfl⟩

theorem relevant_none (spans : List Span) : relevant none spans = spans := by
  simp [relevant]

/-- A shutdown whose graceful wait saw all tasks end. -/
theorem graceful_concludes {graceful hard tracked room : Nat}
    (hd : Drains limit jobs none s.now graceful s t true) (hle : s.now + graceful ≤ hard)
    (ht : tracked = s.pool.tracked.length) (hr : room = turn s.budget) :
    Concludes (timetable limit jobs) s.now (s.now + graceful) hard tracked room t .graceful := by
  have hidle := (active_none hd.waiting.tended).mp (hd.idle rfl)
  have hanswer := hd.answer.mp rfl
  have htime := hd.onTime rfl
  rw [relevant_none] at hanswer htime
  have hbound := hd.bound
  refine ⟨iff_of_true rfl ⟨hanswer.1, fun hsoft => ?_⟩, fun _ => htime, fun hne => absurd rfl hne,
    nofun, nofun, ⟨hd.waiting.since, by omega⟩, fun i span hspan _ => ?_,
    fun hne => absurd rfl hne, fun after plan => ?_⟩
  · rw [ht, hr]
    exact hanswer.2 (by omega)
  · refine task_ran hd.waiting.toKeeps hspan (.inr ?_)
    obtain ⟨was, record, hwas, -, hfits⟩ := hd.waiting.fits i span hspan
    have hover := hidle i was hwas
    cases hfits with
    | waits pending =>
      rw [TaskStatus.over_iff, pending] at hover
      cases hover
    | runs => cases hover
    | ends => exact hwas
    | drops closed => cases closed
  · exact submit_refused
      (uses_refusing hd.running hd.waiting.toKeeps hd.waiting.refusing after).2 plan

/-- A forced wait without any time needs room for the notes that the graceful wait left. -/
theorem forced_answer {graceful forced soft hard : Nat} {u : Schedule} {drained : Bool}
    (hsoft : s.now + graceful = soft) (hhard : soft + forced = hard)
    (hfirst : Drains limit jobs none s.now graceful s u false)
    (hsecond : Drains limit jobs (some soft) soft forced u.closing t drained) :
    drained = true ↔ AllOver (relevant (some soft) (timetable limit jobs)) hard ∧
      (hard = soft → AllOver (timetable limit jobs) soft →
        s.pool.tracked.length ≤ turn s.budget + turnLength) := by
  have hnow : u.now = soft := (hfirst.atLast rfl).trans hsoft
  have hanswer : drained = true ↔ AllOver (relevant (some soft) (timetable limit jobs)) hard ∧
      (forced = 0 → u.pool.tracked.length ≤ turn u.budget) := by
    rw [hsecond.answer, ← hhard, ← hnow]
    rfl
  rw [hanswer]
  refine and_congr_right fun hover => ?_
  by_cases hzero : forced = 0
  · have hsame : hard = soft := by omega
    have hall : AllOver (timetable limit jobs) soft :=
      begun_over (hnow ▸ hfirst.waiting.arrived) fun span hspan hbegun =>
        hsame ▸ hover span (mem_relevant.mpr ⟨hspan, fun c hc => Option.some.inj hc ▸ hbegun⟩)
    have hgraceful : graceful = 0 := by
      by_cases hg : graceful = 0
      · exact hg
      · have hdrained := hfirst.answer.mpr
          ⟨by rwa [relevant_none, hsoft], fun hz => absurd hz hg⟩
        cases hdrained
    have hstart : s.now = soft := by omega
    obtain ⟨hbudget, hlength⟩ := hfirst.noted rfl hgraceful (by rwa [relevant_none, hstart])
    have hturn : turn u.budget = turnLength := by rw [hbudget]; rfl
    exact ⟨fun hroom _ _ => by have := hroom hzero; omega, fun hroom _ => by
      have := hroom hsame hall; omega⟩
  · have hne : hard ≠ soft := by omega
    simp [hzero, hne]

/-- A shutdown whose graceful wait expired. -/
theorem forced_concludes {graceful forced soft hard : Nat} {u v : Schedule} {drained : Bool}
    (hu : Untied (timetable limit jobs) soft hard) (hsoft : s.now + graceful = soft)
    (hhard : soft + forced = hard) (hfirst : Drains limit jobs none s.now graceful s u false)
    (hsecond : Drains limit jobs (some soft) soft forced u.closing t drained)
    (hv : v = if drained then t else t.withPool detach) :
    Concludes (timetable limit jobs) s.now soft hard s.pool.tracked.length (turn s.budget) v
      (if drained then .forced else .incomplete) := by
  have hnow : u.closing.now = soft := (hfirst.atLast rfl).trans hsoft
  have hrunning : Running v := by
    rw [hv]
    split
    · exact hsecond.running
    · exact detached_running hsecond.running
  have hkeeps : Keeps limit jobs (some soft) v := by
    rw [hv]
    split
    · exact hsecond.waiting.toKeeps
    · exact aside_keeps hsecond.waiting.toKeeps t.pool.accepting [] t.budget
  have hsame : v.now = t.now ∧ v.pool.accepting = t.pool.accepting ∧
      ∀ i, v.pool.status i = t.pool.status i := by
    rw [hv]
    split <;> exact ⟨rfl, rfl, fun _ => rfl⟩
  obtain ⟨htime, haccepting, hstatus⟩ := hsame
  have hoff : v.pool.accepting = false := haccepting.trans hsecond.waiting.refusing
  have hbound := hsecond.bound
  have hsince := hsecond.waiting.since
  have hexactly : drained = false → ∀ i, v.pool.status i = some .running ↔
      ∃ span, (timetable limit jobs)[i]? = some span ∧ span.hasBegun soft = true ∧
        span.isOver v.now = false := fun hfalse => by
    have hlast := hsecond.atLast hfalse
    refine running_exactly hkeeps hu.begun ?_
    have hend : v.now = hard := by omega
    rw [hend]
    exact hu.last
  refine ⟨?_, ?_, fun _ => ?_, ?_, ?_, by omega, fun i span hspan hbegun => ?_,
    fun _ i span hspan hnot after => ?_, fun after plan => ?_⟩
  · refine iff_of_false (by cases drained <;> nofun) fun hall => ?_
    have hdrained := hfirst.answer.mpr
      ⟨by rw [relevant_none, hsoft]; exact hall.1, fun hz => hall.2 (by omega)⟩
    cases hdrained
  · intro hout
    cases drained <;> cases hout
  · rw [← forced_answer hsoft hhard hfirst hsecond]
    cases drained <;> simp
  · intro hout
    cases drained with
    | true => exact htime.trans (hsecond.onTime rfl)
    | false => cases hout
  · intro hout
    cases drained with
    | true => cases hout
    | false =>
      have hlast := hsecond.atLast rfl
      have hend : v.now = hard := by omega
      exact ⟨hend, hend ▸ hexactly rfl⟩
  · refine task_ran hkeeps hspan ((begun_status hkeeps hu.begun hspan hbegun).imp_left
      fun hrun => ⟨hrun, ?_⟩)
    cases drained with
    | true =>
      cases (active_none hsecond.waiting.tended).mp (hsecond.idle rfl) i _ (hstatus i ▸ hrun)
    | false =>
      obtain ⟨other, hother, -, hopen⟩ := (hexactly rfl i).mp hrun
      rwa [Option.some.inj (hspan.symm.trans hother)]
  · obtain ⟨hkept, -⟩ := uses_refusing hrunning hkeeps hoff after
    exact task_dropped hkept hspan hnot
  · exact submit_refused (uses_refusing hrunning hkeeps hoff after).2 plan

theorem serving_concludes (hs : Running s) (h : Serving limit jobs s) {graceful forced : Nat}
    (hu : Untied (timetable limit jobs) (s.now + graceful) (s.now + graceful + forced)) :
    Concludes (timetable limit jobs) s.now (s.now + graceful) (s.now + graceful + forced)
      s.pool.tracked.length (turn (turn s.budget - 1)) (s.shutdown graceful forced).1
      (s.shutdown graceful forced).2 := by
  obtain ⟨w, hw, hrunning, hnow, hwaiting, htracked, hroom⟩ :=
    stopped_waiting hs h (s.now + graceful)
  rw [shutdown_eq, ← hw, ← hnow, ← htracked, ← hroom]
  rw [← hnow] at hu hwaiting
  cases hdrain : w.drain graceful with
  | mk u drained =>
    have hfirst := drains hrunning hdrain rfl hwaiting nofun (fun _ => rfl) hu.begun
      (by rw [relevant_none]; exact hu.ended)
    cases drained with
    | true => exact graceful_concludes hfirst (Nat.le_add_right _ _) rfl rfl
    | false =>
      have hsoft := hfirst.atLast rfl
      have hclosing : Waiting limit jobs (some (w.now + graceful)) (w.now + graceful)
          (u.closing.now + forced) u.closing :=
        closing_waiting hfirst.running hfirst.waiting hsoft
      have hend : u.closing.now + forced = w.now + graceful + forced :=
        congrArg (· + forced) hsoft
      show Concludes _ _ _ _ _ _ (u.force forced).1 (u.force forced).2
      cases hforce : u.closing.drain forced with
      | mk t drained =>
        have hsecond := drains (closing_running hfirst.running) hforce hsoft hclosing
          (fun c hc => (Option.some.inj hc).symm) nofun hu.begun (hend ▸ hu.last)
        have hconcludes := forced_concludes hu rfl rfl hfirst hsecond rfl
        rw [force, hforce]
        cases drained <;> exact hconcludes

/-- What a shutdown of a pool comes to is what the greedy timetable of its tasks says, whatever
its limit is and however it was used before. -/
theorem shutdown_concludes {p : Pool} (hp : make limit = .ok p) (before : List Use)
    (graceful forced : Nat)
    (hu : Untied (timetable limit (jobsFrom 0 before)) (elapsed before + graceful)
      (elapsed before + graceful + forced)) :
    Concludes (timetable limit (jobsFrom 0 before)) (elapsed before) (elapsed before + graceful)
      (elapsed before + graceful + forced) (before.foldl use (begin p)).pool.tracked.length
      (turn (turn (before.foldl use (begin p)).budget - 1))
      ((before.foldl use (begin p)).shutdown graceful forced).1
      ((before.foldl use (begin p)).shutdown graceful forced).2 := by
  obtain ⟨hrunning, hserving, hnow⟩ := uses_serving (begin_running hp) (begin_serving hp) before
  have helapsed : (before.foldl use (begin p)).now = elapsed before := hnow.trans (Nat.zero_add _)
  rw [← helapsed] at hu ⊢
  exact serving_concludes hrunning hserving hu

end

def lateUses : List Use :=
  [.submit ⟨some 4, true⟩, .submit ⟨some 9, false⟩, .sleep 2, .submit ⟨some 3, false⟩]

theorem shutdown_concludes_late : ∃ p, make 1 = .ok p ∧
    Untied (timetable 1 (jobsFrom 0 lateUses)) (elapsed lateUses + 3) (elapsed lateUses + 3 + 10) ∧
    Concludes [⟨some 0, some 4⟩, ⟨some 4, some 13⟩, ⟨some 13, some 16⟩] 2 5 15 3 125
      ((lateUses.foldl use (begin p)).shutdown 3 10).1 .forced ∧
    ((lateUses.foldl use (begin p)).shutdown 3 10).1.now = 13 := by
  have hu : Untied (timetable 1 (jobsFrom 0 lateUses)) (elapsed lateUses + 3)
      (elapsed lateUses + 3 + 10) := ⟨by decide, by decide, by decide⟩
  have hp : make 1 = .ok ⟨1, true, false, 1, [], [], []⟩ := rfl
  exact ⟨_, hp, hu, shutdown_concludes hp lateUses 3 10 hu, by decide⟩

def crowd (n : Nat) : List Use := List.replicate n (.submit ⟨some 0, false⟩) ++ [.sleep 1]

/-- All tasks were over before the shutdown, which has no time at all, and one turn is too short
for the notes of so many. -/
theorem shutdown_crowd_forced : ∃ p, make 0 = .ok p ∧
    Untied (timetable 0 (jobsFrom 0 (crowd 127))) 1 1 ∧
    (∀ span ∈ timetable 0 (jobsFrom 0 (crowd 127)), span.isOver 0 = true) ∧
    (((crowd 127).foldl use (begin p)).shutdown 0 0).2 = .forced :=
  ⟨_, rfl, ⟨by decide +kernel, by decide +kernel, by decide +kernel⟩, by decide +kernel,
    by decide +kernel⟩

end Wiretap.Pool.Schedule
