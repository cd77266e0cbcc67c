import Wiretap.Proofs.Pool.Persistence
import Wiretap.Proofs.Pool.Queues
import Wiretap.Proofs.Pool.Timetable

/-!
# Schedules that keep to the timetable

Until the permits are closed each task of a schedule begins at the moment at which
it begins in the greedy timetable, and it ends at the moment at which it is over
there. When a task is given a permit, fewer tasks before it than there are permits
are not over; while it waits for one, so many are not over. Once the permits are
closed no task begins any more that had not begun, and the others go on as before.
-/

set_option autoImplicit false

namespace Wiretap.Pool

def Record.ended (r : Record) : Option Nat := r.finished.or r.dropped

inductive Fits (close : Option Nat) (now : Nat) (span : Span) : TaskStatus → Record → Prop where
  | waits {was : TaskStatus} (pending : was.stage = .pending)
      (later : ∀ t, span.hasBegun t = true → now ≤ t) (still : ∀ c, close = some c → now = c)
      (called : was = .handed → close = none → span.hasBegun now = true) :
      Fits close now span was ⟨none, none, none⟩
  | runs {b : Nat} (begun : span.begun = some b) (past : b ≤ now)
      (early : ∀ c, close = some c → b ≤ c) (later : ∀ e, span.ended = some e → now ≤ e) :
      Fits close now span .running ⟨some b, none, none⟩
  | ends {b e : Nat} {r : Record} (begun : span.begun = some b) (ended : span.ended = some e)
      (past : e ≤ now) (early : ∀ c, close = some c → b ≤ c) (started : r.started = some b)
      (noted : r.ended = some e) : Fits close now span .finished r
  | drops {c : Nat} (closed : close = some c) (past : c ≤ now)
      (later : ∀ t, span.hasBegun t = true → c ≤ t) :
      Fits close now span .cancelled ⟨none, none, some c⟩

namespace Schedule

structure Keeps (limit : Nat) (jobs : List Job) (close : Option Nat) (s : Schedule) : Prop where
  slots : s.pool.limit = limit
  closed : s.pool.closed = close.isSome
  arrived : ∀ job ∈ jobs, job.arrival ≤ s.now
  planned : ∀ (i : Nat) (job : Job), jobs[i]? = some job →
    ∃ plan, s.plans[i]? = some plan ∧ plan.length = job.length
  fits : ∀ (i : Nat) (span : Span), (timetable limit jobs)[i]? = some span → ∃ was record,
    s.pool.status i = some was ∧ s.records[i]? = some record ∧ Fits close s.now span was record
  beyond : ∀ i was, jobs.length ≤ i → s.pool.status i = some was → was = .rejected
  permits : limit ≠ 0 → s.pool.permits = limit
  lined : limit ≠ 0 → close = none → ∃ next, Lined jobs.length s.pool s.ready next

structure Runs (limit : Nat) (jobs : List Job) (close : Option Nat) (s : Schedule) (i : Nat)
    (span : Span) (b : Nat) : Prop where
  table : (timetable limit jobs)[i]? = some span
  begun : span.begun = some b
  record : s.records[i]? = some ⟨some b, none, none⟩
  due : s.due i = span.ended
  past : b ≤ s.now
  early : ∀ c, close = some c → b ≤ c
  later : ∀ e, span.ended = some e → s.now ≤ e

section
variable {limit i n next t : Nat} {jobs : List Job} {close : Option Nat} {s : Schedule} {q : Pool}
  {span : Span} {was : TaskStatus} {record : Record}

theorem count_le {α β : Type} {f : α → Bool} {g : β → Bool} {as : List α} {bs : List β}
    (h : ∀ (i : Nat) (a : α), as[i]? = some a → f a = true →
      ∃ b, bs[i]? = some b ∧ g b = true) :
    as.countP f ≤ bs.countP g := by
  induction as generalizing bs with
  | nil => simp
  | cons a as ih =>
    cases bs with
    | nil =>
      have hnone : (a :: as).countP f = 0 := by
        rw [List.countP_eq_zero]
        intro x hx hf
        obtain ⟨i, hi⟩ := List.mem_iff_getElem?.mp hx
        obtain ⟨b, hb, -⟩ := h i x hi hf
        cases hb
      omega
    | cons b bs =>
      have hrest := ih fun i x hx hf => h (i + 1) x hx hf
      rw [List.countP_cons, List.countP_cons]
      by_cases hfirst : f a = true
      · obtain ⟨c, hc, hg⟩ := h 0 a rfl hfirst
        cases hc
        simp only [hfirst, hg, if_true]
        omega
      · simp only [hfirst, if_false, Bool.false_eq_true]
        omega

theorem holds_unless_over (h : Keeps limit jobs none s)
    (hline : Lined jobs.length s.pool s.ready next) (hi : i < next)
    (hspan : (timetable limit jobs)[i]? = some span) (ho : span.isOver s.now = false) :
    ∃ was, s.pool.status i = some was ∧ was.holds = true := by
  obtain ⟨was, record, hwas, -, hfits⟩ := h.fits i span hspan
  obtain ⟨hnew, hqueued⟩ := hline.served i hi
  refine ⟨was, hwas, ?_⟩
  cases hfits with
  | waits pending =>
    cases was with
    | submitted => exact absurd hwas hnew
    | queued => exact absurd hwas hqueued
    | handed => rfl
    | _ => cases pending
  | runs => rfl
  | ends begun ended past => simp [Span.isOver, ended, past] at ho
  | drops closed => cases closed

theorem unfinished_le {tasks : List TaskStatus}
    (h : ∀ j < next, ∀ span, (timetable limit jobs)[j]? = some span → span.isOver t = false →
      ∃ was, tasks[j]? = some was ∧ was.holds = true) :
    unfinished ((timetable limit jobs).take next) t ≤ tasks.countP TaskStatus.holds := by
  refine count_le fun j span hspan hopen => ?_
  rw [List.getElem?_take] at hspan
  split at hspan
  · exact h j ‹_› span hspan (by simpa using hopen)
  · cases hspan

theorem open_close (h : Keeps limit jobs close s) (hc : s.pool.closed = false) : close = none := by
  rw [h.closed] at hc
  simpa using hc

/-- A task that starts does so at the moment at which it begins in the timetable. -/
theorem resumed_begun {rest : List Nat} (hs : Steady s) (h : Keeps limit jobs close s)
    (hr : s.ready = i :: rest) (hm : Move s.pool (.resume i) q)
    (hq : q.status i = some .running) (hspan : (timetable limit jobs)[i]? = some span) :
    span.hasBegun s.now = true := by
  obtain ⟨job, hjob, hserves⟩ := timetable_serves hspan
  have hbegun := hserves.begun _ (h.arrived job (List.mem_of_getElem? hjob))
  by_cases hl : limit = 0
  · exact hbegun.mpr (.inl hl)
  have hlimit : s.pool.limit ≠ 0 := h.slots ▸ hl
  have hc : s.pool.closed = false := by
    obtain ⟨was, new, -, hthen, hgo⟩ := resume_self hs.fair hm
    rw [hq, Option.some.injEq] at hthen
    subst hthen
    cases hgo with
    | runs on => exact on.resolve_left hlimit
    | starts on => exact on
  obtain rfl := open_close h hc
  obtain ⟨next, hline⟩ := h.lined hl rfl
  obtain ⟨hnew, -, hfree, -⟩ | ⟨-, hthen, -⟩ | ⟨hhanded, -⟩ := resume_queue hlimit hc hm
  · have hwait : s.pool.queue ++ s.ready.filter s.pool.isNew = i :: rest.filter s.pool.isNew := by
      simp [hs.fair.idle hfree, hr, isNew_iff.mpr hnew]
    obtain ⟨rfl, -⟩ := lined_first hline hwait
    have hle := unfinished_le fun j hj span hspan ho => holds_unless_over h hline hj hspan ho
    have hpermits : s.pool.free + s.pool.tasks.countP TaskStatus.holds = limit := h.permits hl
    exact hbegun.mpr (.inr (by omega))
  · rw [hq] at hthen
    cases hthen
  · obtain ⟨was, record, hwas, -, hfits⟩ := h.fits i span hspan
    rw [hhanded, Option.some.injEq] at hwas
    subst hwas
    cases hfits with
    | waits _ _ _ called => exact called rfl rfl

end

def marks (now : Nat) : TaskStatus → Record → Record
  | .running, r => { r with started := some now }
  | .cancelled, r => { r with dropped := some now }
  | _, r => r

section
variable {limit i n next t : Nat} {jobs : List Job} {close : Option Nat} {s : Schedule} {q : Pool}
  {span : Span} {was new : TaskStatus} {record : Record}

theorem resume_marks (h : s.pool.resume i = some q) (hq : q.status i = some new) :
    s.resume i = some { s with pool := q, records := s.records.modify i (marks s.now new) } := by
  have hid : s.records.modify i id = s.records := List.modify_id i s.records
  simp only [resume, h, Option.bind_eq_bind, Option.bind_some, hq]
  cases new with
  | running | cancelled => rfl
  | _ => exact congrArg (fun records => some { s with pool := q, records }) hid.symm

theorem finish_marks {d : Nat} {plan : Plan} (h : s.pool.finish i = some q) (hd : s.due i = some d)
    (hn : d ≤ s.now) (hp : s.plans[i]? = some plan) : s.finish i = some { s with
      pool := q
      ready := s.ready ++ s.pool.queue.take 1
      records := s.records.modify i fun r => if plan.panics then { r with dropped := some s.now }
        else { r with finished := some s.now } } := by
  have hany : (s.due i).any (· ≤ s.now) = true := by simp [hd, hn]
  rw [finish, if_pos hany, hp, h]
  by_cases hpanics : plan.panics = true <;> simp [hpanics] <;> rfl

theorem resume_fits {rest : List Nat} (hs : Steady s) (h : Keeps limit jobs close s)
    (hr : s.ready = i :: rest) (hm : Move s.pool (.resume i) q)
    (hspan : (timetable limit jobs)[i]? = some span) :
    ∃ new record, q.status i = some new ∧ s.records[i]? = some record ∧
      Fits close s.now span new (marks s.now new record) := by
  obtain ⟨was, new, hwas, hthen, hgo⟩ := resume_self hs.fair hm
  obtain ⟨was', record, hwas', hrecord, hfits⟩ := h.fits i span hspan
  rw [hwas, Option.some.injEq] at hwas'
  subst hwas'
  refine ⟨new, record, hthen, hrecord, ?_⟩
  have hpending := goes_pending hgo
  cases hfits with
  | waits _ later still =>
    have hruns : new = .running → Fits close s.now span .running ⟨some s.now, none, none⟩ := by
      rintro rfl
      have hbegun := begun_at (resumed_begun hs h hr hm hthen hspan) later
      refine .runs hbegun (Nat.le_refl _) (fun c hc => Nat.le_of_eq (still c hc)) fun e he => ?_
      obtain ⟨job, -, hserves⟩ := timetable_serves hspan
      rw [hserves.ended, hbegun] at he
      obtain ⟨length, -, rfl⟩ := Option.map_eq_some_iff.mp he
      omega
    cases hgo with
    | runs | starts => exact hruns rfl
    | queues => exact .waits rfl later still nofun
    | drops _ _ off =>
      obtain ⟨c, hc⟩ := Option.isSome_iff_exists.mp (h.closed ▸ off)
      have hnow := still c hc
      subst hnow
      exact .drops hc (Nat.le_refl _) later
  | runs | ends | drops => cases hpending

theorem fits_over (hspan : (timetable limit jobs)[i]? = some span) : i < jobs.length :=
  timetable_length limit jobs ▸ (List.getElem?_eq_some_iff.mp hspan).1

/-- What a step of a task must keep of all tasks. -/
theorem moved_keeps {f : Record → Record} {ready : List Nat} {step : Step} (hs : Steady s)
    (h : Keeps limit jobs close s) (hm : Move s.pool step q) (hk : Kept s.pool q)
    (hi : ∀ span, (timetable limit jobs)[i]? = some span → ∃ was record,
      q.status i = some was ∧ s.records[i]? = some record ∧ Fits close s.now span was (f record))
    (hj : ∀ j span, i ≠ j → (timetable limit jobs)[j]? = some span → ∀ was record,
      s.pool.status j = some was → Fits close s.now span was record →
      ∃ new, q.status j = some new ∧ Fits close s.now span new record)
    (hline : limit ≠ 0 → close = none → ∃ next, Lined jobs.length q ready next) :
    Keeps limit jobs close { s with pool := q, ready, records := s.records.modify i f } := by
  refine ⟨(move_limit hm).trans h.slots, hk.closed.trans h.closed, h.arrived, h.planned,
    fun j span hspan => ?_, fun j was hle hwas => ?_, fun hl => ?_, hline⟩
  · by_cases hij : i = j
    · subst hij
      obtain ⟨was, record, hwas, hrecord, hfits⟩ := hi span hspan
      exact ⟨was, f record, hwas, by simp [hrecord], hfits⟩
    · obtain ⟨was, record, hwas, hrecord, hfits⟩ := h.fits j span hspan
      obtain ⟨new, hthen, hfits⟩ := hj j span hij hspan was record hwas hfits
      exact ⟨new, record, hthen, by rwa [List.getElem?_modify_ne _ _ hij], hfits⟩
  · have hwas : q.status j = some was := hwas
    have hlt : j < s.pool.tasks.length := hk.length ▸ (List.getElem?_eq_some_iff.mp hwas).1
    have hold : s.pool.status j = some .rejected := by
      rw [status, List.getElem?_eq_getElem hlt]
      exact congrArg some (h.beyond j _ hle (List.getElem?_eq_getElem hlt))
    rw [move_over hs.fair hm hold rfl] at hwas
    exact (Option.some.inj hwas).symm
  · rw [← h.permits hl]
    exact move_permits hs.fair (h.slots ▸ hl) hm

theorem resume_keeps {rest : List Nat} (hs : Steady s) (h : Keeps limit jobs close s)
    (hr : s.ready = i :: rest) :
    Keeps limit jobs close ((({ s with ready := rest } : Schedule).resume i).getD
      { s with ready := rest }) := by
  cases hres : s.pool.resume i with
  | none =>
    have hold : s.pool.status i ≠ some .submitted := by
      intro hnew
      have hsome := resume_isSome s.pool i
      rw [hres, hnew] at hsome
      cases hsome
    have hnone : ({ s with ready := rest } : Schedule).resume i = none := resume_none hres
    rw [hnone, Option.getD_none]
    refine ⟨h.slots, h.closed, h.arrived, h.planned, h.fits, h.beyond, h.permits, fun hl hc => ?_⟩
    obtain ⟨next, hline⟩ := h.lined hl hc
    exact ⟨next, popped_lined (hr ▸ hline) hold⟩
  | some q =>
    have hm := resume_move hres
    obtain ⟨-, new, -, hthen, -⟩ := resume_self hs.fair hm
    have hsome := resume_marks (s := { s with ready := rest }) hres hthen
    rw [hsome, Option.getD_some]
    refine moved_keeps (s := s) hs h hm (resume_kept hm) (fun span hspan => ?_)
      (fun j span hij _ was record hwas hfits => ⟨was, ?_, hfits⟩) fun hl hc => ?_
    · obtain ⟨next, record, hnext, hrecord, hfits⟩ := resume_fits hs h hr hm hspan
      rw [hthen, Option.some.injEq] at hnext
      subst hnext
      exact ⟨new, record, hthen, hrecord, hfits⟩
    · rw [resume_other hs.fair.toOrderly hm hij, hwas]
    · obtain ⟨next, hline⟩ := h.lined hl hc
      have hopen : s.pool.closed = false := by rw [h.closed, hc]; rfl
      exact resume_lined hs.fair (h.slots ▸ hl) hopen (hr ▸ hline) hm

/-- A running task is due when it is over in the timetable. -/
theorem running_due (h : Keeps limit jobs close s) (hrun : s.pool.status i = some .running) :
    ∃ span b, Runs limit jobs close s i span b := by
  have hlt : i < jobs.length := by
    by_cases hlt : i < jobs.length
    · exact hlt
    · cases h.beyond i _ (by omega) hrun
  obtain ⟨span, hspan⟩ : ∃ span, (timetable limit jobs)[i]? = some span :=
    ⟨_, List.getElem?_eq_getElem (timetable_length limit jobs ▸ hlt)⟩
  obtain ⟨was, record, hwas, hrecord, hfits⟩ := h.fits i span hspan
  obtain ⟨job, hjob, hserves⟩ := timetable_serves hspan
  obtain ⟨plan, hplan, hlength⟩ := h.planned i job hjob
  rw [hrun, Option.some.injEq] at hwas
  subst hwas
  cases hfits with
  | waits pending => cases pending
  | @runs b begun past early later =>
    have hdue : s.due i = span.ended := by
      rw [hserves.ended, begun, ← hlength, Option.bind_some, Option.map_eq_bind]
      simp [due, hrun, hrecord, hplan]
    exact ⟨span, b, hspan, begun, hrecord, hdue, past, early, later⟩

/-- The next task in the line begins when a task that was over has returned its permit. -/
theorem handed_begun {k : Nat} {panicked : Bool} {d : Nat} (hs : Steady s)
    (h : Keeps limit jobs close s) (hm : Move s.pool (.finish i panicked) q)
    (hd : s.due i = some d) (hn : d ≤ s.now) (hk : s.pool.queue.head? = some k)
    (hc : close = none) (hspan : (timetable limit jobs)[k]? = some span) :
    span.hasBegun s.now = true := by
  subst hc
  have hqueued := hs.fair.queued k (List.mem_of_mem_head? hk)
  have hl : limit ≠ 0 := fun hz => (hs.fair.unlimited (h.slots.trans hz) k).1 hqueued
  obtain ⟨job, hjob, hserves⟩ := timetable_serves hspan
  obtain ⟨next, hline⟩ := h.lined hl rfl
  obtain ⟨queue, hqueue⟩ := List.head?_eq_some_iff.mp hk
  have hwait : s.pool.queue ++ s.ready.filter s.pool.isNew =
      k :: (queue ++ s.ready.filter s.pool.isNew) := by
    rw [hqueue]
    rfl
  obtain ⟨rfl, -⟩ := lined_first hline hwait
  have hrun := (finish_self hs.fair.toOrderly hm).1
  -- The task that is over now does not count, although it has not returned its permit.
  have hle : unfinished ((timetable limit jobs).take k) s.now ≤
      (s.pool.setStatus i .finished).tasks.countP TaskStatus.holds := by
    refine unfinished_le fun j hj other hother hopen => ?_
    obtain ⟨was, hwas, hholds⟩ := holds_unless_over h hline hj hother hopen
    have hij : i ≠ j := by
      rintro rfl
      obtain ⟨span', b, hruns⟩ := running_due h hrun
      have hended := hruns.due.symm.trans hd
      rw [Option.some.inj (hruns.table.symm.trans hother)] at hended
      simp [Span.isOver, hended, hn] at hopen
    exact ⟨was, (setStatus_other hij _).trans hwas, hholds⟩
  have hreturned : s.pool.free + (s.pool.setStatus i .finished).tasks.countP TaskStatus.holds + 1 =
      s.pool.permits := set_permits hrun .finished
  have hpermits := h.permits hl
  rw [hserves.begun _ (h.arrived job (List.mem_of_getElem? hjob))]
  exact .inr (by omega)

theorem finish_keeps (hs : Steady s) (h : Keeps limit jobs close s) :
    Keeps limit jobs close ((s.finish i).getD s) := by
  obtain ⟨-, hnone⟩ | ⟨d, q, plan, hd, hn, hplan, hq⟩ := finish_cases s i
  · rwa [hnone, Option.getD_none]
  · have hm := finish_move plan.panics hq
    rw [finish_marks hq hd hn hplan, Option.getD_some]
    refine moved_keeps (s := s) hs h hm (finish_kept hm) (fun span hspan => ?_)
      (fun j span hij hspan was record hwas hfits => ?_) fun hl hc => ?_
    · obtain ⟨span', b, hruns⟩ := running_due h (due_running hd)
      obtain rfl := Option.some.inj (hruns.table.symm.trans hspan)
      have hended := hruns.due.symm.trans hd
      have hnow : d = s.now := Nat.le_antisymm hn (hruns.later d hended)
      refine ⟨_, _, (finish_self hs.fair.toOrderly hm).2, hruns.record,
        .ends hruns.begun hended hn hruns.early ?_ ?_⟩
      · by_cases hp : plan.panics = true <;> simp [hp]
      · by_cases hp : plan.panics = true <;> simp [hp, Record.ended, hnow]
    · obtain ⟨-, hsame⟩ | ⟨hhead, hqueued, hhanded⟩ := finish_other hs.fair hm hij
      · exact ⟨was, hsame.trans hwas, hfits⟩
      · rw [hwas, Option.some.injEq] at hqueued
        subst hqueued
        refine ⟨.handed, hhanded, ?_⟩
        cases hfits with
        | waits _ later still =>
          exact .waits rfl later still fun _ hc => handed_begun hs h hm hd hn hhead hc hspan
    · obtain ⟨next, hline⟩ := h.lined hl hc
      exact finish_lined hs.fair (h.slots ▸ hl) hline hm

/-- All permits are held while a task waits for one. -/
theorem waits_full (hs : Steady s) (h : Keeps limit jobs none s)
    (hi : s.pool.status i = some .queued) (hc : s.pool.closed = false) :
    limit ≠ 0 ∧ s.pool.tasks.countP TaskStatus.holds = limit := by
  have hl : limit ≠ 0 := fun hz => (hs.fair.unlimited (h.slots.trans hz) i).1 hi
  have hmem := hs.fair.waits hc i hi
  have hfree : s.pool.free = 0 := by
    by_cases hf : 0 < s.pool.free
    · rw [hs.fair.idle hf] at hmem
      exact absurd hmem List.not_mem_nil
    · omega
  have hpermits : s.pool.free + s.pool.tasks.countP TaskStatus.holds = limit := h.permits hl
  exact ⟨hl, by omega⟩

theorem idle_queued (hp : Prompt s) (hr : s.ready = []) (hi : s.pool.status i = some was)
    (hw : was.stage = .pending) : was = .queued ∧ s.pool.closed = false := by
  have hstill : (s.pool.resume i).isSome = false := by
    by_cases hres : (s.pool.resume i).isSome = true
    · have hmem := hp i (.inl hres)
      rw [hr] at hmem
      exact absurd hmem List.not_mem_nil
    · simpa using hres
  rw [resume_isSome, hi] at hstill
  cases was with
  | submitted | handed => cases hstill
  | queued => exact ⟨rfl, hstill⟩
  | _ => cases hw

/-- While no task can go on, those that wait for a permit do not begin in the timetable either. -/
theorem waits_later {alarm : Nat} (hs : Steady s) (hp : Prompt s) (h : Keeps limit jobs none s)
    (hr : s.ready = []) (hi : s.pool.status i = some .queued) (hc : s.pool.closed = false)
    (hspan : (timetable limit jobs)[i]? = some span) (hb : span.hasBegun t = true) :
    s.nextTime alarm ≤ t := by
  obtain ⟨hl, hfull⟩ := waits_full hs h hi hc
  obtain ⟨next, hline⟩ := h.lined hl rfl
  have hnext := lined_served hline (.inr hi)
  by_cases hlt : t < s.nextTime alarm
  · obtain ⟨job, hjob, hserves⟩ := timetable_serves hspan
    have hfew := ((hserves.begun t (hserves.arrival t hb)).mp hb).resolve_left hl
    -- Each task that holds a permit runs and ends at the next moment or later.
    have hmany : s.pool.tasks.countP TaskStatus.holds ≤
        unfinished ((timetable limit jobs).take i) t := by
      refine count_le fun j was hwas hholds => ?_
      have hrun : was = .running := by
        cases was with
        | handed => cases (idle_queued hp hr hwas rfl).1
        | running => rfl
        | _ => cases hholds
      subst hrun
      obtain ⟨other, b, hruns⟩ := running_due h hwas
      have hj := fits_over hruns.table
      have hbefore : j < i := by
        by_cases hbefore : j < next
        · omega
        · rcases lined_waits hline hs.fair.toOrderly (by omega) hj with hw | hw <;>
            rw [Option.some.inj (hwas.symm.trans hw)] at hholds <;> cases hholds
      refine ⟨other, by rw [List.getElem?_take_of_lt hbefore, hruns.table], ?_⟩
      cases hended : other.ended with
      | none => simp [Span.isOver, hended]
      | some e =>
        have hle : s.nextTime alarm ≤ e := nextTime_due hs (hruns.due.trans hended)
        simp [Span.isOver, hended]
        omega
    omega
  · omega

theorem advance_fits {alarm : Nat} (hs : Steady s) (hp : Prompt s) (ha : s.now < alarm)
    (h : Keeps limit jobs close s) (hr : s.ready = [])
    (hspan : (timetable limit jobs)[i]? = some span) (hi : s.pool.status i = some was)
    (hf : Fits close s.now span was record) :
    Fits close (s.nextTime alarm) span was record := by
  have hnow := nextTime_later hp hr ha
  cases hf with
  | waits pending =>
    obtain ⟨rfl, hc⟩ := idle_queued hp hr hi pending
    obtain rfl := open_close h hc
    exact .waits rfl (fun t ht => waits_later hs hp h hr hi hc hspan ht) nofun nofun
  | runs begun past early =>
    obtain ⟨other, b, hruns⟩ := running_due h hi
    obtain rfl := Option.some.inj (hruns.table.symm.trans hspan)
    exact .runs begun (by omega) early fun e he => nextTime_due hs (hruns.due.trans he)
  | ends begun ended past early started noted =>
    exact .ends begun ended (by omega) early started noted
  | drops closed past later => exact .drops closed (by omega) later

theorem advance_keeps {alarm : Nat} (hs : Steady s) (hp : Prompt s) (ha : s.now < alarm)
    (h : Keeps limit jobs close s) (hr : s.ready = []) :
    Keeps limit jobs close (s.advance (s.nextTime alarm)) := by
  have hnow := nextTime_later hp hr ha
  refine ⟨h.slots, h.closed, fun job hjob => ?_, h.planned, fun i span hspan => ?_, h.beyond,
    h.permits, fun hl hc => ?_⟩
  · have harrived := h.arrived job hjob
    show job.arrival ≤ s.nextTime alarm
    omega
  · obtain ⟨was, record, hwas, hrecord, hfits⟩ := h.fits i span hspan
    exact ⟨was, record, hwas, hrecord, advance_fits hs hp ha h hr hspan hwas hfits⟩
  · obtain ⟨next, hline⟩ := h.lined hl hc
    have hending : ∀ i ∈ (s.advance (s.nextTime alarm)).ready,
        s.pool.status i = some .running := by
      intro i hi
      rw [advance, hr, List.nil_append, List.mem_filter] at hi
      have hdue : s.due i = some (s.nextTime alarm) := by simpa using hi.2
      exact due_running hdue
    have hnew : (s.advance (s.nextTime alarm)).ready.filter s.pool.isNew = [] :=
      List.filter_eq_nil_iff.mpr fun i hi => by simp [isNew, hending i hi]
    refine ⟨next, ?_, hline.bound, hline.served, fun i hi => ?_⟩
    · have horder := hline.order
      rw [hr] at horder
      show s.pool.queue ++ (s.advance (s.nextTime alarm)).ready.filter s.pool.isNew = _
      rw [hnew]
      exact horder
    · obtain ⟨span, b, hruns⟩ := running_due h (hending i hi)
      exact fits_over hruns.table

theorem aside_keeps (h : Keeps limit jobs close s) (accepting : Bool) (tracked : List Nat)
    (budget : Nat) :
    Keeps limit jobs close { s with pool := { s.pool with accepting, tracked }, budget } := by
  refine ⟨h.slots, h.closed, h.arrived, h.planned, h.fits, h.beyond, h.permits, fun hl hc => ?_⟩
  obtain ⟨next, hline⟩ := h.lined hl hc
  exact ⟨next, hline.order, hline.bound, hline.served, hline.among⟩

/-- Whatever goes on, the tasks keep to the timetable. -/
theorem keeps_lasts (limit : Nat) (jobs : List Job) (close : Option Nat) (alarm : Nat) :
    Lasting alarm (Keeps limit jobs close) := by
  refine ⟨fun s i rest hs _ h hr => ?_, fun s hs hp h hr ha => advance_keeps hs hp ha h hr,
    fun s n h => aside_keeps h s.pool.accepting s.pool.tracked n,
    fun s n h => aside_keeps h s.pool.accepting (s.pool.trackedWithout n s.pool.tracked) s.budget⟩
  have hpopped : Steady { s with ready := rest } := ⟨hs.fair, hs.plans, hs.records, hs.tracked⟩
  obtain ⟨hlater, -⟩ := resume_later (i := i) hpopped rfl
  exact finish_keeps hlater.steady (resume_keeps hs h hr)

theorem begin_keeps {p : Pool} (hp : make limit = .ok p) : Keeps limit [] none (begin p) := by
  rw [make_eq hp]
  refine ⟨rfl, rfl, nofun, nofun, nofun, fun i was _ hi => ?_, fun _ => rfl, fun _ _ => ?_⟩
  · cases hi
  · exact ⟨0, rfl, Nat.le_refl _, nofun, nofun⟩

theorem snoc_some {α : Type} {l : List α} {a x : α} (h : (l ++ [a])[i]? = some x) :
    l[i]? = some x ∨ i = l.length ∧ x = a := by
  have hlt := (List.getElem?_eq_some_iff.mp h).1
  rw [List.length_append, List.length_singleton] at hlt
  by_cases hi : i < l.length
  · exact .inl (List.getElem?_append_left hi ▸ h)
  · have hlast : i = l.length := by omega
    subst hlast
    simp only [List.getElem?_concat_length, Option.some.injEq] at h
    exact .inr ⟨rfl, h.symm⟩

theorem entered_status (s : Schedule) (plan : Plan) (i : Nat) :
    (s.entered plan).pool.status i = if i = s.pool.tasks.length then
      some (if s.pool.accepting then .submitted else .rejected) else s.pool.status i :=
  submit_status s.pool i

/-- A submission while the pool accepts is one more job. -/
theorem accepted_keeps (hs : Steady s) (h : Keeps limit jobs none s) (plan : Plan)
    (hn : s.plans.length = jobs.length) (ha : s.pool.accepting = true) :
    Keeps limit (jobs ++ [⟨s.now, plan.length⟩]) none (s.entered plan) := by
  have hnew : s.pool.submit.2 = true := by rw [submit_accepts, ha]
  have hrest := submit_rest s.pool
  have hlength : s.pool.tasks.length = jobs.length := hs.plans.symm.trans hn
  have hold : ∀ i < jobs.length, (s.entered plan).pool.status i = s.pool.status i := fun i hi => by
    rw [entered_status, if_neg (by omega)]
  have hlast : (s.entered plan).pool.status jobs.length = some .submitted := by
    rw [entered_status, if_pos hlength.symm, if_pos ha]
  refine ⟨hrest.2.2.2.trans h.slots, hrest.1.trans h.closed, fun job hjob => ?_,
    fun i job hjob => ?_, fun i span hspan => ?_, fun i was hle hwas => ?_, fun hl => ?_,
    fun hl _ => ?_⟩
  · rcases List.mem_append.mp hjob with hold | hone
    · exact h.arrived job hold
    · rw [List.mem_singleton.mp hone]
      exact Nat.le_refl s.now
  · rcases snoc_some hjob with hwas | ⟨rfl, rfl⟩
    · obtain ⟨plan', hplan, hlen⟩ := h.planned i job hwas
      exact ⟨plan', (List.getElem?_append_left (List.getElem?_eq_some_iff.mp hplan).1).trans hplan,
        hlen⟩
    · exact ⟨plan, hn ▸ List.getElem?_concat_length, rfl⟩
  · obtain ⟨job, hjob, hserves⟩ := timetable_serves hspan
    rcases snoc_some hjob with hwas | ⟨rfl, rfl⟩
    · have hi := (List.getElem?_eq_some_iff.mp hwas).1
      rw [timetable_append limit jobs _ hi] at hspan
      obtain ⟨was, record, hwas, hrecord, hfits⟩ := h.fits i span hspan
      exact ⟨was, record, (hold i hi).trans hwas,
        (List.getElem?_append_left (List.getElem?_eq_some_iff.mp hrecord).1).trans hrecord, hfits⟩
    · have hrecord : (s.entered plan).records[jobs.length]? = some ⟨none, none, none⟩ := by
        rw [← hlength, ← hs.records]
        simp [entered, hnew]
      refine ⟨.submitted, _, hlast, hrecord, .waits rfl hserves.arrival ?_ ?_⟩
      · intro c hc
        cases hc
      · intro hhanded
        cases hhanded
  · rw [List.length_append, List.length_singleton] at hle
    rw [entered_status, if_neg (by omega)] at hwas
    have hlt := (List.getElem?_eq_some_iff.mp hwas).1
    omega
  · exact (move_permits hs.fair (h.slots ▸ hl) .submits).trans (h.permits hl)
  · obtain ⟨next, hline⟩ := h.lined hl rfl
    have hready : (s.entered plan).ready = s.ready ++ [jobs.length] := by
      simp [entered, hnew, hn]
    have hbound := hline.bound
    have hsame : s.ready.filter (s.entered plan).pool.isNew = s.ready.filter s.pool.isNew :=
      List.filter_congr fun i hi => by simp only [isNew, hold i (hline.among i hi)]
    refine ⟨next, ?_, ?_, fun i hi => ?_, fun i hi => ?_⟩
    · have hrange : jobs.length + 1 - next = jobs.length - next + 1 := by omega
      have hend : next + (jobs.length - next) = jobs.length := by omega
      have hqueue : (s.entered plan).pool.queue = s.pool.queue := hrest.2.1
      rw [hready, hqueue, List.filter_append, hsame, ← List.append_assoc, hline.order,
        List.length_append, List.length_singleton, hrange, List.range'_concat]
      simp [isNew, hlast, hend]
    · rw [List.length_append]
      omega
    · rw [hold i (by omega)]
      exact hline.served i hi
    · rw [List.length_append, List.length_singleton]
      rw [hready] at hi
      rcases List.mem_append.mp hi with hwas | hone
      · have := hline.among i hwas
        omega
      · rw [List.mem_singleton.mp hone]
        omega

/-- A submission that is rejected is no job. -/
theorem rejected_keeps (hs : Steady s) (h : Keeps limit jobs close s) (plan : Plan)
    (ha : s.pool.accepting = false) : Keeps limit jobs close (s.entered plan) := by
  have hrest := submit_rest s.pool
  have hready : (s.entered plan).ready = s.ready := by simp [entered, submit_accepts, ha]
  have hstatus : ∀ i was, s.pool.status i = some was →
      (s.entered plan).pool.status i = some was := by
    intro i was hi
    have hlt := (List.getElem?_eq_some_iff.mp hi).1
    rw [entered_status, if_neg (by omega), hi]
  have hlast : (s.entered plan).pool.status s.pool.tasks.length = some .rejected := by
    rw [entered_status, if_pos rfl, ha]
    rfl
  have hback : ∀ i was, (s.entered plan).pool.status i = some was → was = .rejected ∨
      s.pool.status i = some was := by
    intro i was hi
    by_cases he : i = s.pool.tasks.length
    · rw [he, hlast] at hi
      exact .inl (Option.some.inj hi).symm
    · rw [entered_status, if_neg he] at hi
      exact .inr hi
  refine ⟨hrest.2.2.2.trans h.slots, hrest.1.trans h.closed, h.arrived, fun i job hjob => ?_,
    fun i span hspan => ?_, fun i was hle hwas => ?_, fun hl => ?_, fun hl hc => ?_⟩
  · obtain ⟨plan', hplan, hlen⟩ := h.planned i job hjob
    exact ⟨plan', (List.getElem?_append_left (List.getElem?_eq_some_iff.mp hplan).1).trans hplan,
      hlen⟩
  · obtain ⟨was, record, hwas, hrecord, hfits⟩ := h.fits i span hspan
    exact ⟨was, record, hstatus i was hwas,
      (List.getElem?_append_left (List.getElem?_eq_some_iff.mp hrecord).1).trans hrecord, hfits⟩
  · exact (hback i was hwas).elim id (h.beyond i was hle)
  · exact (move_permits hs.fair (h.slots ▸ hl) .submits).trans (h.permits hl)
  · obtain ⟨next, hline⟩ := h.lined hl hc
    have hnew : ∀ i, (s.entered plan).pool.isNew i = s.pool.isNew i := by
      intro i
      by_cases he : i = s.pool.tasks.length
      · have hnone : s.pool.status i = none := List.getElem?_eq_none_iff.mpr (by omega)
        simp [isNew, he ▸ hlast, hnone]
      · simp only [isNew, entered_status, if_neg he]
    refine ⟨next, ?_, hline.bound, fun i hi => ⟨fun hn => ?_, fun hq => ?_⟩, hready ▸ hline.among⟩
    · have hqueue : (s.entered plan).pool.queue = s.pool.queue := hrest.2.1
      rw [hready, hqueue, ← hline.order, List.filter_congr fun i _ => hnew i]
    · exact (hline.served i hi).1 ((hback i _ hn).resolve_left (by decide))
    · exact (hline.served i hi).2 ((hback i _ hq).resolve_left (by decide))

/-- When the permits are closed no task begins that has not. -/
theorem closing_keeps (hs : Steady s) (h : Keeps limit jobs none s) :
    Keeps limit jobs (some s.now) s.closing := by
  refine ⟨h.slots, rfl, h.arrived, h.planned, fun i span hspan => ?_, h.beyond, fun hl => ?_,
    nofun⟩
  · obtain ⟨was, record, hwas, hrecord, hfits⟩ := h.fits i span hspan
    refine ⟨was, record, hwas, hrecord, ?_⟩
    cases hfits with
    | waits pending later =>
      exact .waits pending later (fun c hc => Option.some.inj hc) nofun
    | runs begun past _ later =>
      exact .runs begun past (fun c hc => Option.some.inj hc ▸ past) later
    | @ends b e _ begun ended past _ started noted =>
      obtain ⟨job, -, hserves⟩ := timetable_serves hspan
      have hover : span.isOver s.now = true := by simp [Span.isOver, ended, past]
      have hbegun := over_begun hserves hover
      have hle : b ≤ s.now := by simpa [Span.hasBegun, begun] using hbegun
      exact .ends begun ended past (fun c hc => Option.some.inj hc ▸ hle) started noted
    | drops closed => cases closed
  · exact (move_permits hs.fair (h.slots ▸ hl) .closes).trans (h.permits hl)

end
end Schedule
end Wiretap.Pool
