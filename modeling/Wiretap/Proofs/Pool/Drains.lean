import Wiretap.Proofs.Pool.Punctuality

/-!
# What a drain comes to

A drain of a pool that no longer accepts tasks succeeds exactly when all tasks that
count are over in the timetable by its deadline, and then it returns when the last
one is over. Once the permits are closed only the tasks that had begun count. A
drain without any time has to take all its notes in one turn of its caller.
-/

set_option autoImplicit false

namespace Wiretap.Pool

structure Tended (p : Pool) : Prop where
  watched : Life.Watched p
  known : ∀ i ∈ p.tracked, i < p.tasks.length

section
variable {p q : Pool} {step : Step}

theorem without_subset (p : Pool) (n : Nat) (tracked : List Nat) :
    p.trackedWithout n tracked ⊆ tracked := by
  induction tracked generalizing n with
  | nil => cases n <;> simp [trackedWithout]
  | cons i tracked ih =>
    cases n with
    | zero => exact List.Subset.refl _
    | succ n =>
      by_cases hi : p.isOpen i = true
      · simp only [trackedWithout, hi, if_true]
        exact List.cons_subset_cons i (ih (n + 1))
      · simp only [trackedWithout, hi, if_false, Bool.false_eq_true]
        exact List.subset_cons_of_subset i (ih n)

theorem kept_tended (hf : Fair p) (hm : Move p step q) (hk : Kept p q) (h : Tended p) :
    Tended q :=
  ⟨Life.kept_watched hf hm hk h.watched, by rw [hk.tracked, hk.length]; exact h.known⟩

theorem forget_tended (h : Tended p) (n : Nat) : Tended (p.forget n) :=
  ⟨Life.forget_watched n h.watched, fun i hi => h.known i (without_subset p n p.tracked hi)⟩

theorem submit_tended (h : Tended p) : Tended p.submit.1 := by
  refine ⟨Life.submit_watched h.watched, fun i hi => ?_⟩
  rw [submit_length]
  unfold submit at hi
  split at hi
  · rcases List.mem_append.mp hi with hold | hnew
    · exact Nat.lt_succ_of_lt (h.known i (List.mem_of_mem_filter hold))
    · rw [List.mem_singleton.mp hnew]
      exact Nat.lt_succ_self _
  · exact Nat.lt_succ_of_lt (h.known i hi)

/-- No tracked task is left exactly when every task is over. -/
theorem active_none (h : Tended p) :
    p.active = 0 ↔ ∀ i was, p.status i = some was → was.isOver = true := by
  rw [active, List.countP_eq_zero]
  constructor
  · intro hnone i was hi
    by_cases ho : was.isOver = true
    · exact ho
    · have hopen : was.isOver = false := by simpa using ho
      exact absurd ((Life.open_iff hi).mpr hopen) (hnone i (h.watched i was hi hopen))
  · intro hall i hi
    obtain ⟨was, hwas⟩ : ∃ was, p.status i = some was :=
      ⟨_, List.getElem?_eq_getElem (h.known i hi)⟩
    simp [Life.open_iff hwas, hall i was hwas]

end
namespace Schedule

structure Waiting (limit : Nat) (jobs : List Job) (close : Option Nat) (start alarm : Nat)
    (s : Schedule) : Prop extends Keeps limit jobs close s where
  tended : Tended s.pool
  refusing : s.pool.accepting = false
  since : start ≤ s.now
  stops : s.now = start ∨ s.now = alarm ∨
    ∃ span ∈ relevant close (timetable limit jobs), span.ended = some s.now

section
variable {limit alarm start duration soft : Nat} {jobs : List Job} {close : Option Nat}
  {s t : Schedule} {drained : Bool}

theorem pool_lasts {P : Pool → Prop}
    (hm : ∀ p q step, Fair p → Move p step q → Kept p q → P p → P q)
    (hf : ∀ p n, P p → P (p.forget n)) (alarm : Nat) : Lasting alarm (fun s => P s.pool) := by
  refine ⟨fun s i ready hs _ h _ => ?_, fun s _ _ h _ _ => h, fun s n h => h,
    fun s n h => hf s.pool n h⟩
  have hpopped : Steady { s with ready } := ⟨hs.fair, hs.plans, hs.records, hs.tracked⟩
  have hresumed : P ((({ s with ready } : Schedule).resume i).getD { s with ready }).pool := by
    cases hr : s.pool.resume i with
    | none =>
      have hnone : ({ s with ready } : Schedule).resume i = none := resume_none hr
      rw [hnone]
      exact h
    | some q =>
      have hmove := resume_move hr
      obtain ⟨f, hsome⟩ := resume_some (s := { s with ready }) hr
      rw [hsome]
      exact hm s.pool q _ hs.fair hmove (resume_kept hmove) h
  obtain ⟨hlater, -⟩ := resume_later (i := i) hpopped rfl
  unfold goOn
  generalize (({ s with ready } : Schedule).resume i).getD { s with ready } = u at hresumed hlater ⊢
  obtain ⟨-, hnone⟩ | ⟨d, q, -, hd, hn, -, hq⟩ := finish_cases u i
  · show P ((u.finish i).getD u).pool
    rw [hnone]
    exact hresumed
  · have hmove := finish_move false hq
    obtain ⟨f, hsome⟩ := finish_some hq hd hn
    show P ((u.finish i).getD u).pool
    rw [hsome]
    exact hm u.pool q _ hlater.steady.fair hmove (finish_kept hmove) hresumed

theorem waiting_lasts (limit : Nat) (jobs : List Job) (close : Option Nat) (start alarm : Nat) :
    Lasting alarm (Waiting limit jobs close start alarm) := by
  have hkeeps := keeps_lasts limit jobs close alarm
  have hpool := pool_lasts (P := fun p => Tended p ∧ p.accepting = false)
    (fun p q _ hf hm hk h => ⟨kept_tended hf hm hk h.1, hk.accepting.trans h.2⟩)
    (fun p n h => ⟨forget_tended h.1 n, h.2⟩) alarm
  refine ⟨fun s i ready hs hp h hr => ?_, fun s hs hp h hr ha => ?_, fun s n h => ?_,
    fun s n h => ?_⟩
  · obtain ⟨htended, hrefusing⟩ := hpool.goes s i ready hs hp ⟨h.tended, h.refusing⟩ hr
    obtain ⟨hw, -⟩ := popped_later hs hp hr
    refine ⟨hkeeps.goes s i ready hs hp h.toKeeps hr, htended, hrefusing, ?_, ?_⟩
    · rw [hw.now]
      exact h.since
    · rw [hw.now]
      exact h.stops
  · have hlater := nextTime_later hp hr ha
    have hsince : start ≤ s.nextTime alarm := Nat.le_trans h.since (Nat.le_of_lt hlater)
    refine ⟨hkeeps.passes s hs hp h.toKeeps hr ha, h.tended, h.refusing, hsince, .inr ?_⟩
    show s.nextTime alarm = alarm ∨ ∃ span ∈ relevant close (timetable limit jobs),
      span.ended = some (s.nextTime alarm)
    by_cases htime : s.nextTime alarm = alarm
    · exact .inl htime
    · obtain ⟨i, -, hd⟩ := nextTime_lt htime
      obtain ⟨span, b, hruns⟩ := running_due h.toKeeps (due_running hd)
      refine .inr ⟨span, mem_relevant.mpr ⟨List.mem_of_getElem? hruns.table, fun c hc => ?_⟩,
        hruns.due.symm.trans hd⟩
      simpa [Span.hasBegun, hruns.begun] using hruns.early c hc
  · exact ⟨hkeeps.turns s n h.toKeeps, h.tended, h.refusing, h.since, h.stops⟩
  · exact ⟨hkeeps.notes s n h.toKeeps, forget_tended h.tended n, h.refusing, h.since, h.stops⟩

/-- When no tracked task is left, all that count are over. -/
theorem idle_over (h : Keeps limit jobs close s) (ht : Tended s.pool) (hn : s.pool.active = 0)
    (hb : ∀ c, close = some c → ∀ span ∈ timetable limit jobs, span.begun ≠ some c) :
    AllOver (relevant close (timetable limit jobs)) s.now := by
  intro span hspan
  obtain ⟨hmem, hcount⟩ := mem_relevant.mp hspan
  obtain ⟨i, hi⟩ := List.mem_iff_getElem?.mp hmem
  obtain ⟨was, record, hwas, -, hfits⟩ := h.fits i span hi
  have hover := (active_none ht).mp hn i was hwas
  cases hfits with
  | waits pending =>
    rw [TaskStatus.over_iff, pending] at hover
    cases hover
  | runs => cases hover
  | ends begun ended past => simp [Span.isOver, ended, past]
  | drops closed past later =>
    exact absurd (begun_at (hcount _ closed) later) (hb _ closed span hmem)

/-- When all that count are over, no tracked task is left, unless one begins or ends just then. -/
theorem over_idle (h : Keeps limit jobs close s) (ht : Tended s.pool)
    (ho : AllOver (relevant close (timetable limit jobs)) s.now)
    (hc : ∀ c, close = some c → c = soft) (hn : close = none → s.now = soft)
    (hb : ∀ span ∈ timetable limit jobs, span.begun ≠ some soft)
    (he : ∀ span ∈ relevant close (timetable limit jobs), span.ended ≠ some s.now) :
    s.pool.active = 0 := by
  rw [active_none ht]
  intro i was hwas
  by_cases hi : i < jobs.length
  · obtain ⟨span, hspan⟩ : ∃ span, (timetable limit jobs)[i]? = some span :=
      ⟨_, List.getElem?_eq_getElem (timetable_length limit jobs ▸ hi)⟩
    have hmem := List.mem_of_getElem? hspan
    obtain ⟨was', record, hwas', -, hfits⟩ := h.fits i span hspan
    rw [hwas, Option.some.injEq] at hwas'
    subst hwas'
    cases hfits with
    | waits _ later still =>
      have hnow : s.now = soft := by
        cases close with
        | none => exact hn rfl
        | some c => exact (still c rfl).trans (hc c rfl)
      have hall := begun_over h.arrived fun other hother hbegun =>
        ho other (mem_relevant.mpr ⟨hother, fun c hclose => by rwa [hc c hclose, ← hnow]⟩)
      obtain ⟨job, -, hserves⟩ := timetable_serves hspan
      have hbegun := begun_at (over_begun hserves (hall span hmem)) later
      exact absurd (hnow ▸ hbegun) (hb span hmem)
    | @runs b begun past early later =>
      have hcounts : span ∈ relevant close (timetable limit jobs) := mem_relevant.mpr
        ⟨hmem, fun c hclose => by simp [Span.hasBegun, begun, early c hclose]⟩
      have hover := ho span hcounts
      cases hend : span.ended with
      | none => simp [Span.isOver, hend] at hover
      | some e =>
        have hle : e ≤ s.now := by simpa [Span.isOver, hend] using hover
        have hnow : e = s.now := Nat.le_antisymm hle (later e hend)
        exact absurd (hnow ▸ hend) (he span hcounts)
    | ends | drops => rfl
  · rw [h.beyond i was (by omega) hwas]
    rfl

/-- What a drain of a pool that is shut down comes to. It needs a turn with room for all tracked
tasks only if it has no time at all. -/
structure Drains (limit : Nat) (jobs : List Job) (close : Option Nat) (start duration : Nat)
    (s t : Schedule) (drained : Bool) : Prop where
  waiting : Waiting limit jobs close start (s.now + duration) t
  running : Running t
  answer : drained = true ↔ AllOver (relevant close (timetable limit jobs)) (s.now + duration) ∧
    (duration = 0 → s.pool.tracked.length ≤ turn s.budget)
  idle : drained = true → t.pool.active = 0
  onTime : drained = true → t.now = lastEnd start (relevant close (timetable limit jobs))
  atLast : drained = false → t.now = s.now + duration
  bound : t.now ≤ s.now + duration
  noted : drained = false → duration = 0 →
    AllOver (relevant close (timetable limit jobs)) s.now →
    t.budget = 0 ∧ t.pool.tracked.length + turn s.budget = s.pool.tracked.length

theorem drains (hs : Running s) (hd : s.drain duration = (t, drained)) (hstart : s.now = start)
    (h : Waiting limit jobs close start (s.now + duration) s)
    (hc : ∀ c, close = some c → c = soft) (hn : close = none → s.now + duration = soft)
    (hb : ∀ span ∈ timetable limit jobs, span.begun ≠ some soft)
    (he : ∀ span ∈ relevant close (timetable limit jobs), span.ended ≠ some (s.now + duration)) :
    Drains limit jobs close start duration s t drained := by
  have hends := drain_ends hs hd
  have hlasting := waiting_lasts limit jobs close start (s.now + duration)
  have hwaits : Waiting limit jobs close start (s.now + duration) t := by
    have hkept := drain_lasts hlasting hs h
    rwa [hd] at hkept
  have hover : ∀ u, Waiting limit jobs close start (s.now + duration) u → u.pool.active = 0 →
      AllOver (relevant close (timetable limit jobs)) u.now := fun u hu hnone =>
    idle_over hu.toKeeps hu.tended hnone fun c hclose => hc c hclose ▸ hb
  have hback : ∀ u, Waiting limit jobs close start (s.now + duration) u → u.now = s.now + duration →
      AllOver (relevant close (timetable limit jobs)) u.now → u.pool.active = 0 :=
    fun u hu hnow hall => over_idle hu.toKeeps hu.tended hall hc (fun hclose => hnow ▸ hn hclose) hb
      (hnow ▸ he)
  have hnone : drained = true → t.pool.active = 0 := fun htrue => by
    have hle := active_le t.pool
    rw [hends.none htrue] at hle
    exact Nat.le_zero.mp hle
  by_cases hzero : duration = 0
  · subst hzero
    obtain ⟨hnow, u, hunow, hlasts, hanswer, hnoted⟩ := drain_now hs hd
    have hu := hlasts _ hlasting h
    have hall : u.pool.active = 0 ↔
        AllOver (relevant close (timetable limit jobs)) s.now := by
      rw [← hunow]
      exact ⟨hover u hu, hback u hu (by omega)⟩
    refine ⟨hwaits, hends.running, ?_, hnone, fun htrue => ?_, fun _ => hnow, Nat.le_of_eq hnow,
      fun hfalse _ ho => hnoted hfalse (hall.mpr ho)⟩
    · rw [hanswer, hall]
      simp
    · refine lastEnd_at hwaits.since ?_ (.inl (hnow.trans hstart))
      rw [hnow]
      exact hall.mp (hanswer.mp htrue).1
  · obtain ⟨hbefore, hafter⟩ := drain_timely hs (by omega) hd
    refine ⟨hwaits, hends.running, ⟨fun htrue => ⟨?_, fun hz => absurd hz hzero⟩, fun hall => ?_⟩,
      hnone, fun htrue => ?_, fun hfalse => (hafter hfalse).1, ?_, fun _ hz => absurd hz hzero⟩
    · exact all_over_mono (hover t hwaits (hnone htrue)) (Nat.le_of_lt (hbefore htrue))
    · cases drained with
      | true => rfl
      | false =>
        obtain ⟨hnow, hactive⟩ := hafter rfl
        have hidle := hback t hwaits hnow (hnow ▸ hall.1)
        have hleft := List.length_pos_iff.mpr (hends.left rfl).1
        omega
    · have hlt := hbefore htrue
      have hstops : t.now = start ∨ ∃ span ∈ relevant close (timetable limit jobs),
          span.ended = some t.now := hwaits.stops.imp_right fun hrest =>
        hrest.resolve_left (by omega)
      exact lastEnd_at hwaits.since (hover t hwaits (hnone htrue)) hstops
    · cases drained with
      | true => exact Nat.le_of_lt (hbefore rfl)
      | false => exact Nat.le_of_eq (hafter rfl).1

end
end Schedule
end Wiretap.Pool
