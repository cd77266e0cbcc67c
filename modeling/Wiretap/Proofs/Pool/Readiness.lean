import Mathlib.Algebra.Order.BigOperators.Group.List
import Mathlib.Algebra.Order.Ring.Nat
import Wiretap.Pool.Schedule
import Wiretap.Proofs.Pool.Life

/-!
# The tasks of a schedule that can go on

Whatever a schedule does, the tasks that can go on are ready, so time passes only
when there is none, and what the tasks do meanwhile is part of the life of their
pool. What is left to be done only shrinks, so a wait ends with what it waits for
or with the alarm, and never for want of fuel.
-/

set_option autoImplicit false

namespace Wiretap

def TaskStatus.weight (closed later : Bool) : TaskStatus → Nat
  | .submitted => 3
  | .queued => if closed then 0 else 3
  | .handed => 2
  | .running => if later then 2 else 0
  | _ => 0

theorem TaskStatus.weight_le (closed later : Bool) (was : TaskStatus) :
    was.weight closed later ≤ 3 := by
  cases was <;> cases closed <;> cases later <;> decide

namespace Pool

theorem goes_weight {p : Pool} {was next : TaskStatus} (h : Goes p was next)
    (before later : Bool) : next.weight p.closed later ≤ was.weight p.closed before := by
  cases h with
  | runs | starts => cases later <;> simp [TaskStatus.weight]
  | queues => exact TaskStatus.weight_le p.closed later .queued
  | drops => exact Nat.zero_le _

namespace Schedule

def isLater (s : Schedule) (i : Nat) : Bool := (s.due i).any (s.now < ·)

def weight (s : Schedule) (i : Nat) : Nat :=
  (s.pool.status i).elim 0 (TaskStatus.weight s.pool.closed (s.isLater i))

def effort (s : Schedule) : Nat :=
  s.ready.length + ((List.range s.plans.length).map s.weight).sum

def CanGoOn (s : Schedule) (i : Nat) : Prop :=
  (s.pool.resume i).isSome = true ∨ ∃ d, s.due i = some d ∧ d ≤ s.now

def Prompt (s : Schedule) : Prop := ∀ i, CanGoOn s i → i ∈ s.ready

def life (s : Schedule) (mode : Mode) : Life := ⟨s.now, s.pool, mode, 0⟩

def Lives (l m : Life) : Prop :=
  ∃ turns log, runAll (Life.step .prompt) turns l = some (m, log)

structure Steady (s : Schedule) : Prop where
  fair : Fair s.pool
  plans : s.plans.length = s.pool.tasks.length
  records : s.records.length = s.pool.tasks.length
  tracked : s.pool.tracked.length ≤ s.pool.tasks.length

section
variable {s t u : Schedule} {i j n : Nat} {q : Pool} {was : TaskStatus} {d : Nat}
  {l m k : Life} {turn : Turn} {deeds : List (Nat × Deed)}

theorem lives_refl (l : Life) : Lives l l := ⟨[], [], rfl⟩

theorem lives_trans (h : Lives l m) (hm : Lives m k) : Lives l k := by
  obtain ⟨turns, log, hrun⟩ := h
  obtain ⟨others, more, hmore⟩ := hm
  exact ⟨turns ++ others, log ++ more, run_append hrun hmore⟩

theorem lives_step (h : l.step .prompt turn = some (m, deeds)) : Lives l m :=
  ⟨[turn], deeds ++ [], by simp [runAll, h]⟩

theorem due_running (h : s.due i = some d) : s.pool.status i = some .running := by
  simp only [due, Option.bind_eq_bind, Option.bind_eq_some_iff] at h
  obtain ⟨was, hwas, record, -, plan, -, h⟩ := h
  by_cases hr : was = .running
  · rw [hwas, hr]
  · simp [hr] at h

theorem due_same (hs : t.pool.status i = s.pool.status i) (hr : t.records[i]? = s.records[i]?)
    (hp : t.plans[i]? = s.plans[i]?) : t.due i = s.due i := by
  simp only [due, hs, hr, hp]

theorem due_plan (h : s.due i = some d) : ∃ plan, s.plans[i]? = some plan := by
  simp only [due, Option.bind_eq_bind, Option.bind_eq_some_iff] at h
  obtain ⟨was, -, record, -, plan, hplan, -⟩ := h
  exact ⟨plan, hplan⟩

theorem resume_some (h : s.pool.resume i = some q) :
    ∃ f, s.resume i = some { s with pool := q, records := s.records.modify i f } := by
  have hid : s.records.modify i id = s.records := List.modify_id i s.records
  simp only [resume, h, Option.bind_eq_bind, Option.bind_some]
  split
  · exact ⟨_, rfl⟩
  · exact ⟨_, rfl⟩
  · exact ⟨id, by rw [hid]⟩

theorem resume_none (h : s.pool.resume i = none) : s.resume i = none := by
  rw [resume, h]
  rfl

theorem finish_some (h : s.pool.finish i = some q) (hd : s.due i = some d) (hn : d ≤ s.now) :
    ∃ f, s.finish i = some { s with
      pool := q
      ready := s.ready ++ s.pool.queue.take 1
      records := s.records.modify i f } := by
  obtain ⟨plan, hplan⟩ := due_plan hd
  have hany : (s.due i).any (· ≤ s.now) = true := by simp [hd, hn]
  rw [finish, if_pos hany, hplan, h]
  by_cases hp : plan.panics = true
  · exact ⟨_, by simp [hp]; rfl⟩
  · exact ⟨_, by simp [hp]; rfl⟩

theorem finish_none (h : ∀ d, s.due i = some d → s.now < d) : s.finish i = none := by
  have hnot : ¬ (s.due i).any (· ≤ s.now) = true := by
    cases hd : s.due i with
    | none => simp
    | some d => simpa using h d hd
  rw [finish, if_neg hnot]

/-- A task ends when it is due, and otherwise nothing comes of it. -/
theorem finish_cases (s : Schedule) (i : Nat) :
    (∀ d, s.due i = some d → s.now < d) ∧ s.finish i = none ∨
      ∃ d q plan, s.due i = some d ∧ d ≤ s.now ∧ s.plans[i]? = some plan ∧
        s.pool.finish i = some q := by
  by_cases hd : ∃ d, s.due i = some d ∧ d ≤ s.now
  · obtain ⟨d, hd, hn⟩ := hd
    obtain ⟨q, hq⟩ := finish_running (due_running hd)
    obtain ⟨plan, hplan⟩ := due_plan hd
    exact .inr ⟨d, q, plan, hd, hn, hplan, hq⟩
  · have hlater : ∀ d, s.due i = some d → s.now < d := fun d hdue => by
      by_cases hle : d ≤ s.now
      · exact absurd ⟨d, hdue, hle⟩ hd
      · omega
    exact .inl ⟨hlater, finish_none hlater⟩

theorem sum_le {l : List Nat} {f g c : Nat → Nat} (h : ∀ i ∈ l, f i + c i ≤ g i) :
    (l.map f).sum + (l.map c).sum ≤ (l.map g).sum := by
  rw [← List.sum_map_add]
  exact List.sum_le_sum h

theorem sum_indicator (l : List Nat) (kind : Nat → Bool) (n : Nat) :
    (l.map (fun i => if kind i then n else 0)).sum = n * (l.filter kind).length := by
  rw [List.sum_map_ite]
  simp [Nat.mul_comm]

theorem effort_le (hr : t.ready = s.ready) (hp : t.plans = s.plans)
    (h : ∀ j < s.plans.length, t.weight j ≤ s.weight j) : t.effort ≤ s.effort := by
  rw [effort, effort, hr, hp]
  exact Nat.add_le_add_left (List.sum_le_sum fun j hj => h j (List.mem_range.mp hj)) _

theorem weight_same (hs : t.pool.status j = s.pool.status j) (hc : t.pool.closed = s.pool.closed)
    (hd : t.due j = s.due j) (hn : t.now = s.now) : t.weight j = s.weight j := by
  simp only [weight, isLater, hs, hc, hd, hn]

theorem kept_steady {f : Record → Record} {ready : List Nat} (hs : Steady s) (hf : Fair q)
    (hk : Kept s.pool q) :
    Steady { s with pool := q, ready, records := s.records.modify i f } := by
  refine ⟨hf, hs.plans.trans hk.length.symm, ?_, ?_⟩
  · show (s.records.modify i f).length = q.tasks.length
    rw [List.length_modify, hk.length, hs.records]
  · show q.tracked.length ≤ q.tasks.length
    rw [hk.tracked, hk.length]
    exact hs.tracked

theorem goes_same (hs : t.pool.status j = s.pool.status j) (hc : t.pool.closed = s.pool.closed)
    (hd : t.due j = s.due j) (hn : t.now = s.now) (h : CanGoOn t j) : CanGoOn s j := by
  rw [CanGoOn, resume_isSome, hs, hc, hd, hn] at h
  rw [CanGoOn, resume_isSome]
  exact h

structure Later (s t : Schedule) : Prop where
  steady : Steady t
  now : t.now = s.now
  plans : t.plans = s.plans
  budget : t.budget = s.budget
  tracked : t.pool.tracked = s.pool.tracked
  effort : t.effort ≤ s.effort
  lives : ∀ mode, Lives (s.life mode) (t.life mode)

theorem later_refl (hs : Steady s) : Later s s :=
  ⟨hs, rfl, rfl, rfl, rfl, Nat.le_refl _, fun mode => lives_refl (s.life mode)⟩

theorem later_trans (h : Later s t) (ht : Later t u) : Later s u :=
  ⟨ht.steady, ht.now.trans h.now, ht.plans.trans h.plans, ht.budget.trans h.budget,
    ht.tracked.trans h.tracked, Nat.le_trans ht.effort h.effort,
    fun mode => lives_trans (h.lives mode) (ht.lives mode)⟩

theorem resume_later (hs : Steady s) (ht : (s.resume i).getD s = t) :
    Later s t ∧ t.ready = s.ready ∧ (t.pool.resume i).isSome = false ∧
      ∀ j, i ≠ j → CanGoOn t j → CanGoOn s j := by
  cases hr : s.pool.resume i with
  | none =>
    rw [resume_none hr, Option.getD_none] at ht
    subst ht
    exact ⟨later_refl hs, rfl, by rw [hr]; rfl, fun _ _ hj => hj⟩
  | some q =>
    obtain ⟨f, hf⟩ := resume_some hr
    rw [hf, Option.getD_some] at ht
    subst ht
    have hm := resume_move hr
    have hk := resume_kept hm
    have hother : ∀ j, i ≠ j → q.status j = s.pool.status j := fun j hij =>
      resume_other hs.fair.toOrderly hm hij
    have hdue : ∀ j, i ≠ j → ({ s with pool := q, records := s.records.modify i f }).due j =
        s.due j := fun j hij =>
      due_same (hother j hij) (List.getElem?_modify_ne f s.records hij) rfl
    obtain ⟨was, next, hwas, hnext, hgo⟩ := resume_self hs.fair hm
    refine ⟨⟨kept_steady hs (move_fair hs.fair hm) hk, rfl, rfl, rfl, hk.tracked,
      effort_le rfl rfl fun j _ => ?_, fun mode => lives_step (Life.poll_step hr hnext)⟩, rfl, ?_,
      fun j hij hj => goes_same (hother j hij) hk.closed (hdue j hij) rfl hj⟩
    · by_cases hij : i = j
      · subst hij
        simp only [weight, hnext, hwas, hk.closed, Option.elim_some]
        exact goes_weight hgo _ _
      · exact Nat.le_of_eq (weight_same (hother j hij) hk.closed (hdue j hij) rfl)
    · show (q.resume i).isSome = false
      rw [resume_isSome, hnext, hk.closed]
      exact goes_once hgo

theorem take_length (queue : List Nat) (h : ∀ k ∈ queue, k < n) :
    (queue.take 1).length ≤
      ((List.range n).map (fun j => if queue.head? = some j then 1 else 0)).sum := by
  have hsum := sum_indicator (List.range n) (fun j => queue.head? = some j) 1
  simp only [decide_eq_true_eq, Nat.one_mul] at hsum
  rw [hsum]
  cases queue with
  | nil => exact Nat.zero_le _
  | cons k queue =>
    have hk : k ∈ List.range n := List.mem_range.mpr (h k List.mem_cons_self)
    exact List.length_filter_pos_iff.mpr ⟨k, hk, by simp⟩

/-- A task that is due ends, and the one that has waited longest is ready. -/
theorem finish_later (hs : Steady s) (hstill : (s.pool.resume i).isSome = false)
    (ht : (s.finish i).getD s = t) :
    Later s t ∧ s.ready ⊆ t.ready ∧ ¬ CanGoOn t i ∧
      ∀ j, i ≠ j → CanGoOn t j → j ∈ t.ready ∨ CanGoOn s j := by
  obtain ⟨hlater, hnone⟩ | ⟨d, q, plan, hd, hn, -, hq⟩ := finish_cases s i
  · rw [hnone, Option.getD_none] at ht
    subst ht
    refine ⟨later_refl hs, List.Subset.refl _, ?_, fun _ _ hj => .inr hj⟩
    rintro (hr | ⟨d, hd, hn⟩)
    · rw [hstill] at hr
      cases hr
    · have hlt := hlater d hd
      omega
  · obtain ⟨f, hf⟩ := finish_some hq hd hn
    rw [hf, Option.getD_some] at ht
    subst ht
    have hm := finish_move false hq
    have hk := finish_kept hm
    obtain ⟨hwas, hnext⟩ := finish_self hs.fair.toOrderly hm
    have hdue : ∀ j, i ≠ j → q.status j = s.pool.status j →
        ({ s with
          pool := q
          ready := s.ready ++ s.pool.queue.take 1
          records := s.records.modify i f } : Schedule).due j = s.due j := fun j hij hj =>
      due_same hj (List.getElem?_modify_ne f s.records hij) rfl
    refine ⟨⟨kept_steady hs (move_fair hs.fair hm) hk, rfl, rfl, rfl, hk.tracked, ?_,
      fun mode => lives_step (Life.finish_step hq false)⟩, List.subset_append_left _ _, ?_,
      fun j hij hj => ?_⟩
    rotate_left
    · rintro (hr | ⟨d, hd, -⟩)
      · have hr : (q.resume i).isSome = true := hr
        rw [resume_isSome, hnext] at hr
        cases hr
      · have hrun : q.status i = some .running := due_running hd
        rw [hnext] at hrun
        cases hrun
    · rcases finish_other hs.fair hm hij with ⟨-, hsame⟩ | ⟨hhead, -, -⟩
      · exact .inr (goes_same hsame hk.closed (hdue j hij hsame) rfl hj)
      · refine .inl (List.mem_append_right _ ?_)
        rw [List.head?_eq_some_iff] at hhead
        obtain ⟨rest, hrest⟩ := hhead
        simp [hrest]
    · have hlt : ∀ k ∈ s.pool.queue, k < s.plans.length := fun k hkq =>
        hs.plans ▸ (List.getElem?_eq_some_iff.mp (hs.fair.queued k hkq)).1
      -- The task that becomes ready has less to do, since the permit was handed to it.
      have htake := take_length s.pool.queue hlt
      have hsum := sum_le (l := List.range s.plans.length) (g := s.weight)
        (f := ({ s with
          pool := q
          ready := s.ready ++ s.pool.queue.take 1
          records := s.records.modify i f } : Schedule).weight)
        (c := fun j => if s.pool.queue.head? = some j then 1 else 0) (fun j _ => ?_)
      · simp only [effort, List.length_append]
        omega
      · by_cases hij : i = j
        · subst hij
          have hhead : s.pool.queue.head? ≠ some i := fun he => by
            rw [hs.fair.queued i (List.mem_of_mem_head? he)] at hwas
            cases hwas
          simp [weight, hnext, hhead, TaskStatus.weight]
        · rcases finish_other hs.fair hm hij with ⟨hhead, hsame⟩ | ⟨hhead, hqueued, hhanded⟩
          · rw [if_neg hhead]
            exact Nat.le_of_eq (weight_same hsame hk.closed (hdue j hij hsame) rfl)
          · have hc : s.pool.closed = false := by
              by_cases hc : s.pool.closed = true
              · simp [hs.fair.closed hc] at hhead
              · simpa using hc
            simp [weight, hhead, hhanded, hqueued, hc, TaskStatus.weight]

theorem goOn_later (hs : Steady s) (i : Nat) : Later s (s.goOn i) ∧ s.ready ⊆ (s.goOn i).ready ∧
    ∀ j, CanGoOn (s.goOn i) j → j ∈ (s.goOn i).ready ∨ i ≠ j ∧ CanGoOn s j := by
  obtain ⟨ht, hready, hstill, hother⟩ := resume_later hs rfl (i := i)
  obtain ⟨hu, hready', hnot, hother'⟩ := finish_later ht.steady hstill rfl
  refine ⟨later_trans ht hu, hready ▸ hready', fun j hj => ?_⟩
  by_cases hij : i = j
  · exact absurd (hij ▸ hj) hnot
  · exact (hother' j hij hj).imp_right fun hgo => ⟨hij, hother j hij hgo⟩

/-- The first of the tasks that are ready goes on. -/
theorem popped_later {ready : List Nat} (hs : Steady s) (hp : Prompt s)
    (hr : s.ready = i :: ready) : Later s ({ s with ready }.goOn i) ∧
      Prompt ({ s with ready }.goOn i) ∧ ({ s with ready }.goOn i).effort < s.effort := by
  have hpopped : Steady { s with ready } := ⟨hs.fair, hs.plans, hs.records, hs.tracked⟩
  have heffort : ({ s with ready } : Schedule).effort + 1 = s.effort := by
    have hweights : ({ s with ready } : Schedule).weight = s.weight := rfl
    simp only [effort, hr, hweights, List.length_cons]
    omega
  obtain ⟨ht, hready, hgo⟩ := goOn_later hpopped i
  have hless := ht.effort
  refine ⟨⟨ht.steady, ht.now, ht.plans, ht.budget, ht.tracked, by omega, ht.lives⟩,
    fun j hj => ?_, by omega⟩
  rcases hgo j hj with hmem | ⟨hij, hold⟩
  · exact hmem
  · have hmem : j ∈ i :: ready := hr ▸ hp j hold
    exact hready ((List.mem_cons.mp hmem).resolve_left (Ne.symm hij))

theorem round_later (hs : Steady s) (hp : Prompt s) (n : Nat) :
    Later s (s.round n) ∧ Prompt (s.round n) := by
  induction n generalizing s with
  | zero => exact ⟨later_refl hs, hp⟩
  | succ n ih =>
    rw [round]
    split
    · exact ⟨later_refl hs, hp⟩
    · rename_i i ready hr
      obtain ⟨hw, hprompt, -⟩ := popped_later hs hp hr
      obtain ⟨hrest, hlast⟩ := ih hw.steady hprompt
      exact ⟨later_trans hw hrest, hlast⟩

theorem round_effort (hs : Steady s) (hp : Prompt s) (hr : (s.round roundLength).ready ≠ []) :
    (s.round roundLength).effort < s.effort := by
  unfold roundLength at *
  rw [round] at *
  split at hr <;> rename_i hready
  · exact absurd hready hr
  · rename_i i ready
    obtain ⟨hw, hprompt, hlt⟩ := popped_later hs hp hready
    exact Nat.lt_of_le_of_lt (round_later hw.steady hprompt 60).1.effort hlt

theorem prompt_due (hp : Prompt s) (hr : s.ready = []) (h : s.due i = some d) : s.now < d := by
  by_cases hle : d ≤ s.now
  · have hmem := hp i (.inr ⟨d, h, hle⟩)
    rw [hr] at hmem
    exact absurd hmem List.not_mem_nil
  · omega

theorem due_lt (hs : Steady s) (h : s.due i = some d) : i < s.plans.length :=
  hs.plans ▸ (List.getElem?_eq_some_iff.mp (due_running h)).1

theorem prompt_idle (hp : Prompt s) (hr : s.ready = []) : s.pool.isIdle = true := by
  refine List.all_eq_true.mpr fun i _ => ?_
  by_cases hres : (s.pool.resume i).isSome = true
  · have hmem := hp i (.inl hres)
    rw [hr] at hmem
    exact absurd hmem List.not_mem_nil
  · simpa using hres

theorem advance_lives {time : Nat} (hp : Prompt s) (hr : s.ready = []) (hn : s.now ≤ time)
    (mode : Mode) : Lives (s.life mode) ((s.advance time).life mode) := by
  have hpass : (s.life mode).step .prompt (.pass (time - s.now)) =
      some ((s.advance time).life mode, []) := by
    have hlater : s.now + (time - s.now) = time := by omega
    simp [Life.step, Life.act, life, Clock.lets, prompt_idle hp hr, advance, hlater]
  exact lives_step hpass

/-- The tasks that end at a moment become ready as time comes to it. -/
theorem advance_effort {time : Nat} (hs : Steady s) (hp : Prompt s) (hr : s.ready = [])
    (hd : ∀ i d, s.due i = some d → time ≤ d) :
    Steady (s.advance time) ∧ Prompt (s.advance time) ∧
      (s.advance time).effort + (s.advance time).ready.length ≤ s.effort := by
  have hdue : ∀ i, (s.advance time).due i = s.due i := fun i => due_same rfl rfl rfl
  have hready : (s.advance time).ready =
      (List.range s.plans.length).filter (fun i => s.due i == some time) := by
    simp [advance, hr]
  refine ⟨⟨hs.fair, hs.plans, hs.records, hs.tracked⟩, fun i hi => ?_, ?_⟩
  · rcases hi with hres | ⟨d, hd', hle⟩
    · have hmem := hp i (.inl hres)
      rw [hr] at hmem
      exact absurd hmem List.not_mem_nil
    · rw [hdue] at hd'
      have hle : d ≤ time := hle
      have heq : d = time := by have := hd i d hd'; omega
      rw [hready, List.mem_filter]
      exact ⟨List.mem_range.mpr (due_lt hs hd'), by simp [hd', heq]⟩
  · have hsum := sum_le (l := List.range s.plans.length) (f := (s.advance time).weight)
      (g := s.weight) (c := fun i => if s.due i == some time then 2 else 0) (fun i _ => ?_)
    · rw [sum_indicator] at hsum
      simp only [effort, hready, hr, List.length_nil]
      have hplans : (s.advance time).plans = s.plans := rfl
      rw [hplans]
      omega
    · cases hi : s.due i with
      | none =>
        have hsame : (s.advance time).weight i = s.weight i := by
          simp only [weight, isLater, hdue, hi]
          rfl
        simp [hsame]
      | some d =>
        have hrun := due_running hi
        have hnow := prompt_due hp hr hi
        have hrun' : (s.advance time).pool.status i = some .running := hrun
        have htime : (s.advance time).now = time := rfl
        have hbefore : s.weight i = 2 := by
          simp [weight, isLater, hi, hrun, hnow, TaskStatus.weight]
        have hafter : (s.advance time).weight i = if time < d then 2 else 0 := by
          simp [weight, isLater, hdue, hi, hrun', htime, TaskStatus.weight]
        rw [hbefore, hafter]
        by_cases heq : d = time
        · simp [heq]
        · simp only [beq_iff_eq, Option.some.injEq, if_neg heq]
          split <;> omega

def nextTime (s : Schedule) (alarm : Nat) : Nat := s.nextDue.elim alarm (min alarm)

theorem nextTime_le (s : Schedule) (alarm : Nat) : s.nextTime alarm ≤ alarm := by
  unfold nextTime
  cases s.nextDue with
  | none => exact Nat.le_refl _
  | some n => exact Nat.min_le_left _ _

theorem nextTime_due {alarm : Nat} (hs : Steady s) (hi : s.due i = some d) :
    s.nextTime alarm ≤ d := by
  have hmem : d ∈ (List.range s.plans.length).filterMap s.due :=
    List.mem_filterMap.mpr ⟨i, List.mem_range.mpr (due_lt hs hi), hi⟩
  unfold nextTime
  cases hn : s.nextDue with
  | none =>
    rw [nextDue, List.min?_eq_none_iff] at hn
    rw [hn] at hmem
    exact absurd hmem List.not_mem_nil
  | some n => exact Nat.le_trans (Nat.min_le_right _ _) ((List.min?_eq_some_iff.mp hn).2 d hmem)

theorem nextTime_lt {alarm : Nat} (h : s.nextTime alarm ≠ alarm) :
    ∃ i < s.plans.length, s.due i = some (s.nextTime alarm) := by
  unfold nextTime at h ⊢
  cases hn : s.nextDue with
  | none => simp [hn] at h
  | some n =>
    obtain ⟨i, hi, hd⟩ := List.mem_filterMap.mp (List.min?_mem hn)
    have hmin : min alarm n = n := by
      simp only [hn, Option.elim_some] at h
      omega
    exact ⟨i, List.mem_range.mp hi, by rw [Option.elim_some, hmin, hd]⟩

theorem nextTime_later {alarm : Nat} (hp : Prompt s) (hr : s.ready = [])
    (ha : s.now < alarm) : s.now < s.nextTime alarm := by
  by_cases h : s.nextTime alarm = alarm
  · omega
  · obtain ⟨i, -, hi⟩ := nextTime_lt h
    exact prompt_due hp hr hi

/-- When time has passed less is left to be done, unless it was the alarm. -/
theorem nextTime_went (alarm : Nat) (hs : Steady s) (hp : Prompt s) (hr : s.ready = []) :
    Steady (s.advance (s.nextTime alarm)) ∧ Prompt (s.advance (s.nextTime alarm)) ∧
      (s.advance (s.nextTime alarm)).effort ≤ s.effort ∧
      (s.nextTime alarm ≠ alarm → (s.advance (s.nextTime alarm)).effort < s.effort) := by
  obtain ⟨hsteady, hprompt, heffort⟩ := advance_effort hs hp hr
    (fun i d hd => nextTime_due hs hd)
  refine ⟨hsteady, hprompt, by omega, fun htime => ?_⟩
  obtain ⟨i, hi, hd⟩ := nextTime_lt htime
  have hmem : i ∈ (s.advance (s.nextTime alarm)).ready :=
    List.mem_append_right _ (List.mem_filter.mpr ⟨List.mem_range.mpr hi, by simp [hd]⟩)
  have hlength := List.length_pos_of_mem hmem
  omega

structure Waited (s t : Schedule) (alarm : Nat) : Prop where
  steady : Steady t
  prompt : Prompt t
  plans : t.plans = s.plans
  budget : t.budget = turnLength
  tracked : t.pool.tracked = s.pool.tracked
  effort : t.effort ≤ s.effort
  bound : t.now ≤ alarm
  lives : ∀ mode, Lives (s.life mode) (t.life mode)

theorem turn_waited {alarm : Nat} (h : Later s t) (hp : Prompt t) (ha : t.now ≤ alarm) :
    Waited s t.newTurn alarm :=
  ⟨⟨h.steady.fair, h.steady.plans, h.steady.records, h.steady.tracked⟩, hp, h.plans, rfl,
    h.tracked, h.effort, ha, h.lives⟩

theorem passed_waited {time alarm : Nat} (h : Later s t) (hp : Prompt t) (hr : t.ready = [])
    (hn : t.now ≤ time) (he : (t.advance time).effort ≤ t.effort)
    (hw : Waited (t.advance time) u alarm) : Waited s u alarm :=
  ⟨hw.steady, hw.prompt, hw.plans.trans h.plans, hw.budget, hw.tracked.trans h.tracked,
    Nat.le_trans (Nat.le_trans hw.effort he) h.effort, hw.bound, fun mode =>
      lives_trans (lives_trans (h.lives mode) (advance_lives hp hr hn mode)) (hw.lives mode)⟩

/-- A wait with enough fuel ends with what it waits for, or with the alarm. -/
theorem waitFrom_ends {awaited : Pool → Bool} {alarm fuel : Nat} (hs : Steady s) (hp : Prompt s)
    (ha : s.now < alarm) (hf : s.effort < fuel) :
    Waited s (s.waitFrom awaited alarm fuel) alarm ∧
      (awaited (s.waitFrom awaited alarm fuel).pool = true ∨
        (s.waitFrom awaited alarm fuel).now = alarm) := by
  -- A round that leaves tasks ready lowers the effort, and so does time that passes.
  induction fuel generalizing s with
  | zero => omega
  | succ fuel ih =>
    obtain ⟨hw, hprompt⟩ := round_later hs hp roundLength
    have hnow : (s.round roundLength).now < alarm := hw.now ▸ ha
    rw [waitFrom]
    by_cases hawaited : awaited (s.round roundLength).pool = true
    · simp only [hawaited, if_true]
      exact ⟨turn_waited hw hprompt (Nat.le_of_lt hnow), .inl hawaited⟩
    by_cases hready : (s.round roundLength).ready = []
    · have hnext : (s.round roundLength).nextDue.elim alarm (min alarm) =
        (s.round roundLength).nextTime alarm := rfl
      simp only [hawaited, hready, List.isEmpty_nil, Bool.not_true, if_false, Bool.false_eq_true]
      rw [hnext]
      have hpassed := Nat.le_of_lt (nextTime_later hprompt hready hnow)
      have hbound := (s.round roundLength).nextTime_le alarm
      obtain ⟨hsteady, hthen, heffort, hless⟩ := nextTime_went alarm hw.steady hprompt hready
      by_cases htime : (s.round roundLength).nextTime alarm = alarm
      · rw [if_pos htime]
        exact ⟨passed_waited hw hprompt hready hpassed heffort
          (turn_waited (later_refl hsteady) hthen hbound), .inr htime⟩
      · rw [if_neg htime]
        have hbefore : (s.round roundLength).nextTime alarm < alarm := by omega
        have hfuel := hless htime
        have hle := hw.effort
        obtain ⟨hwaited, hend⟩ := ih hsteady hthen hbefore (by omega)
        exact ⟨passed_waited hw hprompt hready hpassed heffort hwaited, hend⟩
    · have hlt := round_effort hs hp hready
      have hne : (s.round roundLength).ready.isEmpty = false := by simpa using hready
      simp only [hawaited, hne, Bool.not_false, if_true, if_false, Bool.false_eq_true]
      obtain ⟨hwaited, hend⟩ := ih hw.steady hprompt hnow (by omega)
      exact ⟨⟨hwaited.steady, hwaited.prompt, hwaited.plans.trans hw.plans, hwaited.budget,
        hwaited.tracked.trans hw.tracked, Nat.le_trans hwaited.effort hw.effort, hwaited.bound,
        fun mode => lives_trans (hw.lives mode) (hwaited.lives mode)⟩, hend⟩

end
end Schedule
end Pool
end Wiretap
