import Wiretap.Proofs.Pool.Schedules

/-!
# What lasts along a schedule

A schedule does four things only: the first task that is ready goes on, time passes
when none is, a turn of the user begins or is used, and notes are taken of tasks that
are over. What each of them keeps lasts through every wait and through a shutdown.
A drain that begins before its deadline ends before it when no task is left, and
otherwise at the deadline, with tasks that are not over.
-/

set_option autoImplicit false

namespace Wiretap.Pool.Schedule

structure Lasting (alarm : Nat) (P : Schedule → Prop) : Prop where
  goes : ∀ s i ready, Steady s → Prompt s → P s → s.ready = i :: ready →
    P ({ s with ready }.goOn i)
  passes : ∀ s, Steady s → Prompt s → P s → s.ready = [] → s.now < alarm →
    P (s.advance (s.nextTime alarm))
  turns : ∀ s n, P s → P { s with budget := n }
  notes : ∀ s n, P s → P (s.withPool (·.forget n))

def turn (budget : Nat) : Nat := if budget = 0 then turnLength else budget

section
variable {s t : Schedule} {P Q : Schedule → Prop} {alarm fuel n : Nat}

theorem lasting_and (hP : Lasting alarm P) (hQ : Lasting alarm Q) :
    Lasting alarm fun s => P s ∧ Q s :=
  ⟨fun s i ready hs hp h hr => ⟨hP.goes s i ready hs hp h.1 hr, hQ.goes s i ready hs hp h.2 hr⟩,
    fun s hs hp h hr ha => ⟨hP.passes s hs hp h.1 hr ha, hQ.passes s hs hp h.2 hr ha⟩,
    fun s n h => ⟨hP.turns s n h.1, hQ.turns s n h.2⟩,
    fun s n h => ⟨hP.notes s n h.1, hQ.notes s n h.2⟩⟩

theorem round_lasts (hl : Lasting alarm P) (hs : Steady s) (hp : Prompt s) (h : P s) (n : Nat) :
    P (s.round n) := by
  induction n generalizing s with
  | zero => exact h
  | succ n ih =>
    rw [round]
    split
    · exact h
    · rename_i i ready hr
      obtain ⟨hw, hprompt, -⟩ := popped_later hs hp hr
      exact ih hw.steady hprompt (hl.goes s i ready hs hp h hr)

theorem pass_lasts (hl : Lasting alarm P) (hs : Running s) (h : P s) : P s.pass :=
  hl.turns _ _ (round_lasts hl hs.toSteady hs.prompt h roundLength)

theorem spend_lasts (hl : Lasting alarm P) (hs : Running s) (h : P s) : P s.spend := by
  unfold spend
  by_cases hb : s.budget = 0
  · rw [if_pos hb]
    exact hl.turns _ _ (pass_lasts hl hs h)
  · rw [if_neg hb]
    exact hl.turns _ _ h

theorem waitFrom_lasts (hl : Lasting alarm P) (hs : Steady s) (hp : Prompt s) (h : P s)
    (ha : s.now < alarm) (awaited : Pool → Bool) (fuel : Nat) :
    P (s.waitFrom awaited alarm fuel) := by
  induction fuel generalizing s with
  | zero => exact h
  | succ fuel ih =>
    obtain ⟨hw, hprompt⟩ := round_later hs hp roundLength
    have hround := round_lasts hl hs hp h roundLength
    have hnow : (s.round roundLength).now < alarm := hw.now ▸ ha
    rw [waitFrom]
    by_cases hawaited : awaited (s.round roundLength).pool = true
    · simp only [hawaited, if_true]
      exact hl.turns _ _ hround
    by_cases hready : (s.round roundLength).ready = []
    · have hnext : (s.round roundLength).nextDue.elim alarm (min alarm) =
        (s.round roundLength).nextTime alarm := rfl
      simp only [hawaited, hready, List.isEmpty_nil, Bool.not_true, if_false, Bool.false_eq_true]
      rw [hnext]
      obtain ⟨hsteady, hthen, -⟩ := nextTime_went alarm hw.steady hprompt hready
      have hpassed := hl.passes _ hw.steady hprompt hround hready hnow
      by_cases htime : (s.round roundLength).nextTime alarm = alarm
      · rw [if_pos htime]
        exact hl.turns _ _ hpassed
      · rw [if_neg htime]
        have hbefore : (s.round roundLength).nextTime alarm < alarm := by
          have := (s.round roundLength).nextTime_le alarm
          omega
        exact ih hsteady hthen hpassed hbefore
    · have hne : (s.round roundLength).ready.isEmpty = false := by simpa using hready
      simp only [hawaited, hne, Bool.not_false, if_true, if_false, Bool.false_eq_true]
      exact ih hw.steady hprompt hround hnow

theorem drainFrom_lasts (hl : Lasting alarm P) (hs : Running s) (h : P s) (fuel : Nat) :
    P (s.drainFrom alarm fuel).1 := by
  induction fuel generalizing s with
  | zero => exact h
  | succ fuel ih =>
    have hnoted := noted_running hs
    have hkept : P s.noted := hl.turns _ _ (hl.notes s _ h)
    rw [drainFrom_succ]
    split
    · exact hkept
    · split
      · exact hl.turns _ _ hkept
      · rename_i hdue
        split
        · exact ih (pass_spent hnoted).running (pass_lasts hl hnoted hkept)
        · rename_i hturn
          have hbudget : s.noted.budget ≤ s.budget := Nat.sub_le _ _
          have hbefore : s.noted.now < alarm := by
            have hnow : s.noted.now = s.now := rfl
            omega
          obtain ⟨hw, -⟩ := wait_ends hnoted hbefore (fun p => p.active < p.tracked.length)
          exact ih (waited_running hnoted hw)
            (waitFrom_lasts hl hnoted.toSteady hnoted.prompt hkept hbefore _ _)

theorem drain_lasts {duration : Nat} (hl : Lasting (s.now + duration) P) (hs : Running s)
    (h : P s) : P (s.drain duration).1 := drainFrom_lasts hl hs h _

/-- A sleep lasts as long as it was asked to. -/
theorem sleep_lasts {duration : Nat} (hl : Lasting (s.now + duration) P) (hs : Running s)
    (h : P s) : P (s.sleep duration) ∧ (s.sleep duration).now = s.now + duration := by
  have hturn : ∃ t, t = (if s.budget = 0 then s.pass else s) ∧ Running t ∧ P t ∧
      t.now = s.now := by
    by_cases hb : s.budget = 0
    · have hp := pass_spent hs
      exact ⟨_, rfl, by rw [if_pos hb]; exact ⟨hp.running, pass_lasts hl hs h, hp.now⟩⟩
    · exact ⟨_, rfl, by rw [if_neg hb]; exact ⟨hs, h, rfl⟩⟩
  obtain ⟨t, ht, hrunning, hkept, hnow⟩ := hturn
  simp only [sleep, ← ht]
  by_cases hlt : t.now < s.now + duration
  · obtain ⟨hw, hend⟩ := wait_ends hrunning hlt (fun _ => false)
    have hwaited := waited_running hrunning hw
    rw [if_pos hlt]
    exact ⟨spend_lasts hl hwaited
        (waitFrom_lasts hl hrunning.toSteady hrunning.prompt hkept hlt _ _),
      (spend_spent hwaited).now.trans (hend.resolve_left Bool.false_ne_true)⟩
  · rw [if_neg hlt]
    exact ⟨spend_lasts hl hrunning hkept, (spend_spent hrunning).now.trans (by omega)⟩

/-- A wait is over before the alarm exactly when it meets what it waits for. -/
theorem waitFrom_timely {awaited : Pool → Bool} (hs : Steady s) (hp : Prompt s)
    (ha : s.now < alarm) (hf : s.effort < fuel) :
    awaited (s.waitFrom awaited alarm fuel).pool = true ∧
        (s.waitFrom awaited alarm fuel).now < alarm ∨
      awaited (s.waitFrom awaited alarm fuel).pool = false ∧
        (s.waitFrom awaited alarm fuel).now = alarm := by
  induction fuel generalizing s with
  | zero => omega
  | succ fuel ih =>
    obtain ⟨hw, hprompt⟩ := round_later hs hp roundLength
    have hnow : (s.round roundLength).now < alarm := hw.now ▸ ha
    rw [waitFrom]
    by_cases hawaited : awaited (s.round roundLength).pool = true
    · simp only [hawaited, if_true]
      exact .inl ⟨hawaited, hnow⟩
    by_cases hready : (s.round roundLength).ready = []
    · have hnext : (s.round roundLength).nextDue.elim alarm (min alarm) =
        (s.round roundLength).nextTime alarm := rfl
      simp only [hawaited, hready, List.isEmpty_nil, Bool.not_true, if_false, Bool.false_eq_true]
      rw [hnext]
      obtain ⟨hsteady, hthen, -, hless⟩ := nextTime_went alarm hw.steady hprompt hready
      by_cases htime : (s.round roundLength).nextTime alarm = alarm
      · rw [if_pos htime]
        have hnot : awaited (s.round roundLength).pool = false := by simpa using hawaited
        exact .inr ⟨hnot, htime⟩
      · rw [if_neg htime]
        have hbound := (s.round roundLength).nextTime_le alarm
        have hbefore : (s.round roundLength).nextTime alarm < alarm := by omega
        have hfuel := hless htime
        have hle := hw.effort
        exact ih hsteady hthen hbefore (by omega)
    · have hlt := round_effort hs hp hready
      have hne : (s.round roundLength).ready.isEmpty = false := by simpa using hready
      simp only [hawaited, hne, Bool.not_false, if_true, if_false, Bool.false_eq_true]
      exact ih hw.steady hprompt hnow (by omega)

theorem wait_timely (h : Running s) (ha : s.now < alarm) (awaited : Pool → Bool) :
    awaited (s.wait awaited alarm).pool = true ∧ (s.wait awaited alarm).now < alarm ∨
      awaited (s.wait awaited alarm).pool = false ∧ (s.wait awaited alarm).now = alarm := by
  have heffort := h.effort
  exact waitFrom_timely h.toSteady h.prompt ha (by omega)

theorem active_le (p : Pool) : p.active ≤ p.tracked.length := List.countP_le_length

theorem noted_same (h : s.pool.active = s.pool.tracked.length) : s.noted = s := by
  have hnone : s.pool.tracked.length - s.pool.active = 0 := by omega
  simp only [noted, hnone, Nat.min_zero, withPool, forget, trackedWithout, Nat.sub_zero]

theorem drainFrom_due (hb : s.budget ≠ 0) (hn : alarm ≤ s.now) (fuel : Nat) :
    s.drainFrom alarm (fuel + 1) = if s.noted.pool.tracked.isEmpty then (s.noted, true)
      else ({ s.noted with budget := s.noted.budget - 1 }, false) := by
  rw [drainFrom_succ, if_pos (c := 0 < s.budget ∧ alarm ≤ s.now) ⟨by omega, hn⟩]

/-- A drain that begins before its deadline. -/
theorem drainFrom_timely {drained : Bool} (h : Running s) (hf : s.drainage alarm < fuel)
    (ha : s.now < alarm) (hd : s.drainFrom alarm fuel = (t, drained)) :
    (drained = true → t.now < alarm) ∧
      (drained = false → t.now = alarm ∧ t.pool.active = t.pool.tracked.length) := by
  induction fuel generalizing s with
  | zero => omega
  | succ fuel ih =>
    have hnoted := noted_running h
    have hlength := noted_length s
    rw [drainFrom_succ] at hd
    by_cases hempty : s.noted.pool.tracked = []
    · simp only [hempty, List.isEmpty_nil, if_true, Prod.mk.injEq] at hd
      obtain ⟨rfl, rfl⟩ := hd
      exact ⟨fun _ => ha, nofun⟩
    have hsome : s.noted.pool.tracked.isEmpty = false := by simpa using hempty
    have hearly : ¬(0 < s.budget ∧ alarm ≤ s.now) := by omega
    simp only [hsome, hearly, Bool.false_eq_true, if_false] at hd
    by_cases hturn : s.noted.budget = 0
    · have hp := pass_spent hnoted
      have hless := drainage_pass alarm hturn hp
      rw [if_pos hturn] at hd
      have hstill : s.noted.pass.now < alarm := by rw [hp.now]; exact ha
      exact ih hp.running (by omega) hstill hd
    · rw [if_neg hturn] at hd
      obtain ⟨hw, hend⟩ := wait_ends hnoted ha (fun p => p.active < p.tracked.length)
      have hless := drainage_wait ha hturn (by rw [hw.budget]; decide) hw.tracked
        (hend.imp of_decide_eq_true fun he => Nat.le_of_eq he.symm)
      obtain ⟨-, htime⟩ | ⟨hnot, htime⟩ := wait_timely hnoted ha
        (fun p => p.active < p.tracked.length)
      · exact ih (waited_running hnoted hw) (by omega) htime hd
      · -- At the deadline no tracked task is over, and one is left.
        have hall : (s.noted.wait (fun p => p.active < p.tracked.length) alarm).pool.active =
            (s.noted.wait (fun p => p.active < p.tracked.length) alarm).pool.tracked.length := by
          have hle := active_le (s.noted.wait (fun p => p.active < p.tracked.length) alarm).pool
          have hge := of_decide_eq_false hnot
          omega
        generalize s.noted.wait (fun p => p.active < p.tracked.length) alarm = w at *
        have hbudget : w.budget ≠ 0 := by rw [hw.budget]; decide
        have hleft : w.pool.tracked.isEmpty = false := by rw [hw.tracked]; exact hsome
        cases fuel with
        | zero => omega
        | succ fuel =>
          rw [drainFrom_due hbudget (Nat.le_of_eq htime.symm), noted_same hall, hleft] at hd
          simp only [Bool.false_eq_true, if_false, Prod.mk.injEq] at hd
          obtain ⟨rfl, rfl⟩ := hd
          exact ⟨nofun, fun _ => ⟨htime, hall⟩⟩

theorem drain_timely {duration : Nat} {drained : Bool} (h : Running s) (hd : 0 < duration)
    (hs : s.drain duration = (t, drained)) :
    (drained = true → t.now < s.now + duration) ∧
      (drained = false → t.now = s.now + duration ∧ t.pool.active = t.pool.tracked.length) := by
  have htracked := h.tracked
  have hplans := h.plans
  have hle : s.drainage (s.now + duration) ≤ 2 * s.pool.tracked.length + 2 := by
    unfold drainage
    split
    · omega
    · split <;> omega
  exact drainFrom_timely h (by omega) (by omega) hs

theorem noted_empty (s : Schedule) : s.noted.pool.tracked.isEmpty = true ↔
    s.pool.active = 0 ∧ s.pool.tracked.length ≤ s.budget := by
  have hlength := noted_length s
  have hle := active_le s.pool
  rw [List.isEmpty_iff, ← List.length_eq_zero_iff]
  omega

/-- A drain without any time takes notes in one turn, which is a new one if that of the user was
used up. -/
theorem drain_now {drained : Bool} (h : Running s) (hs : s.drain 0 = (t, drained)) :
    t.now = s.now ∧ ∃ u, u.now = s.now ∧ (∀ P, Lasting s.now P → P s → P u) ∧
      (drained = true ↔ u.pool.active = 0 ∧ s.pool.tracked.length ≤ turn s.budget) ∧
      (drained = false → u.pool.active = 0 →
        t.budget = 0 ∧ t.pool.tracked.length + turn s.budget = s.pool.tracked.length) := by
  have hone : ∀ (u : Schedule) (fuel : Nat), u.budget ≠ 0 → u.now = s.now →
      u.drainFrom s.now (fuel + 1) = (t, drained) → t.now = s.now ∧
      (drained = true ↔ u.pool.active = 0 ∧ u.pool.tracked.length ≤ u.budget) ∧
      (drained = false → u.pool.active = 0 →
        t.budget = 0 ∧ t.pool.tracked.length + u.budget = u.pool.tracked.length) := by
    intro u fuel hb hn hd
    rw [drainFrom_due hb (Nat.le_of_eq hn.symm)] at hd
    rw [← noted_empty]
    split at hd <;> rename_i hempty <;> obtain ⟨rfl, rfl⟩ := Prod.mk.inj hd
    · exact ⟨hn, by simp [hempty], fun hfalse => by cases hfalse⟩
    · refine ⟨hn, by simp [hempty], fun _ hnone => ?_⟩
      have hlength := noted_length u
      have hmany := (noted_empty u).not.mp hempty
      have hbudget : u.noted.budget =
        u.budget - min u.budget (u.pool.tracked.length - u.pool.active) := rfl
      show u.noted.budget - 1 = 0 ∧ u.noted.pool.tracked.length + u.budget = _
      omega
  rw [drain, Nat.add_zero] at hs
  by_cases hb : s.budget = 0
  · have hnoted : s.noted.budget = 0 := by simp [noted, hb]
    have hrunning := noted_running h
    have hp := pass_spent hrunning
    have hsame : s.noted.pool.tracked = s.pool.tracked := by
      simp [noted, hb, withPool, forget, trackedWithout]
    have htracked : s.noted.pass.pool.tracked = s.pool.tracked := hp.tracked.trans hsame
    have hturn : turn s.budget = turnLength := if_pos hb
    have hfuel : 2 * s.plans.length + 4 = 2 * s.plans.length + 2 + 1 + 1 := rfl
    have hearly : ¬(0 < s.budget ∧ s.now ≤ s.now) := by omega
    rw [hfuel, drainFrom_succ, if_neg hearly, if_pos hnoted, hsame] at hs
    have hlasts : ∀ P, Lasting s.now P → P s → P s.noted.pass := fun P hl hP =>
      pass_lasts hl hrunning (hl.turns _ _ (hl.notes s _ hP))
    rw [hturn]
    by_cases hempty : s.pool.tracked = []
    · simp only [hempty, List.isEmpty_nil, if_true, Prod.mk.injEq] at hs
      obtain ⟨rfl, rfl⟩ := hs
      have hnone : s.noted.pass.pool.tracked.length = 0 := by rw [htracked, hempty]; rfl
      have hle := active_le s.noted.pass.pool
      have hlength : s.pool.tracked.length = 0 := by rw [hempty]; rfl
      have hall : s.noted.pass.pool.active = 0 ∧ s.pool.tracked.length ≤ turnLength := by omega
      exact ⟨rfl, s.noted.pass, hp.now, hlasts, iff_of_true rfl hall, fun hfalse => by
        cases hfalse⟩
    · have hsome : s.pool.tracked.isEmpty = false := by simpa using hempty
      simp only [hsome, Bool.false_eq_true, if_false] at hs
      have hdrained := hone s.noted.pass _ (show turnLength ≠ 0 by decide) hp.now hs
      rw [htracked] at hdrained
      exact ⟨hdrained.1, s.noted.pass, hp.now, hlasts, hdrained.2⟩
  · have hturn : turn s.budget = s.budget := if_neg hb
    rw [hturn]
    obtain ⟨hnow, hdrained⟩ := hone s _ hb rfl hs
    exact ⟨hnow, s, rfl, fun _ _ hP => hP, hdrained⟩

end
end Wiretap.Pool.Schedule
