import Wiretap.Proofs.Pool.Moves
import Wiretap.Proofs.Run
import Mathlib.Data.List.Induction
import Mathlib.Data.List.Nodup
import Mathlib.Data.List.Perm.Subperm

/-!
# Permits of a pool

A pool with a limit has that many permits. One that is free goes to a task that
asks for it, and one that a task returns goes to the task that has waited longest,
or is free again. The transfers of a run tell who has each permit. That agrees with
the pool at every moment, so no permit is lost, none is made, and no task waits
while one is free.
-/

set_option autoImplicit false

namespace Wiretap

def TaskStatus.holds : TaskStatus → Bool
  | .handed => true
  | .running => true
  | _ => false

def TaskStatus.Granted : TaskStatus → Nat → Prop
  | .handed, n => n = 1
  | .running, n => n = 1
  | .finished, n => n = 1
  | .cancelled, n => n ≤ 1
  | _, n => n = 0

namespace Pool

structure Transfer where
  giver : Option Nat
  taker : Option Nat
  deriving DecidableEq, Repr

def transfers (p : Pool) (s : Step) : List Transfer :=
  if p.limit = 0 then []
  else
    match s with
    | .resume i =>
      match p.status i with
      | some .submitted => if p.closed = false ∧ 0 < p.free then [⟨none, some i⟩] else []
      | some .handed => if p.closed then [⟨some i, p.queue.head?⟩] else []
      | _ => []
    | .finish i _ => [⟨some i, p.queue.head?⟩]
    | _ => []

def traced (p : Pool) (s : Step) : Option (Pool × List Transfer) :=
  (p.step s).map (fun q => (q, p.transfers s))

def holders (limit : Nat) (log : List Transfer) : List (Option Nat) :=
  log.foldl (fun all t => all.replace t.giver t.taker) (List.replicate limit none)

def given (log : List Transfer) (x : Option Nat) : Nat := log.countP (fun t => t.taker = x)

def returned (log : List Transfer) (x : Option Nat) : Nat := log.countP (fun t => t.giver = x)

def hasPermit (p : Pool) (i : Nat) : Bool := (p.status i).any TaskStatus.holds

def running (p : Pool) : List Nat :=
  (List.range p.tasks.length).filter (fun i => p.status i = some .running)

def share (p : Pool) : Option Nat → Nat
  | none => p.free
  | some i => if p.hasPermit i then 1 else 0

/-- A pool with a limit, after these transfers of its permits. -/
structure Conserved (limit : Nat) (p : Pool) (log : List Transfer) : Prop where
  bound : p.running.length ≤ limit
  permits : (holders limit log).length = limit
  free : (holders limit log).count none = p.free
  -- A task that runs, or to which a permit was handed, has one permit; all others have none.
  held : ∀ i, (holders limit log).count (some i) = if p.hasPermit i then 1 else 0
  once : ∀ i, given log (some i) ≤ 1
  -- What a task was given it returns when it is over, and not before.
  back : ∀ i, returned log (some i) = if p.hasPermit i then 0 else given log (some i)
  ended : ∀ i, p.status i = some .finished → returned log (some i) = 1
  idle : p.closed = false → 0 < p.free → ∀ i, p.status i ≠ some .queued
  prompt : p.closed = false → 0 < p.free → ∀ i, p.status i = some .submitted →
    ∃ q, p.resume i = some q ∧ q.status i = some .running

structure Unlimited (p : Pool) : Prop where
  free : ∀ i, p.status i ≠ some .queued ∧ p.status i ≠ some .handed
  starts : ∀ i, p.status i = some .submitted → p.resume i = some (p.setStatus i .running)

section
variable {p q : Pool} {i n limit : Nat} {s : Step} {was next : TaskStatus} {x : Option Nat}
  {all : List (Option Nat)} {log more : List Transfer}

theorem permit_iff (h : p.status i = some was) : p.hasPermit i = was.holds := by
  simp [hasPermit, h]

theorem set_permit (h : p.status i = some was) (next : TaskStatus) (j : Nat) :
    (p.setStatus i next).hasPermit j = if j = i then next.holds else p.hasPermit j := by
  rw [hasPermit, setStatus_status h]
  by_cases hj : j = i <;> simp [hj, hasPermit]

theorem share_same (h : p.status i = some was) (hn : next.holds = was.holds) :
    (p.setStatus i next).share x = p.share x := by
  cases x with
  | none => rfl
  | some j =>
    by_cases hj : j = i
    · simp [share, set_permit h, hj, permit_iff h, hn]
    · simp [share, set_permit h, hj]

theorem share_gained (h : p.status i = some was) (hw : was.holds = false)
    (hn : next.holds = true) :
    (p.setStatus i next).share x = p.share x + if some i = x then 1 else 0 := by
  cases x with
  | none => simp [share, setStatus]
  | some j =>
    by_cases hj : j = i
    · simp [share, set_permit h, hj, permit_iff h, hw, hn]
    · simp [share, set_permit h, hj, Ne.symm hj]

theorem share_lost (h : p.status i = some was) (hw : was.holds = true)
    (hn : next.holds = false) :
    (p.setStatus i next).share x + (if some i = x then 1 else 0) = p.share x := by
  cases x with
  | none => simp [share, setStatus]
  | some j =>
    by_cases hj : j = i
    · simp [share, set_permit h, hj, permit_iff h, hw, hn]
    · simp [share, set_permit h, hj, Ne.symm hj]

theorem share_release (h : Orderly p) :
    p.release.share x = p.share x + if p.queue.head? = x then 1 else 0 := by
  cases hq : p.queue with
  | nil =>
    simp only [release, hq, List.head?_nil]
    cases x with
    | none => rfl
    | some j => simp only [reduceCtorEq, if_false, Nat.add_zero]; rfl
  | cons k queue =>
    have hk : p.status k = some .queued := h.queued k (by simp [hq])
    have hset : p.release.share x = (p.setStatus k .handed).share x := by
      simp only [release, hq]
      cases x <;> rfl
    rw [hset, share_gained hk rfl rfl, List.head?_cons]

theorem share_submit : p.submit.1.share x = p.share x := by
  cases x with
  | none =>
    unfold submit
    split <;> rfl
  | some j =>
    simp only [share, hasPermit, submit_status]
    by_cases hj : j = p.tasks.length
    · have hnone : p.status j = none := List.getElem?_eq_none_iff.mpr (by omega)
      by_cases ha : p.accepting = true <;> simp [if_pos hj, ha, hnone, TaskStatus.holds]
    · simp only [if_neg hj]
      rfl

def Moves (p q : Pool) (more : List Transfer) : Prop :=
  (more = [] ∧ ∀ x, q.share x = p.share x) ∨
    ∃ t, more = [t] ∧ 1 ≤ p.share t.giver ∧
      ∀ x, q.share x + (if t.giver = x then 1 else 0) = p.share x + if t.taker = x then 1 else 0

theorem still_moves (h : ∀ x, q.share x = p.share x) : Moves p q [] := .inl ⟨rfl, h⟩

theorem take_moves (hi : p.status i = some .submitted) (hf : 0 < p.free) :
    Moves p { p.setStatus i .running with free := p.free - 1 } [⟨none, some i⟩] := by
  refine .inr ⟨_, rfl, hf, fun x => ?_⟩
  cases x with
  | none =>
    show p.free - 1 + 1 = p.free + 0
    omega
  | some j =>
    show (p.setStatus i .running).share (some j) + 0 = _
    rw [share_gained hi rfl rfl, Nat.add_zero]

theorem return_moves (h : Orderly p) (hi : p.status i = some was) (hw : was.holds = true)
    (hq : was ≠ .queued) (hn : next.holds = false) :
    Moves p (p.setStatus i next).release [⟨some i, p.queue.head?⟩] := by
  have hset := set_orderly h hi hq next
  refine .inr ⟨_, rfl, by simp [share, permit_iff hi, hw], fun x => ?_⟩
  have hlost := share_lost hi hw hn (x := x)
  have hback := share_release hset (x := x)
  have hqueue : (p.setStatus i next).queue = p.queue := rfl
  rw [hqueue] at hback
  show (p.setStatus i next).release.share x + (if some i = x then 1 else 0) =
    p.share x + if p.queue.head? = x then 1 else 0
  omega

theorem step_moves (h : Fair p) (hl : p.limit ≠ 0) (hm : Move p s q) :
    Moves p q (p.transfers s) := by
  unfold transfers
  rw [if_neg hl]
  cases hm with
  | submits => exact still_moves fun x => share_submit
  | unlimited i new limit => exact absurd limit hl
  | takes i new limit on free =>
    simp only [new, on, free, and_self, if_true]
    exact take_moves new free
  | queues i new limit on busy =>
    simp only [new, busy, Nat.lt_irrefl, and_false, if_false]
    refine still_moves fun x => ?_
    have hsame : (p.setStatus i .queued).share x = p.share x := share_same new rfl
    rw [← hsame]
    cases x <;> rfl
  | starts i handed on =>
    simp only [handed, on, Bool.false_eq_true, if_false]
    exact still_moves fun x => share_same handed rfl
  | cancels i waits off =>
    rcases waits with ⟨new, -⟩ | queued
    · simp only [new, off, Bool.true_eq_false, false_and, if_false]
      exact still_moves fun x => share_same new rfl
    · simp only [queued]
      exact still_moves fun x => share_same queued rfl
  | handsBack i handed off =>
    simp only [handed, off, if_true]
    exact return_moves h.toOrderly handed rfl (by decide) rfl
  | ends i panicked running limit => exact absurd limit hl
  | returns i panicked running =>
    show Moves p (p.setStatus i .finished).release [⟨some i, p.queue.head?⟩]
    exact return_moves h.toOrderly running rfl (by decide) rfl
  | forgets | stops | closes | detaches => exact still_moves fun x => by cases x <;> rfl

theorem holders_append : holders limit (log ++ more) =
    more.foldl (fun all t => all.replace t.giver t.taker) (holders limit log) := by
  rw [holders, holders, List.foldl_append]

theorem holders_length (limit : Nat) (log : List Transfer) :
    (holders limit log).length = limit := by
  induction log using List.reverseRecOn with
  | nil => simp [holders]
  | append_singleton log t ih =>
    rw [holders_append]
    simpa using ih

theorem replace_count {giver : Option Nat} (h : giver ∈ all) (taker x : Option Nat) :
    (all.replace giver taker).count x + (if giver = x then 1 else 0) =
      all.count x + if taker = x then 1 else 0 := by
  have hpos : giver = x → 0 < all.count x := fun he => List.count_pos_iff.mpr (he ▸ h)
  rw [List.count_replace]
  simp only [List.contains_iff_mem, h, if_true, beq_iff_eq]
  by_cases hg : giver = x
  · have := hpos hg
    simp only [hg, if_true]
    omega
  · simp [hg]

/-- The holders of the permits change as the pool does. -/
theorem moves_held (hm : Moves p q more) (h : ∀ x, (holders limit log).count x = p.share x) :
    ∀ x, (holders limit (log ++ more)).count x = q.share x := by
  intro x
  rw [holders_append]
  rcases hm with ⟨rfl, hsame⟩ | ⟨t, rfl, hgiver, hshare⟩
  · rw [hsame]
    exact h x
  · have hmem : t.giver ∈ holders limit log := by
      rw [← List.count_pos_iff, h]
      omega
    have hcount := replace_count hmem t.taker x
    have hx := hshare x
    rw [h] at hcount
    show ((holders limit log).replace t.giver t.taker).count x = q.share x
    omega

theorem moves_balanced (hm : Moves p q more)
    (h : p.share (some i) + returned log (some i) = given log (some i)) :
    q.share (some i) + returned (log ++ more) (some i) = given (log ++ more) (some i) := by
  simp only [returned, given, List.countP_append] at h ⊢
  rcases hm with ⟨rfl, hsame⟩ | ⟨t, rfl, -, hshare⟩
  · rw [hsame]
    exact h
  · have hx := hshare (some i)
    simp only [List.countP_singleton, decide_eq_true_eq]
    omega

def Granted (p : Pool) (i n : Nat) : Prop := (p.status i).elim (n = 0) (fun was => was.Granted n)

theorem granted_set {j : Nat} (h : p.status i = some was)
    (hn : ∀ n, was.Granted n → next.Granted n) (hg : Granted p j n) :
    Granted (p.setStatus i next) j n := by
  rw [Granted, setStatus_status h]
  by_cases hj : j = i
  · rw [Granted, hj, h] at hg
    rw [if_pos hj]
    exact hn n hg
  · rw [if_neg hj]
    exact hg

theorem granted_take {j : Nat} (h : p.status i = some .submitted) (hg : Granted p j n) :
    Granted (p.setStatus i .running) j (n + given [⟨none, some i⟩] (some j)) := by
  rw [Granted, setStatus_status h]
  by_cases hj : j = i
  · rw [Granted, hj, h] at hg
    have hn : n = 0 := hg
    simp [hj, hn, given, TaskStatus.Granted]
  · have hnone : given [⟨none, some i⟩] (some j) = 0 := by simp [given, Ne.symm hj]
    rw [if_neg hj, hnone]
    exact hg

theorem granted_release (h : Orderly p) (hg : Granted p i n) :
    Granted p.release i (n + if p.queue.head? = some i then 1 else 0) := by
  rw [Granted, release_status h]
  by_cases hk : p.queue.head? = some i
  · have hi : p.status i = some .queued := h.queued i (List.mem_of_mem_head? hk)
    rw [Granted, hi] at hg
    have hn : n = 0 := hg
    simp [hk, hn, TaskStatus.Granted]
  · simp only [if_neg hk]
    exact hg

theorem granted_return {j : Nat} (h : Orderly p) (hi : p.status i = some was)
    (hq : was ≠ .queued) (hn : ∀ n, was.Granted n → next.Granted n) (hg : Granted p j n) :
    Granted (p.setStatus i next).release j (n + given [⟨some i, p.queue.head?⟩] (some j)) := by
  have hset := set_orderly h hi hq next
  have hmoved : given [⟨some i, p.queue.head?⟩] (some j) =
      if p.queue.head? = some j then 1 else 0 := by simp [given]
  rw [hmoved]
  exact granted_release hset (granted_set hi hn hg)

theorem granted_submit (hg : Granted p i n) : Granted p.submit.1 i n := by
  rw [Granted, submit_status]
  by_cases hi : i = p.tasks.length
  · have hnone : p.status i = none := List.getElem?_eq_none_iff.mpr (by omega)
    rw [Granted, hnone] at hg
    have hn : n = 0 := hg
    by_cases ha : p.accepting = true <;> simp [if_pos hi, ha, hn, TaskStatus.Granted]
  · rw [if_neg hi]
    exact hg

/-- A step gives a task a permit only when the task starts, or has waited longest. -/
theorem step_granted (h : Fair p) (hl : p.limit ≠ 0) (hm : Move p s q) (hg : Granted p i n) :
    Granted q i (n + given (p.transfers s) (some i)) := by
  unfold transfers
  rw [if_neg hl]
  cases hm with
  | submits => exact granted_submit hg
  | unlimited k new limit => exact absurd limit hl
  | takes k new limit on free =>
    simp only [new, on, free, and_self, if_true]
    exact granted_take new hg
  | queues k new limit on busy =>
    simp only [new, busy, Nat.lt_irrefl, and_false, if_false]
    have hset : Granted (p.setStatus k .queued) i n := granted_set new (fun _ hn => hn) hg
    exact hset
  | starts k handed on =>
    simp only [handed, on, Bool.false_eq_true, if_false]
    exact granted_set handed (fun _ hn => hn) hg
  | cancels k waits off =>
    rcases waits with ⟨new, -⟩ | queued
    · simp only [new, off, Bool.true_eq_false, false_and, if_false]
      exact granted_set new (fun _ hn => Nat.le_one_iff_eq_zero_or_eq_one.mpr (.inl hn)) hg
    · simp only [queued]
      exact granted_set queued (fun _ hn => Nat.le_one_iff_eq_zero_or_eq_one.mpr (.inl hn)) hg
  | handsBack k handed off =>
    simp only [handed, off, if_true]
    exact granted_return h.toOrderly handed (by decide) (fun _ hn => Nat.le_of_eq hn) hg
  | ends k panicked running limit => exact absurd limit hl
  | returns k panicked running =>
    exact granted_return h.toOrderly running (by decide) (fun _ hn => hn) hg
  | forgets | stops | closes | detaches => exact hg

structure Audited (limit : Nat) (p : Pool) (log : List Transfer) : Prop where
  held : ∀ x, (holders limit log).count x = p.share x
  balance : ∀ i, p.share (some i) + returned log (some i) = given log (some i)
  granted : ∀ i, Granted p i (given log (some i))

theorem run_fair {steps : List Step} (hp : Fair p) (h : runAll traced steps p = some (q, log)) :
    Fair q ∧ q.limit = p.limit := by
  refine run_invariant (P := fun _ m _ => Fair m ∧ m.limit = p.limit) ?_ ⟨hp, rfl⟩ h
  intro taken m acts s u more hm hs
  obtain ⟨v, hstep, hv⟩ := Option.map_eq_some_iff.mp hs
  cases hv
  have hmove := step_move hstep
  exact ⟨move_fair hm.1 hmove, (move_limit hmove).trans hm.2⟩

theorem run_audited {steps : List Step} (hp : make limit = .ok p) (hl : limit ≠ 0)
    (h : runAll traced steps p = some (q, log)) : Audited limit q log := by
  have hstart : Audited limit p [] := by
    rw [make_eq hp]
    refine ⟨fun x => ?_, fun i => rfl, fun i => rfl⟩
    cases x with
    | none => simp [holders, share]
    | some i => simp [holders, share, hasPermit, status, List.count_replicate]
  -- The audit is kept in fair pools only, so both go through the induction.
  suffices hall : Audited limit q log ∧ Fair q ∧ q.limit = limit from hall.1
  have hfair : Fair p ∧ p.limit = limit := ⟨make_fair hp, by rw [make_eq hp]⟩
  refine run_invariant (P := fun _ m acts => Audited limit m acts ∧ Fair m ∧ m.limit = limit) ?_
    ⟨hstart, hfair⟩ h
  rintro taken m acts s u more ⟨ha, hf, hlim⟩ hs
  obtain ⟨v, hstep, hv⟩ := Option.map_eq_some_iff.mp hs
  cases hv
  have hmove := step_move hstep
  have hmoves := step_moves hf (hlim ▸ hl) hmove
  refine ⟨⟨moves_held hmoves ha.held, fun i => moves_balanced hmoves (ha.balance i), fun i => ?_⟩,
    move_fair hf hmove, (move_limit hmove).trans hlim⟩
  rw [given, List.countP_append]
  exact step_granted hf (hlim ▸ hl) hmove (ha.granted i)

theorem running_iff : i ∈ p.running ↔ p.status i = some .running := by
  have hlt : p.status i = some .running → i < p.tasks.length := fun h =>
    (List.getElem?_eq_some_iff.mp h).1
  simp only [running, List.mem_filter, List.mem_range, decide_eq_true_eq]
  exact ⟨fun h => h.2, fun h => ⟨hlt h, h⟩⟩

/-- Each task that runs has a permit of its own. -/
theorem running_bound (h : ∀ x, (holders limit log).count x = p.share x) :
    p.running.length ≤ limit := by
  have hnodup : (p.running.map some).Nodup :=
    List.Nodup.map (fun _ _ he => Option.some.inj he) (List.nodup_range.filter _)
  have hsub : p.running.map some ⊆ holders limit log := by
    intro x hx
    obtain ⟨i, hi, rfl⟩ := List.mem_map.mp hx
    have hone : p.share (some i) = 1 := by
      simp [share, permit_iff (running_iff.mp hi), TaskStatus.holds]
    rw [← List.count_pos_iff, h, hone]
    exact Nat.one_pos
  have hlength := (hnodup.subperm hsub).length_le
  rwa [List.length_map, holders_length] at hlength

theorem granted_le (h : Granted p i n) : n ≤ 1 := by
  rw [Granted] at h
  cases hi : p.status i with
  | none =>
    rw [hi] at h
    have hn : n = 0 := h
    omega
  | some was =>
    rw [hi] at h
    have hn : was.Granted n := h
    cases was <;> simp only [TaskStatus.Granted] at hn <;> omega

/-- For every sequence of steps, in whatever order tasks are submitted, started and ended and
the pool is shut down: with a limit, each permit is free or held by one task, which returns it
once, whether it ends by itself or by a panic; without one, no task waits for another. -/
theorem permits_conserved {steps : List Step} (hp : make limit = .ok p)
    (h : runAll traced steps p = some (q, log)) :
    (limit ≠ 0 → Conserved limit q log) ∧ (limit = 0 → Unlimited q) := by
  have hfair := run_fair (make_fair hp) h
  have hlimit : q.limit = limit := by rw [hfair.2, make_eq hp]
  refine ⟨fun hl => ?_, fun hl => ?_⟩
  · have ha := run_audited hp hl h
    have hback : ∀ i, returned log (some i) = if q.hasPermit i then 0 else given log (some i) := by
      intro i
      have hsum := ha.balance i
      have hle := granted_le (ha.granted i)
      by_cases hi : q.hasPermit i = true
      · simp only [share, hi, if_true] at hsum ⊢
        omega
      · simp only [share, hi, if_false, Bool.false_eq_true] at hsum ⊢
        omega
    refine ⟨running_bound ha.held, holders_length limit log, ha.held none,
      fun i => ha.held (some i), fun i => granted_le (ha.granted i), hback, fun i hi => ?_,
      fun hc hf i hi => ?_, fun hc hf i hi => ?_⟩
    · have hgiven := ha.granted i
      rw [Granted, hi] at hgiven
      rw [hback i, permit_iff hi]
      exact hgiven
    · have hmem := hfair.1.waits hc i hi
      rw [hfair.1.idle hf] at hmem
      exact List.not_mem_nil hmem
    · refine ⟨{ q.setStatus i .running with free := q.free - 1 }, ?_, setStatus_self hi .running⟩
      simp [resume, hi, hlimit, hl, hc, hf]
  · have hz : q.limit = 0 := hlimit.trans hl
    exact ⟨hfair.1.unlimited hz, fun i hi => by simp [resume, hi, hz]⟩

end

/-- Two permits, four tasks. The first ends by a panic and its permit goes to the third; the
fourth is handed the permit of the second, and returns it because the permits were closed. The
third still runs when the pool is left to itself. -/
theorem permits_conserved_detached :
    ∃ p q log, make 2 = .ok p ∧ 2 ≠ 0 ∧
      runAll traced [.submit, .submit, .submit, .submit, .resume 0, .resume 1, .resume 2,
        .resume 3, .finish 0 true, .resume 2, .stopAccepting, .submit, .finish 1 false,
        .closePermits, .forget 2, .resume 3, .detach] p = some (q, log) ∧
      Conserved 2 q log ∧ holders 2 log = [some 2, none] ∧
      log = [⟨none, some 0⟩, ⟨none, some 1⟩, ⟨some 0, some 2⟩, ⟨some 1, some 3⟩,
        ⟨some 3, none⟩] := by
  have hrun : runAll traced [.submit, .submit, .submit, .submit, .resume 0, .resume 1, .resume 2,
      .resume 3, .finish 0 true, .resume 2, .stopAccepting, .submit, .finish 1 false,
      .closePermits, .forget 2, .resume 3, .detach] ⟨2, true, false, 2, [], [], []⟩ =
      some (⟨2, false, true, 1, [], [.finished, .finished, .running, .cancelled, .rejected], []⟩,
        [⟨none, some 0⟩, ⟨none, some 1⟩, ⟨some 0, some 2⟩, ⟨some 1, some 3⟩, ⟨some 3, none⟩]) := by
    decide
  exact ⟨_, _, _, rfl, by decide, hrun, (permits_conserved rfl hrun).1 (by decide), by decide, rfl⟩

end Pool
end Wiretap
