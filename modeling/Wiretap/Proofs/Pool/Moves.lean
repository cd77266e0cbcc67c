import Wiretap.Proofs.Pool.Stages

/-! What one step of a pool can do, and what every step keeps: the queue holds the
tasks that wait for a permit, and nobody waits while one is free. A step of a task
changes its own status, and that of the one to which it returns its permit. -/

set_option autoImplicit false

namespace Wiretap

def TaskStatus.goesOn (closed : Bool) : TaskStatus → Bool
  | .submitted => true
  | .queued => closed
  | .handed => true
  | _ => false

namespace Pool

inductive Move (p : Pool) : Step → Pool → Prop where
  | submits : Move p .submit p.submit.1
  | unlimited (i : Nat) (new : p.status i = some .submitted) (limit : p.limit = 0) :
      Move p (.resume i) (p.setStatus i .running)
  | takes (i : Nat) (new : p.status i = some .submitted) (limit : p.limit ≠ 0)
      (on : p.closed = false) (free : 0 < p.free) :
      Move p (.resume i) { p.setStatus i .running with free := p.free - 1 }
  | queues (i : Nat) (new : p.status i = some .submitted) (limit : p.limit ≠ 0)
      (on : p.closed = false) (busy : p.free = 0) :
      Move p (.resume i) { p.setStatus i .queued with queue := p.queue ++ [i] }
  | starts (i : Nat) (handed : p.status i = some .handed) (on : p.closed = false) :
      Move p (.resume i) (p.setStatus i .running)
  | cancels (i : Nat) (waits : p.status i = some .submitted ∧ p.limit ≠ 0 ∨
        p.status i = some .queued) (off : p.closed = true) :
      Move p (.resume i) (p.setStatus i .cancelled)
  | handsBack (i : Nat) (handed : p.status i = some .handed) (off : p.closed = true) :
      Move p (.resume i) (p.setStatus i .cancelled).release
  | ends (i : Nat) (panicked : Bool) (running : p.status i = some .running)
      (limit : p.limit = 0) : Move p (.finish i panicked) (p.setStatus i .finished)
  | returns (i : Nat) (panicked : Bool) (running : p.status i = some .running)
      (limit : p.limit ≠ 0) :
      Move p (.finish i panicked) (p.setStatus i .finished).release
  | forgets (count : Nat) : Move p (.forget count) (p.forget count)
  | stops : Move p .stopAccepting p.stopAccepting
  | closes : Move p .closePermits p.closePermits
  | detaches : Move p .detach p.detach

/-- Until the permits are closed, all that wait for one are in the queue, which is empty while
one is free. -/
structure Fair (p : Pool) : Prop extends Orderly p where
  waits : p.closed = false → ∀ i, p.status i = some .queued → i ∈ p.queue
  idle : 0 < p.free → p.queue = []
  unlimited : p.limit = 0 → ∀ i, p.status i ≠ some .queued ∧ p.status i ≠ some .handed

section
variable {p q : Pool} {i j n : Nat} {s : Step} {was next : TaskStatus}

theorem resume_move (h : p.resume i = some q) : Move p (.resume i) q := by
  unfold resume at h
  split at h
  · rename_i hi
    by_cases hl : p.limit = 0
    · simp only [hl, if_true, Option.some.injEq] at h
      exact h ▸ .unlimited i hi hl
    · by_cases hc : p.closed = true
      · simp only [hl, hc, if_true, if_false, Option.some.injEq] at h
        exact h ▸ .cancels i (.inl ⟨hi, hl⟩) hc
      · have hc : p.closed = false := by simpa using hc
        by_cases hf : 0 < p.free
        · simp only [hl, hc, hf, if_true, if_false, Bool.false_eq_true, Option.some.injEq] at h
          exact h ▸ .takes i hi hl hc hf
        · simp only [hl, hc, hf, if_false, Bool.false_eq_true, Option.some.injEq] at h
          exact h ▸ .queues i hi hl hc (by omega)
  · rename_i hi
    simp only [Option.ite_none_right_eq_some, Option.some.injEq] at h
    exact h.2 ▸ .cancels i (.inr hi) h.1
  · rename_i hi
    by_cases hc : p.closed = true
    · simp only [hc, if_true, Option.some.injEq] at h
      exact h ▸ .handsBack i hi hc
    · simp only [hc, Bool.false_eq_true, if_false, Option.some.injEq] at h
      exact h ▸ .starts i hi (by simpa using hc)
  · cases h

theorem finish_move (panicked : Bool) (h : p.finish i = some q) :
    Move p (.finish i panicked) q := by
  unfold finish at h
  split at h
  · rename_i hi
    by_cases hl : p.limit = 0
    · have hs : (p.setStatus i .finished).limit = 0 := hl
      simp only [hs, if_true, Option.some.injEq] at h
      exact h ▸ .ends i panicked hi hl
    · have hs : (p.setStatus i .finished).limit ≠ 0 := hl
      simp only [hs, if_false, Option.some.injEq] at h
      exact h ▸ .returns i panicked hi hl
  · cases h

theorem step_move (h : p.step s = some q) : Move p s q := by
  cases s with
  | resume i => exact resume_move h
  | finish i panicked => exact finish_move panicked h
  | submit => exact Option.some.inj h ▸ .submits
  | forget count => exact Option.some.inj h ▸ .forgets count
  | stopAccepting => exact Option.some.inj h ▸ .stops
  | closePermits => exact Option.some.inj h ▸ .closes
  | detach => exact Option.some.inj h ▸ .detaches

theorem setStatus_status (h : p.status i = some was) (next : TaskStatus) (j : Nat) :
    (p.setStatus i next).status j = if j = i then some next else p.status j := by
  by_cases hj : j = i
  · rw [if_pos hj, hj]
    exact setStatus_self h next
  · rw [if_neg hj]
    exact setStatus_other (Ne.symm hj) next

theorem release_status (h : Orderly p) (j : Nat) :
    p.release.status j = if p.queue.head? = some j then some .handed else p.status j := by
  unfold release
  split
  · rename_i hq
    simp only [hq, List.head?_nil, reduceCtorEq, if_false]
    rfl
  · rename_i k queue hq
    have hk : p.status k = some .queued := h.queued k (by simp [hq])
    show (p.setStatus k .handed).status j = _
    simp only [setStatus_status hk, hq, List.head?_cons, Option.some.injEq, eq_comm]

theorem set_orderly (h : Orderly p) (hi : p.status i = some was) (hw : was ≠ .queued)
    (next : TaskStatus) : Orderly (p.setStatus i next) :=
  setStatus_orderly h (unqueued h hi hw) next

theorem return_self (h : Orderly p) (hi : p.status i = some was) (hw : was ≠ .queued)
    (hn : next ≠ .queued) : (p.setStatus i next).release.status i = some next := by
  have hset := set_orderly h hi hw next
  rw [release_status hset, setStatus_self hi]
  by_cases hk : (p.setStatus i next).queue.head? = some i
  · have hqueued := hset.queued i (List.mem_of_mem_head? hk)
    rw [setStatus_self hi] at hqueued
    exact absurd (Option.some.inj hqueued) hn
  · rw [if_neg hk]

theorem submit_status (p : Pool) (j : Nat) :
    p.submit.1.status j = if j = p.tasks.length then
      some (if p.accepting then .submitted else .rejected) else p.status j := by
  have hnew : ∀ next : TaskStatus, (p.tasks ++ [next])[j]? =
      if j = p.tasks.length then some next else p.status j := by
    intro next
    by_cases hj : j = p.tasks.length
    · simp [hj]
    · rw [if_neg hj]
      by_cases hlt : j < p.tasks.length
      · exact List.getElem?_append_left hlt
      · have hout : p.status j = none := List.getElem?_eq_none_iff.mpr (by omega)
        rw [hout, List.getElem?_eq_none_iff, List.length_append, List.length_singleton]
        omega
  unfold submit
  by_cases ha : p.accepting = true <;> simp only [ha, if_true, if_false, Bool.false_eq_true] <;>
    exact hnew _

@[simp] theorem release_limit (p : Pool) : p.release.limit = p.limit := by
  unfold release
  split <;> rfl

@[simp] theorem release_closed (p : Pool) : p.release.closed = p.closed := by
  unfold release
  split <;> rfl

@[simp] theorem release_accepting (p : Pool) : p.release.accepting = p.accepting := by
  unfold release
  split <;> rfl

@[simp] theorem release_tracked (p : Pool) : p.release.tracked = p.tracked := by
  unfold release
  split <;> rfl

@[simp] theorem release_queue (p : Pool) : p.release.queue = p.queue.tail := by
  unfold release
  split <;> simp [*]

theorem set_fair (h : Fair p) (hi : i ∉ p.queue) (hn : next ≠ .queued)
    (hh : p.limit = 0 → next ≠ .handed) (hs : p.status i = some was) :
    Fair (p.setStatus i next) := by
  refine ⟨setStatus_orderly h.toOrderly hi next, fun hc j hj => ?_, h.idle, fun hl j => ?_⟩
  · rw [setStatus_status hs] at hj
    by_cases he : j = i
    · rw [if_pos he] at hj
      exact absurd (Option.some.inj hj) hn
    · rw [if_neg he] at hj
      exact h.waits hc j hj
  · rw [setStatus_status hs]
    by_cases he : j = i
    · simp only [he, if_true, ne_eq, Option.some.injEq]
      exact ⟨hn, hh hl⟩
    · rw [if_neg he]
      exact h.unlimited hl j

theorem release_fair (h : Fair p) (hl : p.limit ≠ 0) : Fair p.release := by
  refine ⟨release_orderly h.toOrderly, fun hc j hj => ?_, fun hf => ?_, fun hz => ?_⟩
  · rw [release_status h.toOrderly] at hj
    by_cases hk : p.queue.head? = some j
    · simp [hk] at hj
    · rw [if_neg hk] at hj
      have hmem := h.waits (by simpa using hc) j hj
      rw [release_queue]
      cases hq : p.queue with
      | nil => simp [hq] at hmem
      | cons k queue =>
        simp only [hq, List.head?_cons, Option.some.injEq, List.mem_cons] at hk hmem
        exact hmem.resolve_left (Ne.symm hk)
  · rw [release_queue]
    cases hq : p.queue with
    | nil => rfl
    | cons k queue =>
      have hfree : p.release.free = p.free := by simp [release, hq, setStatus]
      rw [hfree] at hf
      simp [h.idle hf] at hq
  · exact absurd (by simpa using hz) hl

theorem submit_rest (p : Pool) : p.submit.1.closed = p.closed ∧ p.submit.1.queue = p.queue ∧
    p.submit.1.free = p.free ∧ p.submit.1.limit = p.limit := by
  unfold submit
  split <;> exact ⟨rfl, rfl, rfl, rfl⟩

theorem submit_accepts (p : Pool) : p.submit.2 = p.accepting := by
  unfold submit
  by_cases ha : p.accepting = true <;> simp [ha]

theorem submit_accepting (p : Pool) : p.submit.1.accepting = p.accepting := by
  unfold submit
  split <;> rfl

theorem submit_length (p : Pool) : p.submit.1.tasks.length = p.tasks.length + 1 := by
  unfold submit
  split <;> simp

theorem submit_tracked (p : Pool) : p.submit.1.tracked.length ≤ p.tracked.length + 1 := by
  unfold submit
  split
  · have hfilter := List.length_filter_le p.isOpen p.tracked
    simp only [List.length_append, List.length_singleton]
    omega
  · exact Nat.le_succ _

theorem submit_fair (h : Fair p) : Fair p.submit.1 := by
  have hnew : ∀ j was, p.submit.1.status j = some was → was = .queued ∨ was = .handed →
      p.status j = some was := by
    intro j was hj hw
    rw [submit_status] at hj
    by_cases he : j = p.tasks.length
    · rw [if_pos he] at hj
      by_cases ha : p.accepting = true <;> simp [ha] at hj <;> simp [← hj] at hw
    · rwa [if_neg he] at hj
  obtain ⟨hclosed, hqueue, hfree, hlimit⟩ := submit_rest p
  refine ⟨submit_orderly h.toOrderly, fun hc j hj => ?_, fun hf => ?_, fun hz j => ⟨?_, ?_⟩⟩
  · rw [hqueue]
    exact h.waits (hclosed ▸ hc) j (hnew j _ hj (.inl rfl))
  · rw [hqueue]
    exact h.idle (hfree ▸ hf)
  · exact fun hj => (h.unlimited (hlimit ▸ hz) j).1 (hnew j _ hj (.inl rfl))
  · exact fun hj => (h.unlimited (hlimit ▸ hz) j).2 (hnew j _ hj (.inr rfl))

theorem enqueue_fair (h : Fair p) (hi : p.status i = some .submitted) (hl : p.limit ≠ 0)
    (hc : p.closed = false) (hf : p.free = 0) :
    Fair { p.setStatus i .queued with queue := p.queue ++ [i] } := by
  refine ⟨enqueue_orderly h.toOrderly hi hc, fun _ j hj => ?_, fun hfree => ?_, fun hz => ?_⟩
  · show j ∈ p.queue ++ [i]
    have hj : (p.setStatus i .queued).status j = some .queued := hj
    rw [setStatus_status hi] at hj
    by_cases he : j = i
    · simp [he]
    · rw [if_neg he] at hj
      simp [h.waits hc j hj]
  · have hfree : 0 < p.free := hfree
    omega
  · exact absurd hz hl

/-- Every step keeps the order in which permits are given. -/
theorem move_fair (h : Fair p) (hm : Move p s q) : Fair q := by
  have hset : ∀ {i was next}, p.status i = some was → was ≠ .queued → next ≠ .queued →
      next ≠ .handed → Fair (p.setStatus i next) := fun hi hw hq hh =>
    set_fair h (unqueued h.toOrderly hi hw) hq (fun _ => hh) hi
  cases hm with
  | submits => exact submit_fair h
  | unlimited i new => exact hset new (by decide) (by decide) (by decide)
  | takes i new limit on free =>
    have hq : Fair (p.setStatus i .running) := hset new (by decide) (by decide) (by decide)
    exact ⟨⟨hq.queued, hq.nodup, hq.closed⟩, hq.waits, fun _ => h.idle free, hq.unlimited⟩
  | queues i new limit on busy => exact enqueue_fair h new limit on busy
  | starts i handed => exact hset handed (by decide) (by decide) (by decide)
  | cancels i waits off =>
    have hnone : i ∉ p.queue := by simp [h.closed off]
    rcases waits with ⟨hi, -⟩ | hi <;> exact set_fair h hnone (by decide) (fun _ => by decide) hi
  | handsBack i handed off =>
    have hlimit : p.limit ≠ 0 := fun hz => (h.unlimited hz i).2 handed
    exact release_fair (hset handed (by decide) (by decide) (by decide)) hlimit
  | ends i panicked running => exact hset running (by decide) (by decide) (by decide)
  | returns i panicked running limit =>
    exact release_fair (hset running (by decide) (by decide) (by decide)) limit
  | closes =>
    have hempty : Orderly p.closePermits :=
      ⟨fun j hj => absurd hj List.not_mem_nil, List.nodup_nil, fun _ => rfl⟩
    exact ⟨hempty, nofun, fun _ => rfl, h.unlimited⟩
  | forgets | stops | detaches =>
    exact ⟨⟨h.queued, h.nodup, h.closed⟩, h.waits, h.idle, h.unlimited⟩

theorem move_limit (hm : Move p s q) : q.limit = p.limit := by
  cases hm with
  | submits => exact (submit_rest p).2.2.2
  | handsBack | returns => exact release_limit _
  | _ => rfl

theorem resume_isSome (p : Pool) (i : Nat) :
    (p.resume i).isSome = (p.status i).any (TaskStatus.goesOn p.closed) := by
  unfold resume
  cases hs : p.status i with
  | none => rfl
  | some was =>
    cases was with
    | submitted =>
      by_cases hl : p.limit = 0
      · simp [hl, TaskStatus.goesOn]
      · by_cases hc : p.closed = true
        · simp [hl, hc, TaskStatus.goesOn]
        · by_cases hf : 0 < p.free <;> simp [hl, hc, hf, TaskStatus.goesOn]
    | queued => by_cases hc : p.closed = true <;> simp [hc, TaskStatus.goesOn]
    | handed => by_cases hc : p.closed = true <;> simp [hc, TaskStatus.goesOn]
    | _ => rfl

inductive Goes (p : Pool) : TaskStatus → TaskStatus → Prop where
  | runs (on : p.limit = 0 ∨ p.closed = false) : Goes p .submitted .running
  | queues (on : p.closed = false) : Goes p .submitted .queued
  | starts (on : p.closed = false) : Goes p .handed .running
  | drops {was : TaskStatus} (waits : was.stage = .pending) (limit : p.limit ≠ 0)
      (off : p.closed = true) : Goes p was .cancelled

theorem resume_self (h : Fair p) (hm : Move p (.resume i) q) :
    ∃ was next, p.status i = some was ∧ q.status i = some next ∧ Goes p was next := by
  cases hm with
  | unlimited _ new limit => exact ⟨_, _, new, setStatus_self new .running, .runs (.inl limit)⟩
  | takes _ new _ on => exact ⟨_, _, new, setStatus_self new .running, .runs (.inr on)⟩
  | queues _ new limit on => exact ⟨_, _, new, setStatus_self new .queued, .queues on⟩
  | starts _ handed on => exact ⟨_, _, handed, setStatus_self handed .running, .starts on⟩
  | cancels _ waits off =>
    rcases waits with ⟨new, limit⟩ | queued
    · exact ⟨_, _, new, setStatus_self new .cancelled, .drops rfl limit off⟩
    · have limit : p.limit ≠ 0 := fun hz => (h.unlimited hz i).1 queued
      exact ⟨_, _, queued, setStatus_self queued .cancelled, .drops rfl limit off⟩
  | handsBack _ handed off =>
    have limit : p.limit ≠ 0 := fun hz => (h.unlimited hz i).2 handed
    exact ⟨_, _, handed, return_self h.toOrderly handed (by decide) (by decide),
      .drops rfl limit off⟩

theorem goes_pending (h : Goes p was next) : was.stage = .pending := by
  cases h with
  | drops waits => exact waits
  | _ => rfl

theorem goes_once (h : Goes p was next) : next.goesOn p.closed = false := by
  cases h with
  | queues on => exact on
  | _ => rfl

theorem resume_other (h : Orderly p) (hm : Move p (.resume i) q) (hij : i ≠ j) :
    q.status j = p.status j := by
  cases hm with
  | handsBack _ handed off =>
    have hq : (p.setStatus i .cancelled).queue = [] := h.closed off
    rw [release_status (set_orderly h handed (by decide) _), hq]
    exact setStatus_other hij _
  | unlimited | starts | cancels | takes | queues => exact setStatus_other hij _

theorem finish_self {panicked : Bool} (h : Orderly p) (hm : Move p (.finish i panicked) q) :
    p.status i = some .running ∧ q.status i = some .finished := by
  cases hm with
  | ends _ _ running => exact ⟨running, setStatus_self running .finished⟩
  | returns _ _ running => exact ⟨running, return_self h running (by decide) (by decide)⟩

/-- A task that ends changes no other one than that which gets its permit. -/
theorem finish_other {panicked : Bool} (h : Fair p) (hm : Move p (.finish i panicked) q)
    (hij : i ≠ j) : p.queue.head? ≠ some j ∧ q.status j = p.status j ∨
      p.queue.head? = some j ∧ p.status j = some .queued ∧ q.status j = some .handed := by
  have hqueued : p.queue.head? = some j → p.status j = some .queued := fun hj =>
    h.queued j (List.mem_of_mem_head? hj)
  cases hm with
  | ends _ _ running limit =>
    exact .inl ⟨fun hj => (h.unlimited limit j).1 (hqueued hj), setStatus_other hij _⟩
  | returns _ _ running =>
    have hq : (p.setStatus i .finished).queue = p.queue := rfl
    rw [release_status (set_orderly h.toOrderly running (by decide) _), hq]
    by_cases hj : p.queue.head? = some j
    · rw [if_pos hj]
      exact .inr ⟨hj, hqueued hj, rfl⟩
    · rw [if_neg hj]
      exact .inl ⟨hj, setStatus_other hij _⟩

/-- A task that is over stays as it is. -/
theorem move_over (h : Fair p) (hm : Move p s q) (hj : p.status j = some was)
    (ho : was.isOver = true) : q.status j = some was := by
  cases s with
  | submit =>
    have hlt := (List.getElem?_eq_some_iff.mp hj).1
    cases hm
    rw [submit_status, if_neg (by omega), hj]
  | resume i =>
    by_cases hij : i = j
    · obtain ⟨old, next, hold, -, hgo⟩ := resume_self h hm
      have hpending := goes_pending hgo
      rw [hij, hj] at hold
      rw [← Option.some.inj hold, (TaskStatus.over_iff was).mp ho] at hpending
      cases hpending
    · rw [resume_other h.toOrderly hm hij, hj]
  | finish i panicked =>
    by_cases hij : i = j
    · have hold := (finish_self h.toOrderly hm).1
      rw [hij, hj] at hold
      rw [Option.some.inj hold] at ho
      cases ho
    · rcases finish_other h hm hij with ⟨-, hsame⟩ | ⟨-, hqueued, -⟩
      · rw [hsame, hj]
      · rw [hj] at hqueued
        rw [Option.some.inj hqueued] at ho
        cases ho
  | _ =>
    cases hm
    exact hj

structure Kept (p q : Pool) : Prop where
  length : q.tasks.length = p.tasks.length
  accepting : q.accepting = p.accepting
  closed : q.closed = p.closed
  tracked : q.tracked = p.tracked

theorem release_length (p : Pool) : p.release.tasks.length = p.tasks.length := by
  unfold release
  split
  · rfl
  · exact List.length_set

theorem set_kept (p : Pool) (i : Nat) (next : TaskStatus) : Kept p (p.setStatus i next) :=
  ⟨List.length_set, rfl, rfl, rfl⟩

theorem return_kept (p : Pool) (i : Nat) (next : TaskStatus) :
    Kept p (p.setStatus i next).release := by
  have hset := set_kept p i next
  exact ⟨(release_length _).trans hset.length, release_accepting _, release_closed _,
    release_tracked _⟩

theorem resume_kept (hm : Move p (.resume i) q) : Kept p q := by
  cases hm with
  | handsBack => exact return_kept p i .cancelled
  | unlimited | starts | cancels => exact set_kept p i _
  | takes | queues => exact ⟨List.length_set, rfl, rfl, rfl⟩

theorem finish_kept {panicked : Bool} (hm : Move p (.finish i panicked) q) : Kept p q := by
  cases hm with
  | ends => exact set_kept p i .finished
  | returns => exact return_kept p i .finished

theorem make_eq {limit : Nat} (h : make limit = .ok p) :
    p = ⟨limit, true, false, limit, [], [], []⟩ := by
  unfold make at h
  split at h
  · exact (Except.ok.inj h).symm
  · cases h

theorem make_fair {limit : Nat} (h : make limit = .ok p) : Fair p := by
  rw [make_eq h]
  exact ⟨⟨by simp, by simp, by simp⟩, by simp [status], by simp, by simp [status]⟩

end
end Pool
end Wiretap
