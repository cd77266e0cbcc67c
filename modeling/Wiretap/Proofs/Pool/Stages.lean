import Wiretap.Pool

/-! The stages that tasks of a pool go through. Handing on a permit does not
change the stage of a task, so every step of a pool moves at most the one task
that it is about. -/

set_option autoImplicit false

namespace Wiretap

inductive Stage where
  | pending
  | running
  | finished
  deriving DecidableEq, Repr

def TaskStatus.stage : TaskStatus → Stage
  | .submitted => .pending
  | .queued => .pending
  | .handed => .pending
  | .running => .running
  | .finished => .finished
  | .cancelled => .finished
  | .rejected => .finished

theorem TaskStatus.over_iff (status : TaskStatus) :
    status.isOver = true ↔ status.stage = .finished := by
  cases status <;> decide

namespace Pool

def stages (p : Pool) : List Stage := p.tasks.map TaskStatus.stage

structure Orderly (p : Pool) : Prop where
  queued : ∀ i ∈ p.queue, p.status i = some .queued
  nodup : p.queue.Nodup
  closed : p.closed = true → p.queue = []

section
variable {p q : Pool} {i : Nat} {was : TaskStatus}

@[simp] theorem setStatus_stages (p : Pool) (i : Nat) (next : TaskStatus) :
    (p.setStatus i next).stages = p.stages.set i next.stage := List.map_set

theorem status_stage (h : p.status i = some was) : p.stages[i]? = some was.stage := by
  have hi : p.tasks[i]? = some was := h
  simp [stages, hi]

theorem setStatus_same {next : TaskStatus} (h : p.status i = some was)
    (hs : next.stage = was.stage) : (p.setStatus i next).stages = p.stages := by
  rw [setStatus_stages, hs]
  obtain ⟨hi, heq⟩ := List.getElem?_eq_some_iff.mp (status_stage h)
  rw [← heq, List.set_getElem_self]

theorem setStatus_other {j : Nat} (hij : i ≠ j) (next : TaskStatus) :
    (p.setStatus i next).status j = p.status j := List.getElem?_set_ne hij

theorem setStatus_self (h : p.status i = some was) (next : TaskStatus) :
    (p.setStatus i next).status i = some next := by
  obtain ⟨hi, -⟩ := List.getElem?_eq_some_iff.mp h
  exact List.getElem?_set_self hi

theorem setStatus_orderly (h : Orderly p) (hi : i ∉ p.queue) (next : TaskStatus) :
    Orderly (p.setStatus i next) := by
  refine ⟨fun j hj => ?_, h.nodup, h.closed⟩
  have hij : i ≠ j := fun he => hi (he ▸ hj)
  rw [setStatus_other hij]
  exact h.queued j hj

theorem unqueued (h : Orderly p) (hi : p.status i = some was) (hs : was ≠ .queued) :
    i ∉ p.queue := by
  intro hq
  rw [h.queued i hq] at hi
  exact hs (Option.some.inj hi).symm

theorem release_orderly (h : Orderly p) : Orderly p.release := by
  unfold release
  split
  · rename_i hq
    exact ⟨fun j hj => h.queued j hj, h.nodup, h.closed⟩
  · rename_i i queue hq
    have hn := hq ▸ h.nodup
    obtain ⟨hi, hrest⟩ := List.nodup_cons.mp hn
    refine ⟨fun j hj => ?_, hrest, fun hc => ?_⟩
    · have hij : i ≠ j := fun he => hi (he ▸ hj)
      show (p.setStatus i .handed).status j = _
      rw [setStatus_other hij]
      exact h.queued j (hq ▸ List.mem_cons_of_mem _ hj)
    · have := h.closed hc
      rw [hq] at this
      cases this

theorem release_stages (h : Orderly p) : p.release.stages = p.stages := by
  unfold release
  split
  · rfl
  · rename_i i queue hq
    have hi : p.status i = some .queued := h.queued i (hq ▸ List.mem_cons_self)
    exact setStatus_same hi rfl

theorem submit_stages (p : Pool) :
    p.submit.1.stages = p.stages ++ [if p.submit.2 then .pending else .finished] := by
  unfold submit
  split <;> simp [stages, TaskStatus.stage]

theorem submit_orderly (h : Orderly p) : Orderly p.submit.1 := by
  have hold : ∀ j ∈ p.queue, ∀ status : TaskStatus, (p.tasks ++ [status])[j]? = some .queued := by
    intro j hj status
    have hstatus := h.queued j hj
    obtain ⟨hlt, -⟩ := List.getElem?_eq_some_iff.mp hstatus
    rw [List.getElem?_append_left hlt]
    exact hstatus
  unfold submit
  split
  · exact ⟨fun j hj => hold j hj .submitted, h.nodup, h.closed⟩
  · exact ⟨fun j hj => hold j hj .rejected, h.nodup, h.closed⟩

/-- A task that asks for a permit in vain comes last in the queue. -/
theorem enqueue_orderly (h : Orderly p) (hi : p.status i = some .submitted)
    (hc : p.closed = false) :
    Orderly { p.setStatus i .queued with queue := p.queue ++ [i] } := by
  have hnot := unqueued h hi (by decide)
  refine ⟨fun j hj => ?_, ?_, fun hclosed => ?_⟩
  · show (p.setStatus i .queued).status j = _
    rcases List.mem_append.mp hj with hj | hj
    · have hij : i ≠ j := fun he => hnot (he ▸ hj)
      rw [setStatus_other hij]
      exact h.queued j hj
    · rw [List.mem_singleton.mp hj]
      exact setStatus_self hi .queued
  · rw [List.nodup_append]
    refine ⟨h.nodup, by simp, ?_⟩
    intro a ha b hb he
    rw [List.mem_singleton.mp hb] at he
    exact hnot (he ▸ ha)
  · have : p.closed = true := hclosed
    rw [hc] at this
    cases this

def Resumes (next : TaskStatus) : Prop := next = .running ∨ next = .cancelled ∨ next = .queued

def Resumed (p q : Pool) (i : Nat) : Prop :=
  ∃ next, Resumes next ∧ q.status i = some next ∧ q.stages = p.stages.set i next.stage

theorem setStatus_resumed (hi : p.status i = some was) {next : TaskStatus} (hn : Resumes next) :
    Resumed p (p.setStatus i next) i :=
  ⟨next, hn, setStatus_self hi next, setStatus_stages p i next⟩

theorem resume_submitted (h : Orderly p) (hi : p.status i = some .submitted)
    (hr : p.resume i = some q) : Orderly q ∧ Resumed p q i := by
  have hset := setStatus_orderly h (unqueued h hi (by decide))
  have hruns := setStatus_resumed hi (.inl rfl)
  have hcancelled := setStatus_resumed hi (.inr (.inl rfl))
  simp only [resume, hi] at hr
  split at hr
  · cases hr
    exact ⟨hset .running, hruns⟩
  · split at hr
    · cases hr
      exact ⟨hset .cancelled, hcancelled⟩
    · rename_i hc
      split at hr <;> cases hr
      · exact ⟨⟨(hset .running).queued, h.nodup, h.closed⟩, hruns⟩
      · exact ⟨enqueue_orderly h hi (by simpa using hc), setStatus_resumed hi (.inr (.inr rfl))⟩

theorem resume_handed (h : Orderly p) (hi : p.status i = some .handed)
    (hr : p.resume i = some q) : Orderly q ∧ Resumed p q i := by
  have hset := setStatus_orderly h (unqueued h hi (by decide))
  have hruns := setStatus_resumed hi (.inl rfl)
  have hcancelled := setStatus_resumed hi (.inr (.inl rfl))
  simp only [resume, hi] at hr
  split at hr <;> cases hr
  · rename_i hc
    have hnone : (p.setStatus i .cancelled).queue = [] := h.closed hc
    refine ⟨release_orderly (hset .cancelled), ?_⟩
    rw [release, hnone]
    exact hcancelled
  · exact ⟨hset .running, hruns⟩

/-- A task that is resumed was pending, and only its stage changes. -/
theorem resume_stages (h : Orderly p) (hr : p.resume i = some q) :
    Orderly q ∧ p.stages[i]? = some .pending ∧ Resumed p q i := by
  cases hi : p.status i with
  | none => simp [resume, hi] at hr
  | some was =>
    cases was with
    | submitted =>
      obtain ⟨hq, hnext⟩ := resume_submitted h hi hr
      exact ⟨hq, status_stage hi, hnext⟩
    | queued =>
      simp only [resume, hi, Option.ite_none_right_eq_some, Option.some.injEq] at hr
      obtain ⟨hc, rfl⟩ := hr
      have hnone : i ∉ p.queue := by simp [h.closed hc]
      exact ⟨setStatus_orderly h hnone .cancelled, status_stage hi,
        setStatus_resumed hi (.inr (.inl rfl))⟩
    | handed =>
      obtain ⟨hq, hnext⟩ := resume_handed h hi hr
      exact ⟨hq, status_stage hi, hnext⟩
    | _ => simp [resume, hi] at hr

theorem finish_stages (h : Orderly p) (hf : p.finish i = some q) :
    Orderly q ∧ q.stages = p.stages.set i .finished := by
  unfold finish at hf
  split at hf
  · rename_i hi
    cases hf
    have hset := setStatus_orderly h (unqueued h hi (by decide)) .finished
    split
    · exact ⟨hset, setStatus_stages p i .finished⟩
    · exact ⟨release_orderly hset, by rw [release_stages hset, setStatus_stages]; rfl⟩
  · cases hf

theorem finish_running (h : p.status i = some .running) : ∃ q, p.finish i = some q := by
  rw [finish, h]
  exact ⟨_, rfl⟩

end

end Pool
end Wiretap
