import Wiretap.Proofs.Pool.Permits

/-!
# Tasks in line for a permit

A permit is free, or one task has it, at every moment. The tasks that have not got
one are the last ones, and they stand in line in the order in which they came: first
those that asked for a permit, then those that have not been resumed yet.
-/

set_option autoImplicit false

namespace Wiretap.Pool

def permits (p : Pool) : Nat := p.free + p.tasks.countP TaskStatus.holds

def isNew (p : Pool) (i : Nat) : Bool := p.status i = some .submitted

/-- The tasks that have not got a permit are the last ones of those that were accepted, in the
order in which they will get one. -/
structure Lined (accepted : Nat) (p : Pool) (ready : List Nat) (next : Nat) : Prop where
  order : p.queue ++ ready.filter p.isNew = List.range' next (accepted - next)
  bound : next ≤ accepted
  served : ∀ i < next, p.status i ≠ some .submitted ∧ p.status i ≠ some .queued
  among : ∀ i ∈ ready, i < accepted

section
variable {p q : Pool} {i n next accepted : Nat} {ready : List Nat} {was new : TaskStatus}

theorem set_permits (h : p.status i = some was) (new : TaskStatus) :
    (p.setStatus i new).permits + (if was.holds then 1 else 0) =
      p.permits + if new.holds then 1 else 0 := by
  obtain ⟨hi, heq⟩ := List.getElem?_eq_some_iff.mp h
  have hpos : was.holds = true → 0 < p.tasks.countP TaskStatus.holds := fun hw =>
    List.countP_pos_iff.mpr ⟨was, heq ▸ List.getElem_mem hi, hw⟩
  show p.free + (p.tasks.set i new).countP _ + _ = p.free + p.tasks.countP _ + _
  rw [List.countP_set hi, heq]
  by_cases hw : was.holds = true
  · have := hpos hw
    simp only [hw, if_true]
    omega
  · simp only [hw, if_false, Bool.false_eq_true]
    omega

theorem release_permits (h : Orderly p) : p.release.permits = p.permits + 1 := by
  unfold release
  split
  · exact Nat.add_right_comm p.free 1 _
  · rename_i k queue hq
    have hk : p.status k = some .queued := h.queued k (by simp [hq])
    exact set_permits hk .handed

/-- No step makes a permit or loses one. -/
theorem move_permits {s : Step} (h : Fair p) (hl : p.limit ≠ 0) (hm : Move p s q) :
    q.permits = p.permits := by
  have hset : ∀ {k was}, p.status k = some was → was ≠ .queued → ∀ next,
      Orderly (p.setStatus k next) := fun hk hw next => set_orderly h.toOrderly hk hw next
  cases hm with
  | submits =>
    unfold submit permits
    split <;> simp [TaskStatus.holds]
  | unlimited k new limit => exact absurd limit hl
  | takes k new limit on free =>
    have hsum : p.free + (p.setStatus k .running).tasks.countP TaskStatus.holds =
        p.free + p.tasks.countP TaskStatus.holds + 1 := set_permits new .running
    show p.free - 1 + (p.setStatus k .running).tasks.countP TaskStatus.holds = 
      p.free + p.tasks.countP TaskStatus.holds
    omega
  | queues k new => exact set_permits new .queued
  | starts k handed => exact Nat.succ.inj (set_permits handed .running)
  | cancels k waits =>
    rcases waits with ⟨new, -⟩ | queued
    · exact set_permits new .cancelled
    · exact set_permits queued .cancelled
  | handsBack k handed =>
    exact (release_permits (hset handed (by decide) _)).trans (set_permits handed .cancelled)
  | ends k panicked running limit => exact absurd limit hl
  | returns k panicked running =>
    exact (release_permits (hset running (by decide) _)).trans (set_permits running .finished)
  | forgets | stops | closes | detaches => rfl

theorem isNew_iff : p.isNew i = true ↔ p.status i = some .submitted := by simp [isNew]

/-- The first of those that wait is the next one to get a permit. -/
theorem lined_first {rest : List Nat} (h : Lined accepted p ready next)
    (hw : p.queue ++ ready.filter p.isNew = i :: rest) :
    i = next ∧ rest = List.range' (next + 1) (accepted - (next + 1)) ∧ next < accepted := by
  have horder := h.order
  rw [hw] at horder
  cases hn : accepted - next with
  | zero =>
    rw [hn, List.range'_zero] at horder
    cases horder
  | succ n =>
    rw [hn, List.range'_succ, List.cons.injEq] at horder
    have hrest : n = accepted - (next + 1) := by omega
    exact ⟨horder.1, hrest ▸ horder.2, by omega⟩

theorem lined_nodup (h : Lined accepted p ready next) :
    (p.queue ++ ready.filter p.isNew).Nodup := h.order ▸ List.nodup_range'

theorem lined_served (h : Lined accepted p ready next)
    (hi : p.status i = some .submitted ∨ p.status i = some .queued) : next ≤ i := by
  by_cases hlt : i < next
  · have hs := h.served i hlt
    exact (hi.elim hs.1 hs.2).elim
  · omega

theorem lined_waits (h : Lined accepted p ready next) (hf : Orderly p) (hle : next ≤ i)
    (hlt : i < accepted) : p.status i = some .submitted ∨ p.status i = some .queued := by
  have hmem : i ∈ p.queue ++ ready.filter p.isNew := by
    rw [h.order, List.mem_range'_1]
    omega
  rcases List.mem_append.mp hmem with hq | hr
  · exact .inr (hf.queued i hq)
  · exact .inl (isNew_iff.mp (List.mem_filter.mp hr).2)

theorem popped_lined (h : Lined accepted p (i :: ready) next) (hi : p.status i ≠ some .submitted) :
    Lined accepted p ready next := by
  have hnot : p.isNew i = false := by simpa [isNew] using hi
  exact ⟨by simpa [hnot] using h.order, h.bound, h.served,
    fun j hj => h.among j (List.mem_cons_of_mem i hj)⟩

theorem resume_queue (hl : p.limit ≠ 0) (hc : p.closed = false) (hm : Move p (.resume i) q) :
    p.status i = some .submitted ∧ q.status i = some .running ∧ 0 < p.free ∧ q.queue = p.queue ∨
    p.status i = some .submitted ∧ q.status i = some .queued ∧ q.queue = p.queue ++ [i] ∨
    p.status i = some .handed ∧ q.status i = some .running ∧ q.queue = p.queue := by
  cases hm with
  | unlimited _ new limit => exact absurd limit hl
  | takes _ new _ _ free => exact .inl ⟨new, setStatus_self new .running, free, rfl⟩
  | queues _ new => exact .inr (.inl ⟨new, setStatus_self new .queued, rfl⟩)
  | starts _ handed => exact .inr (.inr ⟨handed, setStatus_self handed .running, rfl⟩)
  | cancels _ _ off | handsBack _ _ off => rw [hc] at off; cases off

theorem finish_queue {panicked : Bool} (hl : p.limit ≠ 0) (hm : Move p (.finish i panicked) q) :
    q.queue = p.queue.tail := by
  cases hm with
  | ends _ _ _ limit => exact absurd limit hl
  | returns => exact release_queue _

theorem resume_lined (hf : Fair p) (hl : p.limit ≠ 0) (hc : p.closed = false)
    (h : Lined accepted p (i :: ready) next) (hm : Move p (.resume i) q) :
    ∃ later, Lined accepted q ready later := by
  have hother : ∀ j, i ≠ j → q.status j = p.status j := fun j hij =>
    resume_other hf.toOrderly hm hij
  have hsame : i ∉ ready.filter p.isNew → q.status i ≠ some .submitted →
      ready.filter q.isNew = ready.filter p.isNew := by
    intro hnot hold
    refine List.filter_congr fun j hj => ?_
    by_cases hij : i = j
    · subst hij
      have hp : p.isNew i = false := by simpa [hj] using hnot
      have hq : q.isNew i = false := by simpa [isNew] using hold
      rw [hp, hq]
    · simp only [isNew, hother j hij]
  have hnodup := lined_nodup h
  have hamong : ∀ j ∈ ready, j < accepted := fun j hj => h.among j (List.mem_cons_of_mem i hj)
  obtain ⟨hnew, hthen, hfree, hqueue⟩ | ⟨hnew, hthen, hqueue⟩ | ⟨hhanded, hthen, hqueue⟩ :=
    resume_queue hl hc hm
  · have hwait : p.queue ++ (i :: ready).filter p.isNew = i :: ready.filter p.isNew := by
      simp [hf.idle hfree, isNew_iff.mpr hnew]
    obtain ⟨rfl, hrest, hlt⟩ := lined_first h hwait
    rw [hwait, List.nodup_cons] at hnodup
    refine ⟨i + 1, ?_, hlt, fun j hj => ?_, hamong⟩
    · rw [hqueue, hf.idle hfree, hsame hnodup.1 (by simp [hthen]), ← hrest]
      rfl
    · by_cases hij : i = j
      · simp [← hij, hthen]
      · rw [hother j hij]
        exact h.served j (by omega)
  · have hwait : p.queue ++ (i :: ready).filter p.isNew =
        p.queue ++ i :: ready.filter p.isNew := by simp [isNew_iff.mpr hnew]
    have hle := lined_served h (.inl hnew)
    have hnot : i ∉ ready.filter p.isNew := by
      rw [hwait] at hnodup
      exact (List.nodup_cons.mp hnodup.of_append_right).1
    refine ⟨next, ?_, h.bound, fun j hj => ?_, hamong⟩
    · rw [hqueue, hsame hnot (by simp [hthen]), ← h.order, hwait, ← List.append_cons]
    · rw [hother j (by omega)]
      exact h.served j hj
  · have hpopped := popped_lined h (by simp [hhanded])
    have hnot : i ∉ ready.filter p.isNew := by simp [isNew, hhanded]
    refine ⟨next, ?_, h.bound, fun j hj => ?_, hamong⟩
    · rw [hqueue, hsame hnot (by simp [hthen])]
      exact hpopped.order
    · by_cases hij : i = j
      · simp [← hij, hthen]
      · rw [hother j hij]
        exact h.served j hj

/-- The permit of a task that ends goes to the next one, if any waits for it. -/
theorem finish_lined {panicked : Bool} (hf : Fair p) (hl : p.limit ≠ 0)
    (h : Lined accepted p ready next) (hm : Move p (.finish i panicked) q) :
    ∃ later, Lined accepted q (ready ++ p.queue.take 1) later := by
  obtain ⟨hrun, hthen⟩ := finish_self hf.toOrderly hm
  have hnew : ∀ j, q.isNew j = p.isNew j := by
    intro j
    by_cases hij : i = j
    · simp [isNew, ← hij, hrun, hthen]
    · obtain ⟨-, hsame⟩ | ⟨-, hqueued, hhanded⟩ := finish_other hf hm hij
      · simp [isNew, hsame]
      · simp [isNew, hqueued, hhanded]
  have hwas : ready.filter q.isNew = ready.filter p.isNew :=
    List.filter_congr fun j _ => hnew j
  have hserved : ∀ j, p.status j ≠ some .submitted ∧ p.status j ≠ some .queued →
      q.status j ≠ some .submitted ∧ q.status j ≠ some .queued := by
    intro j hj
    by_cases hij : i = j
    · simp [← hij, hthen]
    · obtain ⟨-, hsame⟩ | ⟨-, -, hhanded⟩ := finish_other hf hm hij
      · rwa [hsame]
      · simp [hhanded]
  cases hq : p.queue with
  | nil =>
    refine ⟨next, ?_, h.bound, fun j hj => hserved j (h.served j hj), by simpa using h.among⟩
    rw [finish_queue hl hm, hq, List.take_nil, List.append_nil, hwas, ← h.order, hq]
    rfl
  | cons k queue =>
    have hk : p.status k = some .queued := hf.queued k (by simp [hq])
    have hwait : p.queue ++ ready.filter p.isNew = k :: (queue ++ ready.filter p.isNew) := by
      rw [hq]
      rfl
    obtain ⟨rfl, hrest, hlt⟩ := lined_first h hwait
    have hold : q.isNew k = false := by rw [hnew]; simp [isNew, hk]
    refine ⟨k + 1, ?_, hlt, fun j hj => ?_, fun j hj => ?_⟩
    · rw [finish_queue hl hm, hq, ← hrest]
      simp [hwas, hold]
    · by_cases hjk : j = k
      · subst hjk
        have hij : i ≠ j := by
          rintro rfl
          rw [hrun] at hk
          cases hk
        obtain ⟨hhead, -⟩ | ⟨-, -, hhanded⟩ := finish_other hf hm hij
        · exact absurd (by simp [hq]) hhead
        · simp [hhanded]
      · exact hserved j (h.served j (by omega))
    · rcases List.mem_append.mp hj with hold | hhead
      · exact h.among j hold
      · rw [List.take_succ_cons, List.take_zero, List.mem_singleton] at hhead
        omega

end
end Wiretap.Pool
