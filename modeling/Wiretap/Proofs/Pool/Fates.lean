import Wiretap.Proofs.Pool.Life

/-!
# What becomes of the tasks of a pool

All that is heard of a task follows from its status: it was rejected, or dropped, or
started once and left to itself. Tasks are rejected only when a shutdown was called,
and dropped only by a pool with a limit whose graceful wait has expired. When the
shutdown has returned each task has its fate, or has it as soon as it goes on.
-/

set_option autoImplicit false

namespace Wiretap

namespace Pool

def Deed.task? : Deed → Option Nat
  | .rejected i => some i
  | .started i => some i
  | .ended i _ => some i
  | .dropped i => some i
  | .aborted i => some i
  | _ => none

def story (log : List (Nat × Deed)) (i : Nat) : List Deed :=
  (log.map Prod.snd).filter (fun d => d.task? = some i)

end Pool

open Pool in
def TaskStatus.Tells (i : Nat) : TaskStatus → List Deed → Prop
  | .running, told => told = [.started i]
  | .finished, told => ∃ panicked, told = [.started i, .ended i panicked]
  | .cancelled, told => told = [.dropped i]
  | .rejected, told => told = [.rejected i]
  | _, told => told = []

namespace Pool

def Tells (p : Pool) (i : Nat) (told : List Deed) : Prop :=
  (p.status i).elim (told = []) (fun was => was.Tells i told)

def After (first : Deed) (kind : Deed → Prop) (log : List (Nat × Deed)) : Prop :=
  ∀ before t d later, log = before ++ (t, d) :: later → kind d → ∃ s, (s, first) ∈ before

namespace Life

section
variable {clock : Clock} {p q : Pool} {i j k n limit : Nat} {was next : TaskStatus} {d first : Deed}
  {told deeds : List Deed} {l m : Life} {log more : List (Nat × Deed)} {kind : Deed → Prop}

theorem story_append (log : List (Nat × Deed)) (t : Nat) (deeds : List Deed) (i : Nat) :
    story (log ++ deeds.map (fun d => (t, d))) i =
      story log i ++ deeds.filter (fun d => d.task? = some i) := by
  simp [story, Function.comp_def]

theorem mem_story {t : Nat} (h : (t, d) ∈ log) (hd : d.task? = some i) : d ∈ story log i :=
  List.mem_filter.mpr ⟨List.mem_map.mpr ⟨_, h, rfl⟩, by simpa using hd⟩

theorem after_nil : After first kind [] := by
  intro before t d later h
  simp at h

theorem after_append (h : After first kind log)
    (hm : ∀ x ∈ more, kind x.2 → ∃ s, (s, first) ∈ log) : After first kind (log ++ more) := by
  intro before t d later hsplit hd
  rcases List.append_eq_append_iff.mp hsplit with ⟨rest, hbefore, hrest⟩ | ⟨rest, hlog, hrest⟩
  · have hmem : (t, d) ∈ more := hrest ▸ List.mem_append_right rest List.mem_cons_self
    obtain ⟨s, hs⟩ := hm _ hmem hd
    exact ⟨s, hbefore ▸ List.mem_append_left rest hs⟩
  · cases rest with
    | nil =>
      have hmem : (t, d) ∈ more := by
        have hcons : (t, d) :: later = more := hrest
        exact hcons ▸ List.mem_cons_self
      obtain ⟨s, hs⟩ := hm _ hmem hd
      have heq : log = before := by simpa using hlog
      exact ⟨s, heq ▸ hs⟩
    | cons x rest =>
      obtain ⟨hx, -⟩ := List.cons.inj hrest
      exact h before t d rest (hx ▸ hlog) hd

theorem pending_tells (hw : was.stage = .pending) : was.Tells i told ↔ told = [] := by
  cases was with
  | submitted | queued | handed => exact Iff.rfl
  | _ => cases hw

theorem tells_same (h : q.status j = p.status j) (hg : Tells p j told) : Tells q j told := by
  rw [Tells, h]
  exact hg

theorem tells_submit (hg : Tells p j told) :
    Tells p.submit.1 j (told ++ (if p.submit.2 then [] else [.rejected p.tasks.length]).filter
      (fun d : Deed => d.task? = some j)) := by
  rw [Tells, submit_status]
  unfold submit
  by_cases hj : j = p.tasks.length
  · have hnone : p.status j = none := List.getElem?_eq_none_iff.mpr (by omega)
    rw [Tells, hnone] at hg
    have hg : told = [] := hg
    by_cases ha : p.accepting = true <;> simp [ha, hj, hg, TaskStatus.Tells, Deed.task?]
  · have hsilent : [Deed.rejected p.tasks.length].filter (fun d => d.task? = some j) = [] := by
      simp [Deed.task?, Ne.symm hj]
    rw [if_neg hj]
    by_cases ha : p.accepting = true
    · simp only [ha, if_true, List.filter_nil, List.append_nil]
      exact hg
    · simp only [ha, if_false, Bool.false_eq_true, hsilent, List.append_nil]
      exact hg

theorem news_other (next : TaskStatus) (hjk : j ≠ k) :
    (news k next).filter (fun d => d.task? = some j) = [] := by
  cases next <;> simp [news, Deed.task?, Ne.symm hjk]

theorem resume_told (h : Fair p) (hm : Move p (.resume k) q) (hg : Tells p j told) :
    Tells q j (told ++ (q.polled k).filter (fun d => d.task? = some j)) := by
  obtain ⟨was, next, hwas, hnext, hgo⟩ := resume_self h hm
  rw [polled_status hnext]
  by_cases hj : j = k
  · subst hj
    rw [Tells, hwas] at hg
    rw [(pending_tells (goes_pending hgo)).mp hg, Tells, hnext]
    cases hgo <;> simp [TaskStatus.Tells, news, Deed.task?]
  · rw [news_other next hj, List.append_nil]
    exact tells_same (resume_other h.toOrderly hm (Ne.symm hj)) hg

theorem handedOn_quiet (p : Pool) (j : Nat) :
    p.handedOn.filter (fun d : Deed => d.task? = some j) = [] := by
  rw [List.filter_eq_nil_iff]
  intro d hd
  obtain ⟨i, -, rfl⟩ := mem_handedOn.mp hd
  simp [Deed.task?]

/-- A task that ends was started, and hands its permit to one of which nothing was heard. -/
theorem finish_told {panicked : Bool} (h : Fair p) (hm : Move p (.finish k panicked) q)
    (hg : Tells p j told) :
    Tells q j (told ++ (.ended k panicked :: p.handedOn).filter
      (fun d : Deed => d.task? = some j)) := by
  rw [List.filter_cons, handedOn_quiet]
  by_cases hj : j = k
  · subst hj
    obtain ⟨hwas, hnext⟩ := finish_self h.toOrderly hm
    rw [Tells, hwas] at hg
    have hg : told = [.started j] := hg
    rw [Tells, hnext, hg]
    exact ⟨panicked, by simp [Deed.task?]⟩
  · have hother : ¬ Deed.task? (.ended k panicked) = some j := by simp [Deed.task?, Ne.symm hj]
    simp only [hother, decide_false, Bool.false_eq_true, if_false, List.append_nil]
    rcases finish_other h hm (Ne.symm hj) with ⟨-, hsame⟩ | ⟨-, hqueued, hhanded⟩
    · exact tells_same hsame hg
    · rw [Tells, hqueued] at hg
      rw [Tells, hhanded]
      exact hg

theorem does_told (h : Agrees l) (hd : Does clock l m deeds) (hg : Tells l.pool j told) :
    Tells m.pool j (told ++ deeds.filter (fun d => d.task? = some j)) := by
  cases hd with
  | submits => exact tells_submit hg
  | polls move => exact resume_told h.fair move hg
  | ends move => exact finish_told h.fair move hg
  | drops outcome on =>
    have hnone := h.empty (by rw [on]; rfl)
    rw [abandon_none hnone, hnone]
    simpa using hg
  | _ =>
    simp only [Deed.task?, reduceCtorEq, decide_false, Bool.false_eq_true, not_false_eq_true,
      List.filter_cons_of_neg, List.filter_nil, List.append_nil]
    exact hg

theorem does_rejected (h : Agrees l) (hd : Does clock l m deeds) (hi : .rejected i ∈ deeds) :
    l.mode.isServing = false := by
  cases hd with
  | submits =>
    rw [← h.accepting]
    by_cases ha : l.pool.accepting = true
    · simp [submit, ha] at hi
    · simpa using ha
  | @polls k pool move =>
    rw [polled] at hi
    cases hs : pool.status k with
    | none => simp [hs] at hi
    | some was => cases was <;> simp [hs, news] at hi
  | _ => simp [mem_handedOn] at hi

/-- Tasks are dropped by a pool with a limit, after the graceful wait has expired. -/
theorem does_dropped (h : Agrees l) (hd : Does clock l m deeds) (hi : .dropped i ∈ deeds) :
    l.pool.limit ≠ 0 ∧ l.mode.isClosed = true := by
  rw [← h.closed]
  cases hd with
  | submits => split at hi <;> simp at hi
  | polls move =>
    obtain ⟨was, next, -, hnext, hgo⟩ := resume_self h.fair move
    rw [polled_status hnext] at hi
    cases hgo with
    | drops _ limit off => exact ⟨limit, off⟩
    | _ => simp [news] at hi
  | _ => simp [mem_handedOn] at hi

theorem resume_handed (h : Fair p) (hm : Move p (.resume k) q)
    (hq : q.status i = some .handed) : p.status i = some .handed := by
  by_cases hk : k = i
  · subst hk
    obtain ⟨was, next, -, hnext, hgo⟩ := resume_self h hm
    rw [hq] at hnext
    cases hnext
    cases hgo
  · rwa [resume_other h.toOrderly hm hk] at hq

theorem finish_handed {panicked : Bool} (h : Fair p) (hm : Move p (.finish k panicked) q)
    (hq : q.status i = some .handed) : p.status i = some .handed ∨ .handed i ∈ p.handedOn := by
  by_cases hk : k = i
  · subst hk
    rw [(finish_self h.toOrderly hm).2] at hq
    cases hq
  · rcases finish_other h hm hk with ⟨-, hsame⟩ | ⟨hhead, -, -⟩
    · exact .inl (hsame ▸ hq)
    · exact .inr (mem_handedOn.mpr ⟨i, hhead, rfl⟩)

theorem does_handed (h : Agrees l) (hd : Does clock l m deeds)
    (hq : m.pool.status i = some .handed) :
    l.pool.status i = some .handed ∨ .handed i ∈ deeds := by
  cases hd with
  | submits =>
    rw [submit_status] at hq
    by_cases hi : i = l.pool.tasks.length
    · rw [if_pos hi] at hq
      split at hq <;> cases hq
    · rw [if_neg hi] at hq
      exact .inl hq
  | polls move => exact .inl (resume_handed h.fair move hq)
  | ends move =>
    exact (finish_handed h.fair move hq).imp_right (List.mem_cons_of_mem _)
  | drops outcome on =>
    rw [abandon_none (h.empty (by rw [on]; rfl))] at hq
    exact .inl hq
  | _ => exact .inl hq

theorem does_mode (hd : Does clock l m deeds) :
    (m.mode.isServing = false → l.mode.isServing = false ∨ .closing ∈ deeds) ∧
    (m.mode.isClosed = true → l.mode.isClosed = true ∨ .expired ∈ deeds) := by
  cases hd with
  | calls graceful forced on => exact ⟨fun _ => .inr (by simp), nofun⟩
  | waits graceful forced on => exact ⟨fun _ => .inl (by rw [on]; rfl), nofun⟩
  | drains deadline forced on => exact ⟨fun _ => .inl (by rw [on]; rfl), nofun⟩
  | drainsLate deadline on | detaches deadline on =>
    exact ⟨fun _ => .inl (by rw [on]; rfl), fun _ => .inl (by rw [on]; rfl)⟩
  | expires deadline forced on => exact ⟨fun _ => .inl (by rw [on]; rfl), fun _ => .inr (by simp)⟩
  | _ => exact ⟨.inl, .inl⟩

structure Heard (limit : Nat) (l : Life) (log : List (Nat × Deed)) : Prop where
  told : ∀ i, Tells l.pool i (story log i)
  closing : l.mode.isServing = false → ∃ t, (t, .closing) ∈ log
  expired : l.mode.isClosed = true → ∃ t, (t, .expired) ∈ log
  rejected : After .closing (fun d => ∃ i, d = .rejected i) log
  dropped : After .expired (fun d => ∃ i, d = .dropped i) log
  limited : ∀ t i, (t, .dropped i) ∈ log → limit ≠ 0
  handed : ∀ i, l.pool.status i = some .handed → ∃ t, (t, .handed i) ∈ log

theorem mem_now {t : Nat} (h : (t, d) ∈ deeds.map (fun d => (n, d))) : t = n ∧ d ∈ deeds := by
  obtain ⟨e, he, heq⟩ := List.mem_map.mp h
  cases heq
  exact ⟨rfl, he⟩

theorem now_mem (t : Nat) (h : d ∈ deeds) : (t, d) ∈ log ++ deeds.map (fun d => (t, d)) :=
  List.mem_append_right log (List.mem_map.mpr ⟨d, h, rfl⟩)

theorem does_heard (ha : Agrees l) (hlimit : l.pool.limit = limit) (hd : Does clock l m deeds)
    (h : Heard limit l log) : Heard limit m (log ++ deeds.map (fun d => (l.now, d))) := by
  have hmode := does_mode hd
  refine ⟨fun i => ?_, fun hs => ?_, fun hc => ?_, ?_, ?_, fun t i hi => ?_, fun i hi => ?_⟩
  · rw [story_append]
    exact does_told ha hd (h.told i)
  · rcases hmode.1 hs with hold | hnew
    · obtain ⟨t, ht⟩ := h.closing hold
      exact ⟨t, List.mem_append_left _ ht⟩
    · exact ⟨_, now_mem l.now hnew⟩
  · rcases hmode.2 hc with hold | hnew
    · obtain ⟨t, ht⟩ := h.expired hold
      exact ⟨t, List.mem_append_left _ ht⟩
    · exact ⟨_, now_mem l.now hnew⟩
  · refine after_append h.rejected ?_
    rintro ⟨t, d⟩ hx ⟨i, rfl⟩
    exact h.closing (does_rejected ha hd (mem_now hx).2)
  · refine after_append h.dropped ?_
    rintro ⟨t, d⟩ hx ⟨i, rfl⟩
    exact h.expired (does_dropped ha hd (mem_now hx).2).2
  · rcases List.mem_append.mp hi with hi | hi
    · exact h.limited t i hi
    · exact hlimit ▸ (does_dropped ha hd (mem_now hi).2).1
  · rcases does_handed ha hd hi with hold | hnew
    · obtain ⟨t, ht⟩ := h.handed i hold
      exact ⟨t, List.mem_append_left _ ht⟩
    · exact ⟨_, now_mem l.now hnew⟩

theorem begin_heard (hp : make limit = .ok p) : Heard limit (begin p) [] := by
  have hnone : ∀ i, p.status i = none := by
    intro i
    rw [make_eq hp]
    rfl
  refine ⟨fun i => ?_, nofun, nofun, after_nil, after_nil, nofun, fun i hi => ?_⟩
  · rw [Tells, begin, hnone]
    rfl
  · rw [begin, hnone] at hi
    cases hi

structure Timed (l : Life) (log : List (Nat × Deed)) : Prop where
  waiting : ∀ deadline forced, l.mode = .waiting deadline forced →
    ∃ s, (s, .awaits deadline) ∈ log
  past : l.mode.isClosed = true → ∃ s deadline, (s, .awaits deadline) ∈ log ∧ deadline ≤ l.now

theorem does_timed (hd : Does clock l m deeds) (h : Timed l log) :
    Timed m (log ++ deeds.map (fun d => (l.now, d))) := by
  have hkeep : ∀ {x}, x ∈ log → x ∈ log ++ deeds.map (fun d => (l.now, d)) :=
    fun hx => List.mem_append_left _ hx
  have hwaiting : ∀ deadline forced, l.mode = .waiting deadline forced →
      ∃ s, (s, .awaits deadline) ∈ log ++ deeds.map (fun d => (l.now, d)) := by
    intro deadline forced on
    obtain ⟨s, hs⟩ := h.waiting deadline forced on
    exact ⟨s, hkeep hs⟩
  have hpast : ∀ {n}, l.now ≤ n → l.mode.isClosed = true → ∃ s deadline,
      (s, .awaits deadline) ∈ log ++ deeds.map (fun d => (l.now, d)) ∧ deadline ≤ n := by
    intro n hn hc
    obtain ⟨s, deadline, hs, hle⟩ := h.past hc
    exact ⟨s, deadline, hkeep hs, Nat.le_trans hle hn⟩
  cases hd with
  | asks | submits | polls | ends | reaps | drops => exact ⟨hwaiting, hpast (Nat.le_refl _)⟩
  | passes duration still => exact ⟨hwaiting, hpast (Nat.le_add_right _ _)⟩
  | calls graceful forced on => exact ⟨nofun, nofun⟩
  | waits graceful forced on =>
    refine ⟨fun deadline forced he => ?_, nofun⟩
    cases he
    exact ⟨l.now, now_mem l.now (by simp)⟩
  | drains deadline forced on => exact ⟨nofun, nofun⟩
  | drainsLate deadline on | detaches deadline on =>
    exact ⟨nofun, fun _ => hpast (Nat.le_refl _) (by rw [on]; rfl)⟩
  | expires deadline forced on due =>
    obtain ⟨s, hs⟩ := hwaiting deadline forced on
    exact ⟨nofun, fun _ => ⟨s, deadline, hs, due⟩⟩

def Follows (l : Life) (log : List (Nat × Deed)) (t i : Nat) : TaskStatus → Prop
  | .handed => t = l.now
  | .running => (t, .started i) ∈ log
  | .finished => (t, .started i) ∈ log
  | .cancelled => ∃ s deadline, (s, .awaits deadline) ∈ log ∧ deadline ≤ t
  | _ => False

def Reached (l : Life) (log : List (Nat × Deed)) : Prop :=
  ∀ t i, (t, .handed i) ∈ log → ∃ was, l.pool.status i = some was ∧ Follows l log t i was

theorem follows_append {t : Nat} (hn : m.now = l.now) (h : Follows l log t i was) :
    Follows m (log ++ more) t i was := by
  cases was with
  | handed =>
    rw [Follows, hn]
    exact h
  | running | finished => exact List.mem_append_left _ h
  | cancelled =>
    obtain ⟨s, deadline, hs, hle⟩ := h
    exact ⟨s, deadline, List.mem_append_left _ hs, hle⟩
  | _ => exact h.elim

/-- A task to which a permit was handed starts when it is resumed, unless the permits were closed
by then. -/
theorem resume_reached {t : Nat} (ha : Agrees l) (ht : Timed l log)
    (hm : Move l.pool (.resume k) q) (hi : l.pool.status i = some was)
    (h : Follows l log t i was) : ∃ next, q.status i = some next ∧
      Follows { l with pool := q } (log ++ (q.polled k).map (fun d => (l.now, d))) t i next := by
  by_cases hk : k = i
  · subst hk
    obtain ⟨old, next, hold, hnext, hgo⟩ := resume_self ha.fair hm
    rw [hi] at hold
    cases hold
    refine ⟨next, hnext, ?_⟩
    cases hgo with
    | runs | queues => exact h.elim
    | starts =>
      have hnow : t = l.now := h
      rw [polled_status hnext, hnow]
      exact now_mem l.now (by simp [news])
    | drops waits _ off =>
      obtain ⟨s, deadline, hmem, hle⟩ := ht.past (ha.closed ▸ off)
      cases was with
      | handed =>
        have hnow : t = l.now := h
        exact ⟨s, deadline, List.mem_append_left _ hmem, hnow ▸ hle⟩
      | submitted | queued => exact h.elim
      | _ => cases waits
  · exact ⟨was, (resume_other ha.fair.toOrderly hm hk).trans hi, follows_append rfl h⟩

theorem finish_reached {t : Nat} {panicked : Bool} (ha : Agrees l)
    (hm : Move l.pool (.finish k panicked) q) (hi : l.pool.status i = some was)
    (h : Follows l log t i was) :
    ∃ next, q.status i = some next ∧ Follows { l with pool := q } (log ++ more) t i next := by
  by_cases hk : k = i
  · subst hk
    obtain ⟨hwas, hnext⟩ := finish_self ha.fair.toOrderly hm
    rw [hi] at hwas
    cases hwas
    exact ⟨.finished, hnext, List.mem_append_left _ h⟩
  · rcases finish_other ha.fair hm hk with ⟨-, hsame⟩ | ⟨-, hqueued, -⟩
    · exact ⟨was, hsame.trans hi, follows_append rfl h⟩
    · rw [hi] at hqueued
      cases hqueued
      exact h.elim

theorem finish_hands {panicked : Bool} (h : Fair p) (hm : Move p (.finish k panicked) q)
    (hi : .handed i ∈ p.handedOn) : q.status i = some .handed := by
  obtain ⟨j, hj, heq⟩ := mem_handedOn.mp hi
  cases heq
  have hqueued := h.queued i (List.mem_of_mem_head? hj)
  have hk : k ≠ i := by
    rintro rfl
    rw [(finish_self h.toOrderly hm).1] at hqueued
    cases hqueued
  rcases finish_other h hm hk with ⟨hnot, -⟩ | ⟨-, -, hhanded⟩
  · exact absurd hj hnot
  · exact hhanded

theorem idle_handed (h : p.isIdle = true) : p.status i ≠ some .handed := by
  intro hi
  have hlt := (List.getElem?_eq_some_iff.mp hi).1
  have hnone := List.all_eq_true.mp h i (List.mem_range.mpr hlt)
  rw [resume, hi] at hnone
  by_cases hc : p.closed = true <;> simp [hc] at hnone

theorem does_hands (ha : Agrees l) (hd : Does clock l m deeds) (hi : .handed i ∈ deeds) :
    m.now = l.now ∧ m.pool.status i = some .handed := by
  cases hd with
  | submits => split at hi <;> simp at hi
  | @polls k pool move =>
    rw [polled] at hi
    cases hs : pool.status k with
    | none => simp [hs] at hi
    | some was => cases was <;> simp [hs, news] at hi
  | ends move =>
    have hi : .handed i ∈ l.pool.handedOn := by simpa using hi
    exact ⟨rfl, finish_hands ha.fair move hi⟩
  | _ => simp at hi

theorem does_reached (ha : Agrees l) (ht : Timed l log) (hd : Does .prompt l m deeds)
    (h : Reached l log) : Reached m (log ++ deeds.map (fun d => (l.now, d))) := by
  intro t i hi
  rcases List.mem_append.mp hi with hold | hnew
  · obtain ⟨was, hwas, hf⟩ := h t i hold
    cases hd with
    | submits =>
      have hlt := (List.getElem?_eq_some_iff.mp hwas).1
      refine ⟨was, ?_, follows_append rfl hf⟩
      rw [submit_status, if_neg (by omega), hwas]
    | polls move => exact resume_reached ha ht move hwas hf
    | ends move => exact finish_reached ha move hwas hf
    | passes duration still =>
      refine ⟨was, hwas, ?_⟩
      cases was with
      | handed => exact absurd hwas (idle_handed still)
      | running | finished => exact List.mem_append_left _ hf
      | cancelled =>
        obtain ⟨s, deadline, hs, hle⟩ := hf
        exact ⟨s, deadline, List.mem_append_left _ hs, hle⟩
      | _ => exact hf.elim
    | drops outcome on =>
      refine ⟨was, ?_, follows_append rfl hf⟩
      rw [abandon_none (ha.empty (by rw [on]; rfl)), hwas]
    | _ => exact ⟨was, hwas, follows_append rfl hf⟩
  · obtain ⟨rfl, hdeed⟩ := mem_now hnew
    obtain ⟨hnow, hs⟩ := does_hands ha hd hdeed
    exact ⟨.handed, hs, hnow.symm⟩

theorem begin_reached (p : Pool) : Timed (begin p) [] ∧ Reached (begin p) [] := by
  refine ⟨⟨fun deadline forced on => ?_, fun on => ?_⟩, fun t i hi => ?_⟩
  · cases on
  · cases on
  · exact absurd hi List.not_mem_nil

/-- A task of which nothing was heard goes on when the shutdown has returned. -/
theorem settles_step (ha : Agrees l) (hr : l.mode.isReturned = true)
    (hi : l.pool.status i = some was) (hw : was.isOver = false) (hn : was ≠ .running) :
    ∃ m, l.step clock (.poll i) =
      some (m, [(l.now, if l.pool.limit = 0 then .started i else .dropped i)]) := by
  have hmode : l.mode = .returned .incomplete := by
    by_cases hm : l.mode = .returned .incomplete
    · exact hm
    · have hmem := ha.watched hm i was hi hw
      rw [ha.empty hr] at hmem
      exact absurd hmem List.not_mem_nil
  have hc : l.pool.closed = true := by rw [ha.closed, hmode]; rfl
  have hpending : was.goesOn true = true := by
    cases was <;> simp_all [TaskStatus.goesOn, TaskStatus.isOver]
  obtain ⟨q, hq⟩ := Option.isSome_iff_exists.mp
    ((resume_isSome l.pool i).trans (by simp [hi, hc, hpending]))
  obtain ⟨old, next, -, hnext, hgo⟩ := resume_self ha.fair (resume_move hq)
  refine ⟨{ l with pool := q }, ?_⟩
  rw [poll_step hq hnext]
  cases hgo with
  | runs on =>
    have hl : l.pool.limit = 0 := on.resolve_right (by simp [hc])
    simp [news, hl]
  | queues on | starts on => simp [hc] at on
  | drops _ limit => simp [news, limit]

/-- A pool that was kept until its shutdown has returned, after all that was heard. -/
structure Fated (clock : Clock) (limit : Nat) (l : Life) (log : List (Nat × Deed)) : Prop where
  told : ∀ i, Tells l.pool i (story log i)
  rejected : After .closing (fun d => ∃ i, d = .rejected i) log
  dropped : After .expired (fun d => ∃ i, d = .dropped i) log
  limited : limit = 0 → ∀ t i, (t, .dropped i) ∉ log
  -- A task that runs can end at any moment, also when the pool is left to itself.
  ends : ∀ i, l.pool.status i = some .running → ∀ panicked, ∃ m more,
    l.step clock (.finish i panicked) = some (m, (l.now, .ended i panicked) :: more)
  done : ∀ outcome, l.mode = .returned outcome → outcome ≠ .incomplete →
    ∀ i was, l.pool.status i = some was → was.isOver = true
  -- A task that was left without fate has it when it goes on.
  settles : l.mode.isReturned = true → ∀ i < l.pool.tasks.length, story log i = [] →
    ∃ m, l.step clock (.poll i) =
      some (m, [(l.now, if limit = 0 then .started i else .dropped i)])
  fate : l.mode.isReturned = true → l.pool.isIdle = true →
    ∀ i < l.pool.tasks.length, story log i ≠ []
  -- A submission that waited for the lock meanwhile is rejected.
  enters : l.mode.isReturned = true → l.asking ≠ 0 →
    ∃ m, l.step clock .enter = some (m, [(l.now, .rejected l.pool.tasks.length)])
  handed : ∀ i, l.pool.status i = some .handed → ∃ t, (t, .handed i) ∈ log
  -- A task that goes on with its permit while the graceful wait has not expired starts.
  starts : (∀ t, (t, .expired) ∉ log) → ∀ i, l.pool.status i = some .handed →
    ∃ m, l.step clock (.poll i) = some (m, [(l.now, .started i)])
  -- If time waits for the tasks, one that was handed a permit before the deadline starts at that
  -- moment.
  reached : clock = .prompt → ∀ t i, (t, .handed i) ∈ log →
    (∀ s deadline, (s, .awaits deadline) ∈ log → t < deadline) →
    (∀ s, (s, .dropped i) ∉ log) ∧ (t < l.now → (t, .started i) ∈ log)

theorem tells_pending (h : was.Tells i []) : was.isOver = false ∧ was ≠ .running := by
  cases was <;> simp_all [TaskStatus.Tells, TaskStatus.isOver]

theorem heard_settles (ha : Agrees l) (hh : Heard limit l log) (hl : l.pool.limit = limit)
    (hr : l.mode.isReturned = true) (hi : i < l.pool.tasks.length) (hs : story log i = []) :
    ∃ m, l.step clock (.poll i) =
      some (m, [(l.now, if limit = 0 then .started i else .dropped i)]) := by
  obtain ⟨was, hwas⟩ : ∃ was, l.pool.status i = some was := ⟨_, List.getElem?_eq_getElem hi⟩
  have htold := hh.told i
  rw [hs, Tells, hwas] at htold
  obtain ⟨hopen, hrun⟩ := tells_pending htold
  exact hl ▸ settles_step ha hr hwas hopen hrun

theorem idle_poll (h : l.pool.isIdle = true) (hi : i < l.pool.tasks.length) :
    l.step clock (.poll i) = none := by
  have hnone := List.all_eq_true.mp h i (List.mem_range.mpr hi)
  rw [step, act, Pool.step, Option.isNone_iff_eq_none.mp hnone]
  rfl

theorem enter_step (ha : Agrees l) (hr : l.mode.isReturned = true) (hn : l.asking ≠ 0) :
    ∃ m, l.step clock .enter = some (m, [(l.now, .rejected l.pool.tasks.length)]) := by
  have hfree : l.mode.isLocked = false ∧ l.mode.isServing = false := by
    revert hr
    cases l.mode <;> simp [Mode.isReturned, Mode.isLocked, Mode.isServing]
  have hoff : l.pool.accepting = false := ha.accepting.trans hfree.2
  simp [step, act, resolve, hfree.1, hn, submit, hoff]

theorem dropped_status (h : Tells p i (story log i)) {t : Nat} (hd : (t, .dropped i) ∈ log) :
    p.status i = some .cancelled := by
  have hmem : Deed.dropped i ∈ story log i := mem_story hd rfl
  rw [Tells] at h
  cases hs : p.status i with
  | none =>
    rw [hs] at h
    have h : story log i = [] := h
    simp [h] at hmem
  | some was =>
    rw [hs] at h
    have h : was.Tells i (story log i) := h
    cases was with
    | cancelled => rfl
    | finished =>
      obtain ⟨panicked, h⟩ := h
      simp [h] at hmem
    | _ =>
      simp only [TaskStatus.Tells] at h
      simp [h] at hmem

end

/-- Whatever the limit, and in whatever order tasks are submitted, go on, end or panic and the
pool is shut down with whatever two limits of time: each task is rejected, or dropped before it
has started, or started once and never aborted. -/
theorem one_fate {clock : Clock} {limit : Nat} {p : Pool} {turns : List Turn} {l : Life}
    {log : List (Nat × Deed)} (hp : make limit = .ok p)
    (h : runAll (step clock) turns (begin p) = some (l, log)) : Fated clock limit l log := by
  obtain ⟨hh, ha, hlimit⟩ := run_holds hp h (begin_heard hp)
    (fun l log m deeds ha hl hd hh => does_heard ha hl hd hh)
  have hsettles : l.mode.isReturned = true → ∀ i < l.pool.tasks.length, story log i = [] →
      ∃ m, l.step clock (.poll i) =
        some (m, [(l.now, if limit = 0 then .started i else .dropped i)]) :=
    fun hr i hi hs => heard_settles ha hh hlimit hr hi hs
  refine ⟨hh.told, hh.rejected, hh.dropped, fun hz t i hd => hh.limited t i hd hz,
    fun i hi panicked => ?_, fun outcome hm ho i was hi => ?_, hsettles, fun hr hidle i hi hs => ?_,
    fun hr hn => enter_step ha hr hn, hh.handed, fun he i hi => ?_, ?_⟩
  · obtain ⟨q, hq⟩ := finish_running hi
    exact ⟨_, _, finish_step hq panicked⟩
  · by_cases hover : was.isOver = true
    · exact hover
    · have hmem := ha.watched (by rw [hm]; simpa using ho) i was hi (by simpa using hover)
      rw [ha.empty (by rw [hm]; rfl)] at hmem
      exact absurd hmem List.not_mem_nil
  · obtain ⟨m, hm⟩ := hsettles hr i hi hs
    rw [idle_poll hidle hi] at hm
    cases hm
  · have hc : l.pool.closed = false := by
      by_cases hc : l.pool.closed = true
      · obtain ⟨t, ht⟩ := hh.expired (ha.closed ▸ hc)
        exact absurd ht (he t)
      · simpa using hc
    have hresume : l.pool.resume i = some (l.pool.setStatus i .running) := by
      simp [resume, hi, hc]
    exact ⟨_, poll_step hresume (setStatus_self hi .running)⟩
  · -- Only while time waits for the tasks is this kept, so it needs a run of its own.
    rintro rfl t i hi hbefore
    obtain ⟨⟨-, hreached⟩, -⟩ := run_holds (P := fun l log => Timed l log ∧ Reached l log) hp h
      (begin_reached p)
      (fun l log m deeds ha _ hd hr => ⟨does_timed hd hr.1, does_reached ha hr.1 hd hr.2⟩)
    obtain ⟨was, hwas, hf⟩ := hreached t i hi
    have hkept : was ≠ .cancelled := by
      rintro rfl
      obtain ⟨s, deadline, hs, hle⟩ := hf
      exact absurd (hbefore s deadline hs) (Nat.not_lt.mpr hle)
    refine ⟨fun s hd => ?_, fun hlt => ?_⟩
    · rw [dropped_status (hh.told i) hd] at hwas
      exact hkept (Option.some.inj hwas).symm
    · cases was with
      | running | finished => exact hf
      | handed =>
        have hnow : t = l.now := hf
        omega
      | cancelled => exact absurd rfl hkept
      | _ => exact hf.elim

def lastTurns : List Turn := [.ask, .enter, .ask, .ask, .enter, .enter, .poll 0, .poll 1,
  .poll 2, .ask, .enter, .poll 3, .ask, .pass 1, .shutdown 10 5, .enter, .wait, .pass 4,
  .finish 0 true, .poll 1, .reap 1, .pass 6, .expire, .poll 2, .poll 3, .pass 5, .expire, .drop,
  .pass 100, .finish 1 false]

theorem one_fate_outlived : ∃ p l log, make 1 = .ok p ∧
    runAll (step .prompt) lastTurns (begin p) = some (l, log) ∧ Fated .prompt 1 l log ∧
    l.mode = .returned .incomplete ∧ (List.range 5).map (story log) =
      [[.started 0, .ended 0 true], [.started 1, .ended 1 false], [.dropped 2], [.dropped 3],
        [.rejected 4]] := by
  have hrun : runAll (step .prompt) lastTurns (begin ⟨1, true, false, 1, [], [], []⟩) = some
      (⟨116, ⟨1, false, true, 1, [],
          [.finished, .finished, .cancelled, .cancelled, .rejected], []⟩, .returned .incomplete, 0⟩,
        [(0, .started 0), (1, .closing), (1, .rejected 4), (1, .awaits 11), (5, .ended 0 true),
          (5, .handed 1), (5, .started 1), (11, .expired), (11, .dropped 2), (11, .dropped 3),
          (16, .returned .incomplete), (116, .ended 1 false)]) := by
    decide
  exact ⟨_, _, _, rfl, hrun, one_fate rfl hrun, rfl, by decide⟩

def slowTurns : List Turn := [.ask, .enter, .ask, .enter, .poll 0, .poll 1, .shutdown 10 5, .wait,
  .pass 4, .finish 0 false, .pass 6, .expire, .poll 1, .reap 2, .drained]

def hastyTurns : List Turn := [.ask, .enter, .ask, .enter, .poll 0, .poll 1, .pass 1,
  .finish 0 false, .shutdown 0 10, .wait, .expire, .poll 1, .reap 2, .drained]

/-- A permit does not make a task run that is resumed only after the graceful wait has expired:
time may have passed meanwhile, or the wait was over at the same moment. -/
theorem permit_outrun : ∃ p l m, make 1 = .ok p ∧
    runAll (step .free) slowTurns (begin p) = some (l,
      [(0, .started 0), (0, .closing), (0, .awaits 10), (4, .ended 0 false), (4, .handed 1),
        (10, .expired), (10, .dropped 1), (10, .returned .forced)]) ∧
    runAll (step .prompt) hastyTurns (begin p) = some (m,
      [(0, .started 0), (1, .ended 0 false), (1, .handed 1), (1, .closing), (1, .awaits 1),
        (1, .expired), (1, .dropped 1), (1, .returned .forced)]) :=
  ⟨⟨1, true, false, 1, [], [], []⟩, ⟨10, ⟨1, false, true, 1, [], [.finished, .cancelled], []⟩,
    .returned .forced, 0⟩, ⟨1, ⟨1, false, true, 1, [], [.finished, .cancelled], []⟩,
    .returned .forced, 0⟩, rfl, by decide, by decide⟩

end Life
end Pool
end Wiretap
