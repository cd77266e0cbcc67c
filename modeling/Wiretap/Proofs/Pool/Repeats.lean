import Wiretap.Proofs.Pool.Drains

/-! Pools that are shut down more than once. Any number of users share a pool, and each of them
may call for a shutdown; the calls come one after another or overlap. They share the list of
tracked tasks and the lock on it, which a call holds while it waits. A call that returns leaves
the list empty, whether the tasks are over or were left to themselves. So all later calls
return as if they were over, and until one has left some to themselves that is right. -/

set_option autoImplicit false

namespace Wiretap.Pool

def openTasks (p : Pool) : List Nat := (List.range p.tasks.length).filter p.isOpen

structure Exact (p : Pool) : Prop extends Tended p where
  once : p.tracked.Nodup

section
variable {p q : Pool} {step : Step}

theorem without_sublist (p : Pool) (n : Nat) (tracked : List Nat) :
    (p.trackedWithout n tracked).Sublist tracked := by
  induction tracked generalizing n with
  | nil => cases n <;> exact List.Sublist.refl _
  | cons i tracked ih =>
    cases n with
    | zero => exact List.Sublist.refl _
    | succ n =>
      by_cases hi : p.isOpen i = true
      · simp only [trackedWithout, hi, if_true]
        exact (ih (n + 1)).cons_cons i
      · simp only [trackedWithout, hi, if_false, Bool.false_eq_true]
        exact (ih n).cons i

theorem kept_exact (hf : Fair p) (hm : Move p step q) (hk : Kept p q) (h : Exact p) : Exact q :=
  ⟨kept_tended hf hm hk h.toTended, hk.tracked ▸ h.once⟩

theorem forget_exact (h : Exact p) (n : Nat) : Exact (p.forget n) :=
  ⟨forget_tended h.toTended n, h.once.sublist (without_sublist p n p.tracked)⟩

theorem submit_exact (h : Exact p) : Exact p.submit.1 := by
  refine ⟨submit_tended h.toTended, ?_⟩
  unfold submit
  split
  · have hnew : p.tasks.length ∉ p.tracked.filter p.isOpen := fun hmem =>
      Nat.lt_irrefl _ (h.known _ (List.mem_of_mem_filter hmem))
    rw [List.nodup_append]
    exact ⟨h.once.filter _, List.nodup_singleton _, fun i hi j hj he => hnew
      (List.mem_singleton.mp hj ▸ he ▸ hi)⟩
  · exact h.once

theorem make_exact {limit : Nat} (hp : make limit = .ok p) : Exact p := by
  rw [make_eq hp]
  exact ⟨⟨fun i was hi => by simp [status] at hi, nofun⟩, List.nodup_nil⟩

theorem mem_open {i : Nat} : i ∈ p.openTasks ↔ i < p.tasks.length ∧ p.isOpen i = true := by
  rw [openTasks, List.mem_filter, List.mem_range]

theorem exact_open (h : Exact p) : (p.tracked.filter p.isOpen).Perm p.openTasks := by
  refine (List.perm_ext_iff_of_nodup (h.once.filter _) (List.nodup_range.filter _)).mpr fun i => ?_
  rw [List.mem_filter, ← openTasks, mem_open]
  constructor
  · rintro ⟨hi, ho⟩
    exact ⟨h.known i hi, ho⟩
  · rintro ⟨hlt, ho⟩
    have hi : p.status i = some p.tasks[i] := List.getElem?_eq_getElem hlt
    exact ⟨h.watched i _ hi ((Life.open_iff hi).mp ho), ho⟩

theorem active_open (h : Exact p) : p.active = p.openTasks.length := by
  rw [active, List.countP_eq_length_filter]
  exact (exact_open h).length_eq

theorem empty_open (h : Exact p) (hn : p.tracked = []) : p.openTasks = [] := by
  have hperm := exact_open h
  rw [hn] at hperm
  exact hperm.nil_eq.symm

end

/-- `calls` says for each user how far its call for a shutdown has come. -/
structure Repeats where
  now : Nat
  pool : Pool
  asking : Nat
  calls : List Mode
  deriving DecidableEq, Repr

namespace Repeats

inductive Turn where
  | takes (k : Nat) (turn : Pool.Turn)
  | count
  | quit (k : Nat)
  deriving DecidableEq, Repr

inductive Heard where
  | deed (k : Nat) (deed : Deed)
  | counted (n : Nat)
  deriving DecidableEq, Repr

def begin (p : Pool) (users : Nat) : Repeats := ⟨0, p, 0, List.replicate users .serving⟩

def isLocked (r : Repeats) : Bool := r.calls.any Mode.isLocked

def takesLock : Pool.Turn → Bool
  | .enter => true
  | .wait => true
  | _ => false

def seen (r : Repeats) (mode : Mode) : Life := ⟨r.now, r.pool, mode, r.asking⟩

def step (r : Repeats) : Turn → Option (Repeats × List Heard)
  | .takes k turn => do
    let mode ← r.calls[k]?
    if takesLock turn ∧ r.isLocked then none
    else
      let (l, deeds) ← (r.seen mode).act .free turn
      some (⟨l.now, l.pool, l.asking, r.calls.set k l.mode⟩, deeds.map (.deed k))
  | .count =>
    if r.isLocked then none
    else some ({ r with pool := r.pool.forget r.pool.tracked.length }, [.counted r.pool.active])
  | .quit k => do
    let mode ← r.calls[k]?
    if mode.isReturned then none
    else some ({ r with calls := r.calls.set k .serving }, [])

def Lost (r : Repeats) : Prop := .returned .incomplete ∈ r.calls

inductive Uses (l : Life) : Pool → Prop where
  | idles : Uses l l.pool
  | submits : Uses l l.pool.submit.1
  | moves {step : Step} {q : Pool} (move : Move l.pool step q) (kept : Kept l.pool q) : Uses l q
  | forgets (count : Nat) : Uses l (l.pool.forget count)
  | drops (outcome : PoolShutdown) (on : l.mode = .returned outcome) : Uses l l.pool.abandon

inductive Shifts (l : Life) : Pool.Turn → Mode → Pool → List Deed → Prop where
  | calls (graceful forced : Nat) (on : l.mode = .serving) :
    Shifts l (.shutdown graceful forced) (.called graceful forced) l.pool.stopAccepting [.closing]
  | waits (graceful forced : Nat) (on : l.mode = .called graceful forced) :
    Shifts l .wait (.waiting (l.now + graceful) forced) l.pool [.awaits (l.now + graceful)]
  | drains (deadline forced : Nat) (on : l.mode = .waiting deadline forced)
    (none : l.pool.tracked = []) :
    Shifts l .drained (.returned .graceful) l.pool [.returned .graceful]
  | drainsLate (deadline : Nat) (on : l.mode = .forcing deadline) (none : l.pool.tracked = []) :
    Shifts l .drained (.returned .forced) l.pool [.returned .forced]
  | expires (deadline forced : Nat) (on : l.mode = .waiting deadline forced)
    (due : deadline ≤ l.now) (left : l.pool.tracked ≠ []) :
    Shifts l .expire (.forcing (l.now + forced)) l.pool.closePermits [.expired]
  | detaches (deadline : Nat) (on : l.mode = .forcing deadline) (due : deadline ≤ l.now)
    (left : l.pool.tracked ≠ []) :
    Shifts l .expire (.returned .incomplete) l.pool.detach [.returned .incomplete]

inductive Acts (l : Life) (turn : Pool.Turn) : Life → List Deed → Prop where
  | uses {m : Life} {deeds : List Deed} (uses : Uses l m.pool) (same : m.mode = l.mode)
    (silent : ∀ outcome, .returned outcome ∉ deeds) : Acts l turn m deeds
  | shifts {next : Mode} {q : Pool} {deeds : List Deed} (shift : Shifts l turn next q deeds) :
    Acts l turn { l with pool := q, mode := next } deeds

inductive Does (r : Repeats) : Repeats → List Heard → Prop where
  | uses {k now asking : Nat} {mode : Mode} {q : Pool} {deeds : List Deed}
    (here : r.calls[k]? = some mode) (uses : Uses (r.seen mode) q)
    (silent : ∀ outcome, .returned outcome ∉ deeds) :
    Does r ⟨now, q, asking, r.calls⟩ (deeds.map (.deed k))
  | shifts {k : Nat} {mode next : Mode} {turn : Pool.Turn} {q : Pool} {deeds : List Deed}
    (here : r.calls[k]? = some mode) (shift : Shifts (r.seen mode) turn next q deeds)
    (free : turn = .wait → ∀ other ∈ r.calls, other.isLocked = false) :
    Does r ⟨r.now, q, r.asking, r.calls.set k next⟩ (deeds.map (.deed k))
  | counts : Does r { r with pool := r.pool.forget r.pool.tracked.length }
    [.counted r.pool.active]
  | quits {k : Nat} {mode : Mode} (here : r.calls[k]? = some mode)
    (on : mode.isReturned = false) : Does r { r with calls := r.calls.set k .serving } []

/-- At most one call holds the lock. What holds of the tracked tasks is lost when a call leaves
some to themselves; none is tracked once any call has returned. -/
structure Sound (p : Pool) (calls : List Mode) : Prop where
  fair : Fair p
  serving : p.accepting = true → ∀ mode ∈ calls, mode = .serving
  lock : ∀ (i j : Nat) (a b : Mode), calls[i]? = some a → calls[j]? = some b →
    a.isLocked = true → b.isLocked = true → i = j
  exact : .returned .incomplete ∉ calls → Exact p
  settled : ∀ outcome, .returned outcome ∈ calls →
    p.tracked = [] ∧ ∀ deadline, .forcing deadline ∉ calls

structure Reports (r t : Repeats) (heard : List Heard) : Prop where
  finished : ¬ r.Lost → ∀ k outcome, .deed k (.returned outcome) ∈ heard →
    outcome ≠ .incomplete → t.pool.openTasks = []
  counted : ¬ r.Lost → ∀ n, .counted n ∈ heard → n = r.pool.openTasks.length
  -- Only the first call to do so leaves tasks to themselves, and both its waits have expired.
  incomplete : ∀ k, .deed k (.returned .incomplete) ∈ heard → ¬ r.Lost ∧ t.Lost ∧
    r.pool.tracked ≠ [] ∧ ∃ deadline, r.calls[k]? = some (.forcing deadline) ∧ deadline ≤ r.now
  -- Later calls do not wait for those tasks.
  unaware : r.Lost → ∀ k outcome, .deed k (.returned outcome) ∈ heard → outcome = .graceful
  uncounted : r.Lost → ∀ n, .counted n ∈ heard → n = 0

section
variable {clock : Clock} {l m : Life} {p q : Pool} {calls : List Mode} {mode next : Mode}
  {turn : Pool.Turn} {deeds : List Deed} {r t : Repeats} {heard log : List Heard} {k : Nat}

theorem polled_silent (p : Pool) (i : Nat) (outcome : PoolShutdown) :
    .returned outcome ∉ p.polled i := by
  unfold polled
  cases p.status i with
  | none => exact List.not_mem_nil
  | some was => cases was <;> simp [news]

theorem ended_silent (p : Pool) (i : Nat) (panicked : Bool) (outcome : PoolShutdown) :
    .returned outcome ∉ .ended i panicked :: p.handedOn := by
  simp [Life.mem_handedOn]

theorem act_acts (h : l.act clock turn = some (m, deeds)) : Acts l turn m deeds := by
  cases turn with
  | ask =>
    by_cases ha : l.pool.accepting = true
    · simp only [Life.act, ha, if_true, Option.some.injEq, Prod.mk.injEq] at h
      obtain ⟨rfl, rfl⟩ := h
      exact .uses .idles rfl (by simp)
    · simp only [Life.act, ha, if_false, Bool.false_eq_true, Option.some.injEq] at h
      cases h
      exact .uses .submits rfl (by simp)
  | enter =>
    simp only [Life.act, Option.ite_none_left_eq_some, Option.some.injEq] at h
    obtain ⟨-, h⟩ := h
    cases h
    exact .uses .submits rfl (by simp)
  | poll i =>
    obtain ⟨pool, hp, heq⟩ := Option.map_eq_some_iff.mp h
    cases heq
    exact .uses (.moves (step_move hp) (resume_kept (step_move hp))) rfl (polled_silent pool i)
  | finish i panicked =>
    obtain ⟨pool, hp, heq⟩ := Option.map_eq_some_iff.mp h
    cases heq
    exact .uses (.moves (step_move hp) (finish_kept (step_move hp))) rfl
      (ended_silent l.pool i panicked)
  | reap count =>
    cases h
    exact .uses (.forgets count) rfl (by simp)
  | pass duration =>
    simp only [Life.act, Option.ite_none_right_eq_some, Option.some.injEq, Prod.mk.injEq] at h
    obtain ⟨-, rfl, rfl⟩ := h
    exact .uses .idles rfl (by simp)
  | shutdown graceful forced =>
    simp only [Life.act] at h
    split at h <;> cases h
    exact .shifts (.calls graceful forced ‹_›)
  | wait =>
    simp only [Life.act] at h
    split at h <;> cases h
    exact .shifts (.waits _ _ ‹_›)
  | drained =>
    simp only [Life.act] at h
    split at h <;> cases h
    · exact .shifts (.drains _ _ ‹_› ‹_›)
    · exact .shifts (.drainsLate _ ‹_› ‹_›)
  | expire =>
    simp only [Life.act, Option.ite_none_left_eq_some] at h
    obtain ⟨hleft, h⟩ := h
    split at h
    · simp only [Option.ite_none_right_eq_some, Option.some.injEq, Prod.mk.injEq] at h
      obtain ⟨hdue, rfl, rfl⟩ := h
      exact .shifts (.expires _ _ ‹_› hdue hleft)
    · simp only [Option.ite_none_right_eq_some, Option.some.injEq, Prod.mk.injEq] at h
      obtain ⟨hdue, rfl, rfl⟩ := h
      exact .shifts (.detaches _ ‹_› hdue hleft)
    · cases h
  | drop =>
    simp only [Life.act] at h
    split at h <;> cases h
    exact .uses (.drops _ ‹_›) rfl (by simp)

theorem step_does {turn : Turn} (h : r.step turn = some (t, heard)) : Does r t heard := by
  cases turn with
  | takes k turn =>
    obtain ⟨mode, here, h⟩ := Option.bind_eq_some_iff.mp h
    simp only [Option.ite_none_left_eq_some, not_and, Bool.not_eq_true] at h
    obtain ⟨hfree, h⟩ := h
    obtain ⟨⟨l, deeds⟩, hact, h⟩ := Option.bind_eq_some_iff.mp h
    cases h
    cases act_acts hact with
    | uses uses same silent =>
      rw [same, seen, part_same here]
      exact .uses here uses silent
    | shifts shift =>
      refine .shifts here shift fun hwait => ?_
      have hoff := hfree (by rw [hwait]; rfl)
      simpa [isLocked] using hoff
  | count =>
    simp only [step, Option.ite_none_left_eq_some] at h
    obtain ⟨-, h⟩ := h
    cases h
    exact .counts
  | quit k =>
    obtain ⟨mode, here, h⟩ := Option.bind_eq_some_iff.mp h
    simp only [Option.ite_none_left_eq_some, Bool.not_eq_true] at h
    obtain ⟨hon, h⟩ := h
    cases h
    exact .quits here hon

theorem begin_sound {limit : Nat} (hp : make limit = .ok p) (users : Nat) :
    Sound (begin p users).pool (begin p users).calls := by
  have hserving : ∀ mode ∈ (begin p users).calls, mode = .serving := fun mode hmode =>
    (List.mem_replicate.mp hmode).2
  refine ⟨make_fair hp, fun _ => hserving, fun i j a b hi hj ha => ?_, fun _ => make_exact hp,
    fun outcome ho => ?_⟩
  · rw [hserving a (List.mem_of_getElem? hi)] at ha
    cases ha
  · cases hserving _ ho

theorem returned_off (h : Sound p calls) {outcome : PoolShutdown}
    (ho : .returned outcome ∈ calls) : p.accepting = false := by
  by_contra ha
  cases h.serving (by simpa using ha) _ ho

theorem pool_sound (h : Sound p calls) (hf : Fair q) (ha : q.accepting = p.accepting)
    (he : Exact p → Exact q) (ht : p.accepting = false → p.tracked = [] → q.tracked = []) :
    Sound q calls := by
  refine ⟨hf, fun hq => h.serving (ha ▸ hq), h.lock, fun hl => he (h.exact hl),
    fun outcome ho => ?_⟩
  obtain ⟨hnone, hforcing⟩ := h.settled outcome ho
  exact ⟨ht (returned_off h ho) hnone, hforcing⟩

theorem uses_sound (h : Sound l.pool calls) (here : l.mode ∈ calls) (hu : Uses l q) :
    Sound q calls := by
  cases hu with
  | idles => exact h
  | submits =>
    refine pool_sound h (submit_fair h.fair) (submit_accepting _) submit_exact fun ha hn => ?_
    rwa [submit, if_neg (by simp [ha])]
  | moves move kept =>
    exact pool_sound h (move_fair h.fair move) kept.accepting (kept_exact h.fair move kept)
      fun _ hn => kept.tracked.trans hn
  | forgets count =>
    refine pool_sound h (move_fair h.fair (.forgets count)) rfl (fun he => forget_exact he count)
      fun _ hn => ?_
    rw [forget, hn, Life.forget_none]
  | drops outcome on =>
    rw [Life.abandon_none (h.settled outcome (on ▸ here)).1]
    exact h

/-- A call goes from one mode to the next. -/
theorem call_sound (h : Sound p calls) (here : calls[k]? = some mode)
    (hon : mode.isReturned = false) (hf : Fair q)
    (hserving : q.accepting = true → p.accepting = true ∧ next = .serving)
    (hlock : next.isLocked = true →
      mode.isLocked = true ∨ ∀ other ∈ calls, other.isLocked = false)
    (hexact : next ≠ .returned .incomplete → Exact p → Exact q)
    (hnone : p.tracked = [] → q.tracked = [] ∧ ∀ deadline, next ≠ .forcing deadline)
    (hend : next.isReturned = true → q.tracked = [] ∧ mode.isLocked = true) :
    Sound q (calls.set k next) := by
  have hset := part_set here next
  have hother : ∀ other ∈ calls, other ≠ mode → other ∈ calls.set k next := by
    intro other ho hne
    obtain ⟨j, hj⟩ := List.mem_iff_getElem?.mp ho
    have hjk : j ≠ k := by
      rintro rfl
      rw [here] at hj
      exact hne (Option.some.inj hj).symm
    exact List.mem_of_getElem? (by rw [hset, if_neg hjk, hj])
  refine ⟨hf, fun ha other ho => ?_, fun i j a b hi hj ha hb => ?_, fun hl => ?_,
    fun outcome ho => ?_⟩
  · obtain ⟨hold, hnext⟩ := hserving ha
    rcases List.mem_or_eq_of_mem_set ho with ho | rfl
    · exact h.serving hold other ho
    · exact hnext
  · rw [hset] at hi hj
    split at hi <;> split at hj
    · omega
    · cases hi
      rcases hlock ha with hm | hfree
      · have := h.lock k j mode b here hj hm hb
        omega
      · rw [hfree b (List.mem_of_getElem? hj)] at hb
        cases hb
    · cases hj
      rcases hlock hb with hm | hfree
      · have := h.lock i k a mode hi here ha hm
        omega
      · rw [hfree a (List.mem_of_getElem? hi)] at ha
        cases ha
    · exact h.lock i j a b hi hj ha hb
  · refine hexact (fun hn => hl ?_) (h.exact fun ho => hl (hother _ ho ?_))
    · exact List.mem_of_getElem? (i := k) (by rw [hset, if_pos rfl, hn])
    · rintro rfl
      cases hon
  · have hforced : ∀ deadline, Mode.forcing deadline ∈ calls.set k next →
        next = .forcing deadline ∨ ∃ j, j ≠ k ∧ calls[j]? = some (.forcing deadline) := by
      intro deadline hd
      obtain ⟨j, hj⟩ := List.mem_iff_getElem?.mp hd
      rw [hset] at hj
      split at hj
      · exact .inl (Option.some.inj hj)
      · exact .inr ⟨j, ‹_›, hj⟩
    rcases List.mem_or_eq_of_mem_set ho with ho | rfl
    · obtain ⟨hold, hforcing⟩ := h.settled outcome ho
      obtain ⟨hempty, hnext⟩ := hnone hold
      refine ⟨hempty, fun deadline hd => ?_⟩
      rcases hforced deadline hd with hn | ⟨j, -, hj⟩
      · exact hnext deadline hn
      · exact hforcing deadline (List.mem_of_getElem? hj)
    · obtain ⟨hempty, hheld⟩ := hend rfl
      refine ⟨hempty, fun deadline hd => ?_⟩
      rcases hforced deadline hd with hn | ⟨j, hjk, hj⟩
      · cases hn
      · exact hjk (h.lock j k _ mode hj here rfl hheld)

theorem shift_sound (h : Sound l.pool calls) (here : calls[k]? = some l.mode)
    (hs : Shifts l turn next q deeds)
    (free : turn = .wait → ∀ other ∈ calls, other.isLocked = false) :
    Sound q (calls.set k next) := by
  have hoff : l.mode ≠ .serving → l.pool.accepting = false := by
    intro hne
    by_contra ha
    exact hne (h.serving (by simpa using ha) _ (List.mem_of_getElem? here))
  cases hs with
  | calls graceful forced on =>
    exact call_sound h here (by rw [on]; rfl) (move_fair h.fair .stops) nofun nofun
      (fun _ he => ⟨⟨he.watched, he.known⟩, he.once⟩) (fun hn => ⟨hn, nofun⟩) nofun
  | waits graceful forced on =>
    have ha := hoff (by rw [on]; nofun)
    exact call_sound h here (by rw [on]; rfl) h.fair (by simp [ha]) (fun _ => .inr (free rfl))
      (fun _ he => he) (fun hn => ⟨hn, nofun⟩) nofun
  | drains deadline forced on none =>
    have ha := hoff (by rw [on]; nofun)
    exact call_sound h here (by rw [on]; rfl) h.fair (by simp [ha]) nofun
      (fun _ he => he) (fun hn => ⟨hn, nofun⟩) (fun _ => ⟨none, by rw [on]; rfl⟩)
  | drainsLate deadline on none =>
    have ha := hoff (by rw [on]; nofun)
    exact call_sound h here (by rw [on]; rfl) h.fair (by simp [ha]) nofun
      (fun _ he => he) (fun hn => ⟨hn, nofun⟩) (fun _ => ⟨none, by rw [on]; rfl⟩)
  | expires deadline forced on due left =>
    have ha := hoff (by rw [on]; nofun)
    exact call_sound h here (by rw [on]; rfl) (move_fair h.fair .closes)
      (by simp [closePermits, ha])
      (fun _ => .inl (by rw [on]; rfl)) (fun _ he => ⟨⟨he.watched, he.known⟩, he.once⟩)
      (fun hn => absurd hn left) nofun
  | detaches deadline on due left =>
    have ha := hoff (by rw [on]; nofun)
    exact call_sound h here (by rw [on]; rfl) (move_fair h.fair .detaches) (by simp [detach, ha])
      nofun (fun hn => absurd rfl hn) (fun hn => absurd hn left)
      (fun _ => ⟨rfl, by rw [on]; rfl⟩)

theorem does_sound (h : Sound r.pool r.calls) (hd : Does r t heard) : Sound t.pool t.calls := by
  cases hd with
  | @uses k now asking mode q deeds here uses silent =>
    exact uses_sound (l := r.seen mode) h (List.mem_of_getElem? here) uses
  | @shifts k mode next turn q deeds here shift free =>
    exact shift_sound (l := r.seen mode) h here shift free
  | counts =>
    refine pool_sound h (move_fair h.fair (.forgets _)) rfl (fun he => forget_exact he _)
      fun _ hn => ?_
    show r.pool.trackedWithout _ r.pool.tracked = []
    rw [hn, Life.forget_none]
  | quits here on =>
    exact call_sound h here on h.fair (fun ha => ⟨ha, rfl⟩) nofun (fun _ he => he)
      (fun hn => ⟨hn, nofun⟩) nofun

theorem run_sound {limit users : Nat} {turns : List Turn} (hp : make limit = .ok p)
    (h : runAll step turns (begin p users) = some (r, log)) : Sound r.pool r.calls :=
  run_invariant (P := fun _ r _ => Sound r.pool r.calls)
    (fun _ _ _ _ _ _ hr hs => does_sound hr (step_does hs)) (begin_sound hp users) h

theorem mem_deeds {j : Nat} {deed : Deed} :
    Heard.deed j deed ∈ deeds.map (.deed k) ↔ j = k ∧ deed ∈ deeds := by
  simp [eq_comm, and_comm]

theorem counted_deeds {n : Nat} : Heard.counted n ∉ deeds.map (.deed k) := by simp

structure Returns (l : Life) (next : Mode) (q : Pool) (outcome : PoolShutdown) : Prop where
  next : next = .returned outcome
  empty : q.tracked = []
  forced : outcome ≠ .graceful → ∃ deadline, l.mode = .forcing deadline ∧
    (outcome = .incomplete → deadline ≤ l.now ∧ l.pool.tracked ≠ [])

theorem shift_returns {outcome : PoolShutdown} (hs : Shifts l turn next q deeds)
    (ho : .returned outcome ∈ deeds) : Returns l next q outcome := by
  cases hs with
  | calls | waits | expires => simp at ho
  | drains deadline forced on none =>
    cases List.mem_singleton.mp ho
    exact ⟨rfl, none, fun hne => absurd rfl hne⟩
  | drainsLate deadline on none =>
    cases List.mem_singleton.mp ho
    exact ⟨rfl, none, fun _ => ⟨deadline, on, nofun⟩⟩
  | detaches deadline on due left =>
    cases List.mem_singleton.mp ho
    exact ⟨rfl, rfl, fun _ => ⟨deadline, on, fun _ => ⟨due, left⟩⟩⟩

theorem returns_over {outcome : PoolShutdown} (ht : Sound q (calls.set k next))
    (hr : Returns l next q outcome) (hlost : .returned .incomplete ∉ calls)
    (hne : outcome ≠ .incomplete) : q.openTasks = [] := by
  refine empty_open (ht.exact fun hmem => ?_) hr.empty
  rcases List.mem_or_eq_of_mem_set hmem with hold | hnew
  · exact hlost hold
  · rw [hr.next] at hnew
    exact hne (Mode.returned.inj hnew).symm

theorem returns_left (h : Sound l.pool calls) (here : calls[k]? = some l.mode)
    (hr : Returns l next q .incomplete) : .returned .incomplete ∉ calls ∧
      .returned .incomplete ∈ calls.set k next ∧ l.pool.tracked ≠ [] ∧
      ∃ deadline, calls[k]? = some (.forcing deadline) ∧ deadline ≤ l.now := by
  obtain ⟨deadline, hmode, hlate⟩ := hr.forced nofun
  obtain ⟨hdue, hleft⟩ := hlate rfl
  have hnow : (calls.set k next)[k]? = some (.returned .incomplete) := by
    rw [part_set here, if_pos rfl, hr.next]
  exact ⟨fun hlost => hleft (h.settled _ hlost).1, List.mem_of_getElem? hnow, hleft, deadline,
    hmode ▸ here, hdue⟩

/-- No call is in its second wait once tasks were left to themselves, and none gets there. -/
theorem returns_lost {outcome : PoolShutdown} (h : Sound l.pool calls)
    (here : calls[k]? = some l.mode) (hr : Returns l next q outcome)
    (hlost : .returned .incomplete ∈ calls) : outcome = .graceful := by
  by_contra hne
  obtain ⟨deadline, hmode, -⟩ := hr.forced hne
  exact (h.settled _ hlost).2 deadline (List.mem_of_getElem? (hmode ▸ here))

theorem does_reports (h : Sound r.pool r.calls) (hd : Does r t heard) : Reports r t heard := by
  have ht := does_sound h hd
  cases hd with
  | @uses k now asking mode q deeds here uses silent =>
    have hnone : ∀ j outcome, Heard.deed j (.returned outcome) ∉ deeds.map (.deed k) :=
      fun j outcome ho => silent outcome (mem_deeds.mp ho).2
    exact ⟨fun _ j o ho => absurd ho (hnone j o), fun _ n hn => absurd hn counted_deeds,
      fun j ho => absurd ho (hnone j _), fun _ j o ho => absurd ho (hnone j o),
      fun _ n hn => absurd hn counted_deeds⟩
  | @shifts k mode next turn q deeds here shift free =>
    have hreturns : ∀ j outcome, Heard.deed j (.returned outcome) ∈ deeds.map (.deed k) →
        j = k ∧ Returns (r.seen mode) next q outcome := fun j outcome ho =>
      ⟨(mem_deeds.mp ho).1, shift_returns shift (mem_deeds.mp ho).2⟩
    refine ⟨fun hl j o ho => ?_, fun _ n hn => absurd hn counted_deeds, fun j ho => ?_,
      fun hl j o ho => ?_, fun _ n hn => absurd hn counted_deeds⟩
    · exact returns_over ht (hreturns j o ho).2 hl
    · obtain ⟨rfl, hr⟩ := hreturns j _ ho
      exact returns_left (l := r.seen mode) h here hr
    · exact returns_lost (l := r.seen mode) h here (hreturns j o ho).2 hl
  | counts =>
    refine ⟨by simp, fun hl n hn => ?_, by simp, by simp, fun hl n hn => ?_⟩
    · cases List.mem_singleton.mp hn
      exact active_open (h.exact hl)
    · cases List.mem_singleton.mp hn
      rw [active, (h.settled _ hl).1]
      rfl
  | quits here on => constructor <;> simp

/-- However submissions, tasks and any number of shutdowns interleave: until some call has left
tasks to themselves, every call that says that all tasks are over is right, and the open tasks
are counted. Later calls and counts say that no task is open, whether one is or not. -/
theorem shutdowns_report {limit users : Nat} {turns : List Turn} {turn : Turn}
    (hp : make limit = .ok p) (h : runAll step turns (begin p users) = some (r, log))
    (hs : r.step turn = some (t, heard)) : Reports r t heard :=
  does_reports (run_sound hp h) (step_does hs)

def awaited : Repeats := ⟨0, ⟨3, false, false, 3, [], [.finished], []⟩, 0, [.serving, .waiting 5 5]⟩

def awaiting : List Turn := [.takes 0 .ask, .takes 0 .enter, .takes 1 (.shutdown 5 5),
  .takes 1 .wait, .takes 0 (.poll 0), .takes 0 (.finish 0 false), .takes 1 (.reap 1)]

theorem shutdowns_report_awaited : ∃ log,
    runAll step awaiting (begin ⟨3, true, false, 3, [], [], []⟩ 2) = some (awaited, log) ∧
    awaited.step (.takes 1 .drained) = some
      ({ awaited with calls := [.serving, .returned .graceful] }, [.deed 1 (.returned .graceful)]) ∧
    Reports awaited { awaited with calls := [.serving, .returned .graceful] }
      [.deed 1 (.returned .graceful)] := by
  have hp : make 3 = .ok ⟨3, true, false, 3, [], [], []⟩ := rfl
  have hrun : runAll step awaiting (begin ⟨3, true, false, 3, [], [], []⟩ 2) =
      some (awaited, _) := rfl
  have hstep : awaited.step (.takes 1 .drained) = some
      ({ awaited with calls := [.serving, .returned .graceful] }, _) := rfl
  exact ⟨_, hrun, hstep, shutdowns_report hp hrun hstep⟩

theorem act_free {x : Life × List Deed} (h : l.act clock turn = some x) :
    l.act .free turn = some x := by
  cases turn with
  | pass duration =>
    simp only [Life.act, Option.ite_none_right_eq_some] at h
    exact h.2
  | _ => exact h

theorem act_unlocked {x : Life × List Deed} (h : l.act clock turn = some x)
    (ht : takesLock turn = true) : l.mode.isLocked = false := by
  cases turn with
  | enter =>
    simp only [Life.act, Option.ite_none_left_eq_some, not_or, Bool.not_eq_true] at h
    exact h.1.1
  | wait =>
    simp only [Life.act] at h
    split at h
    · rename_i hm
      rw [hm]
      rfl
    · cases h
  | _ => cases ht

/-- A user whose call meets no other one has the pool for itself. -/
theorem act_step (h : l.act clock turn = some (m, deeds)) (here : calls[k]? = some l.mode)
    (free : ∀ j mode, j ≠ k → calls[j]? = some mode → mode.isLocked = false) :
    step ⟨l.now, l.pool, l.asking, calls⟩ (.takes k turn) =
      some (⟨m.now, m.pool, m.asking, calls.set k m.mode⟩, deeds.map (.deed k)) := by
  have hlock : ¬ (takesLock turn = true ∧ isLocked ⟨l.now, l.pool, l.asking, calls⟩ = true) := by
    rintro ⟨ht, hl⟩
    obtain ⟨mode, hmem, hmode⟩ := List.any_eq_true.mp hl
    obtain ⟨j, hj⟩ := List.mem_iff_getElem?.mp hmem
    by_cases hjk : j = k
    · rw [hjk, here] at hj
      rw [← Option.some.inj hj, act_unlocked h ht] at hmode
      cases hmode
    · rw [free j mode hjk hj] at hmode
      cases hmode
  have hseen : seen ⟨l.now, l.pool, l.asking, calls⟩ l.mode = l := rfl
  simp only [step, here, Option.bind_eq_bind, Option.bind_some, if_neg hlock, hseen, act_free h]

theorem set_free (free : ∀ j mode, j ≠ k → calls[j]? = some mode → mode.isLocked = false)
    (next : Mode) (j : Nat) (mode : Mode) (hj : j ≠ k)
    (hm : (calls.set k next)[j]? = some mode) : mode.isLocked = false := by
  rw [List.getElem?_set_ne (Ne.symm hj)] at hm
  exact free j mode hj hm

/-- A call that meets no other one after tasks were left to themselves returns at once, whatever
still runs. -/
theorem lost_again (h : Sound r.pool r.calls) (lost : r.Lost) (here : r.calls[k]? = some .serving)
    (free : ∀ j mode, j ≠ k → r.calls[j]? = some mode → mode.isLocked = false)
    (graceful forced : Nat) :
    ∃ t said, runAll step [.takes k (.shutdown graceful forced), .takes k .wait,
        .takes k .drained] r = some (t, said) ∧ .deed k (.returned .graceful) ∈ said ∧
      t.now = r.now ∧ t.pool.openTasks = r.pool.openTasks := by
  have hempty : r.pool.stopAccepting.tracked = [] := (h.settled _ lost).1
  have hset := fun next => (part_set here next k).trans (if_pos rfl)
  let called : Life := ⟨r.now, r.pool.stopAccepting, .called graceful forced, r.asking⟩
  let waiting : Life := { called with mode := .waiting (r.now + graceful) forced }
  have hcall : (r.seen .serving).act .free (.shutdown graceful forced) =
      some (called, [.closing]) := rfl
  have hwait : called.act .free .wait = some (waiting, [.awaits (r.now + graceful)]) := rfl
  have hdrained : waiting.act .free .drained =
      some ({ waiting with mode := .returned .graceful }, [.returned .graceful]) := by
    simp [Life.act, waiting, called, hempty]
  have hfirst := act_step hcall here free
  have hsecond := act_step hwait (hset called.mode) (set_free free _)
  have hthird := act_step hdrained (hset waiting.mode) (set_free free _)
  rw [List.set_set] at hsecond hthird
  have hbegun : runAll step [] r = some (r, []) := rfl
  have hrun := run_concat (run_concat (run_concat hbegun hfirst) hsecond) hthird
  exact ⟨_, _, hrun, by simp, rfl, rfl⟩

theorem lives_run (h : Schedule.Lives l m) (here : calls[k]? = some l.mode)
    (free : ∀ j mode, j ≠ k → calls[j]? = some mode → mode.isLocked = false) :
    ∃ turns log, runAll step turns ⟨l.now, l.pool, l.asking, calls⟩ =
      some (⟨m.now, m.pool, m.asking, calls.set k m.mode⟩, log) := by
  obtain ⟨turns, said, h⟩ := h
  induction turns generalizing l calls said with
  | nil =>
    cases h
    exact ⟨[], [], by rw [part_same here]; rfl⟩
  | cons turn turns ih =>
    obtain ⟨n, first, later, hturn, hrest, rfl⟩ := run_cons h
    obtain ⟨⟨_, deeds⟩, hact, heq⟩ := Option.map_eq_some_iff.mp hturn
    cases heq
    have hstep := act_step hact here free
    have hset := part_set here n.mode
    obtain ⟨more, log, hmore⟩ := ih (by rw [hset, if_pos rfl]) (set_free free n.mode) later hrest
    rw [List.set_set] at hmore
    exact ⟨.takes k turn :: more, deeds.map (.deed k) ++ log, by simp [runAll, hstep, hmore]⟩

end

inductive Act where
  | use (use : Schedule.Use)
  | shutdown (graceful forced : Nat)

def perform (s : Schedule × List PoolShutdown) : Act → Schedule × List PoolShutdown
  | .use use => (s.1.use use, s.2)
  | .shutdown graceful forced =>
    ((s.1.shutdown graceful forced).1, s.2 ++ [(s.1.shutdown graceful forced).2])

def calledSo (outcomes : List PoolShutdown) (others : Nat) : List Mode :=
  outcomes.map .returned ++ List.replicate others .serving

structure Reached (p : Pool) (s : Schedule) (calls : List Mode) : Prop where
  running : s.Running
  run : ∃ turns log, runAll step turns (begin p calls.length) =
    some (⟨s.now, s.pool, 0, calls⟩, log)

section
variable {p : Pool} {s t : Schedule} {calls : List Mode} {mode next : Mode}
  {outcomes : List PoolShutdown} {k limit others : Nat}

theorem reached_lives (h : Reached p s calls) (here : calls[k]? = some mode)
    (free : ∀ j mode, j ≠ k → calls[j]? = some mode → mode.isLocked = false) (ht : t.Running)
    (hl : Schedule.Lives (s.life mode) (t.life next)) : Reached p t (calls.set k next) := by
  obtain ⟨turns, log, hrun⟩ := h.run
  obtain ⟨more, later, hmore⟩ := lives_run hl here free
  exact ⟨ht, turns ++ more, log ++ later, by rw [List.length_set]; exact run_append hrun hmore⟩

theorem called_free (j : Nat) (hj : (calledSo outcomes others)[j]? = some mode) :
    mode.isLocked = false := by
  rcases List.mem_append.mp (List.mem_of_getElem? hj) with hold | hnew
  · obtain ⟨outcome, -, rfl⟩ := List.mem_map.mp hold
    rfl
  · rw [(List.mem_replicate.mp hnew).2]
    rfl

theorem called_next (outcomes : List PoolShutdown) (others : Nat) :
    (calledSo outcomes (others + 1))[outcomes.length]? = some .serving := by
  simp [calledSo]

theorem called_set (outcomes : List PoolShutdown) (others : Nat) (outcome : PoolShutdown) :
    (calledSo outcomes (others + 1)).set outcomes.length (.returned outcome) =
      calledSo (outcomes ++ [outcome]) others := by
  simp [calledSo, List.set_append_right, List.replicate_succ]

theorem called_lost : .returned .incomplete ∈ calledSo outcomes others ↔
    .incomplete ∈ outcomes := by
  simp [calledSo]

theorem shutdown_reached (h : Reached p s (calledSo outcomes (others + 1)))
    (graceful forced : Nat) : Reached p (s.shutdown graceful forced).1
      (calledSo (outcomes ++ [(s.shutdown graceful forced).2]) others) := by
  obtain ⟨hrunning, hlives⟩ := Schedule.shutdown_lives h.running graceful forced
  rw [← called_set]
  exact reached_lives h (called_next outcomes others) (fun j _ _ hj => called_free j hj) hrunning
    hlives

theorem use_reached (h : Reached p s (calledSo outcomes (others + 1))) (use : Schedule.Use) :
    Reached p (s.use use) (calledSo outcomes (others + 1)) := by
  have hserving : Mode.serving.isLocked = false := rfl
  obtain ⟨hrunning, hlives⟩ := Schedule.use_lives h.running hserving use
  have hnext := called_next outcomes others
  have hreached := reached_lives h hnext (fun j _ _ hj => called_free j hj) hrunning hlives
  rwa [part_same hnext] at hreached

theorem acts_reached (hp : make limit = .ok p) (acts : List Act)
    (h : acts.foldl perform (Schedule.begin p, []) = (s, outcomes)) :
    ∀ others, Reached p s (calledSo outcomes (others + 1)) := by
  induction acts using List.reverseRecOn generalizing s outcomes with
  | nil =>
    cases h
    exact fun others => ⟨Schedule.begin_running hp, [], [], by simp [runAll, begin, calledSo,
      Schedule.begin]⟩
  | append_singleton acts act ih =>
    rw [List.foldl_concat] at h
    have hbefore := ih rfl
    generalize acts.foldl perform (Schedule.begin p, []) = before at h hbefore
    cases act with
    | use use =>
      cases h
      exact fun others => use_reached (hbefore others) use
    | shutdown graceful forced =>
      cases h
      exact fun others => shutdown_reached (hbefore (others + 1)) graceful forced

theorem reached_sound (hp : make limit = .ok p) (h : Reached p s calls) : Sound s.pool calls := by
  obtain ⟨turns, log, hrun⟩ := h.run
  exact run_sound hp hrun

/-- Nothing is tracked once tasks were left to themselves, so a shutdown has nothing to wait
for. -/
theorem shutdown_lost (hp : make limit = .ok p) (h : Reached p s (calledSo outcomes 1))
    (hlost : .incomplete ∈ outcomes) (graceful forced : Nat) :
    (s.shutdown graceful forced).2 = .graceful := by
  have hnext := called_next outcomes 0
  have hfree := fun (j : Nat) (mode : Mode) (_ : j ≠ outcomes.length)
    (hj : (calledSo outcomes 1)[j]? = some mode) => called_free j hj
  have hrunning := (Schedule.spend_spent (Schedule.stopping_running h.running)).running
  have hwait := reached_lives h hnext hfree hrunning (Schedule.wait_lives h.running graceful forced)
  rw [Schedule.shutdown_eq]
  generalize (s.withPool stopAccepting).spend = w at hwait hrunning
  cases hdrain : w.drain graceful with
  | mk t drained =>
    have hd := Schedule.drain_ends hrunning hdrain
    cases drained with
    | true => rfl
    | false =>
      have hnow := reached_lives hwait ((part_set hnext _ _).trans (if_pos rfl)) (set_free hfree _)
        hd.running (hd.lives _)
      have hmem : Mode.returned .incomplete ∈ ((calledSo outcomes 1).set outcomes.length
          (.waiting (w.now + graceful) forced)).set outcomes.length
          (.waiting (w.now + graceful) forced) := by
        simp [calledSo, List.set_append_right, hlost]
      exact absurd ((reached_sound hp hnow).settled _ hmem).1 (hd.left rfl).1

structure Tells (s : Schedule) (outcomes : List PoolShutdown) (graceful forced : Nat) : Prop where
  finished : .incomplete ∉ outcomes → (s.shutdown graceful forced).2 ≠ .incomplete →
    (s.shutdown graceful forced).1.pool.openTasks = []
  counted : .incomplete ∉ outcomes → s.active.1 = s.active.2.pool.openTasks.length
  unaware : .incomplete ∈ outcomes → (s.shutdown graceful forced).2 = .graceful
  uncounted : .incomplete ∈ outcomes → s.active.1 = 0

theorem schedule_tells (hp : make limit = .ok p) (acts : List Act)
    (h : acts.foldl perform (Schedule.begin p, []) = (s, outcomes)) (graceful forced : Nat) :
    Tells s outcomes graceful forced := by
  have hreached := acts_reached hp acts h 0
  have hspent := Schedule.spend_spent hreached.running
  have hspend := reached_sound hp (reached_lives hreached (called_next outcomes 0)
    (fun j _ _ hj => called_free j hj) hspent.running (hspent.lives .serving))
  rw [part_same (called_next outcomes 0)] at hspend
  refine ⟨fun hl hne => ?_, fun hl => ?_, fun hl => shutdown_lost hp hreached hl graceful forced,
    fun hl => ?_⟩
  · have hsound := reached_sound hp (shutdown_reached hreached graceful forced)
    have hnow : .returned (s.shutdown graceful forced).2 ∈
        calledSo (outcomes ++ [(s.shutdown graceful forced).2]) 0 := by
      simp [calledSo]
    refine empty_open (hsound.exact fun hlost => ?_) (hsound.settled _ hnow).1
    rcases List.mem_append.mp (called_lost.mp hlost) with hold | hnew
    · exact hl hold
    · exact hne (List.mem_singleton.mp hnew).symm
  · exact active_open (hspend.exact fun hlost => hl (called_lost.mp hlost))
  · show s.spend.pool.active = 0
    rw [active, (hspend.settled _ (called_lost.mpr hl)).1]
    rfl

end

def endless : List Act := [.use (.submit ⟨none, false⟩), .shutdown 11 11]

/-- The first shutdown leaves the task to itself, and the second one says that it is over. -/
theorem second_shutdown_graceful : ∃ s, endless.foldl perform
      (Schedule.begin ⟨0, true, false, 0, [], [], []⟩, []) = (s, [.incomplete]) ∧
    (s.shutdown 11 11).2 = .graceful ∧ (s.shutdown 11 11).1.pool.openTasks = [0] ∧
    s.active.1 = 0 ∧ s.active.2.pool.status 0 = some .running :=
  ⟨_, rfl, rfl, rfl, rfl, rfl⟩
end Repeats
end Wiretap.Pool
