import Wiretap.Proofs.Server.Progress

/-! Servers that are run more than once, one run after another or several at a time. They
share one state, one flag and one address. A run that ends leaves the state at stopped, which
no other run takes back, and the address is that of the first listener of all. So a later
run accepts clients on a server that says it has stopped. -/

set_option autoImplicit false

namespace Wiretap.Server

structure Reruns where
  server : Server
  phases : List Phase

namespace Reruns

inductive Turn where
  | run
  | meets (k now : Nat) (event : Event)
  | raise
  | retreat

def start : Reruns := ⟨.fresh, []⟩

def step (setup : Setup) (r : Reruns) : Turn → Option (Reruns × List Action)
  | .run => some (⟨r.server, r.phases ++ [.waiting]⟩, [])
  | .meets k now e => do
    let phase ← r.phases[k]?
    let (server, next, acts) ← r.server.step setup now phase e
    some (⟨server, r.phases.set k next⟩, acts)
  | .raise => some (⟨r.server.raise, r.phases⟩, [])
  | .retreat => if r.server.stopRequested then some (⟨r.server.retreat, r.phases⟩, []) else none

inductive Does (r : Reruns) : Turn → Reruns → List Action → Prop where
  | runs : Does r .run ⟨r.server, r.phases ++ [.waiting]⟩ []
  | meets {k now : Nat} {e : Event} {phase next : Phase} {server : Server} {acts : List Action}
    (here : r.phases[k]? = some phase) (move : Move r.server phase e server next acts) :
    Does r (.meets k now e) ⟨server, r.phases.set k next⟩ acts
  | raises : Does r .raise ⟨r.server.raise, r.phases⟩ []
  | retreats (up : r.server.stopRequested = true) : Does r .retreat ⟨r.server.retreat, r.phases⟩ []

def Turn.begun? : Turn → Option Nat
  | .meets k _ .begun => some k
  | _ => none

def Turn.located? : Turn → Option (Nat × SocketAddress)
  | .meets k _ (.located a) => some (k, a)
  | _ => none

def begun (turns : List Turn) : List Nat := turns.filterMap Turn.begun?

def listeners (turns : List Turn) : List (Nat × SocketAddress) := turns.filterMap Turn.located?

def Over (turns : List Turn) (r : Reruns) : Prop := ∃ k ∈ begun turns, r.phases[k]? = some .ended

structure Started (turns : List Turn) (r : Reruns) : Prop where
  listed : ∀ k phase, r.phases[k]? = some phase → phase ≠ .waiting → phase ≠ .ended →
    k ∈ begun turns
  on : ∀ k ∈ begun turns, ∃ phase, r.phases[k]? = some phase ∧ phase ≠ .waiting

structure Listens (turns : List Turn) (r : Reruns) : Prop where
  begun : ∀ l ∈ listeners turns, l.1 ∈ Reruns.begun turns
  late : ∀ l ∈ listeners turns, ∀ phase : Phase, r.phases[l.1]? = some phase →
    phase.isEarly = false
  own : ∀ (k : Nat) (phase : Phase) (a : SocketAddress), r.phases[k]? = some phase →
    phase.address? = some a → (k, a) ∈ listeners turns
  once : ((listeners turns).map Prod.fst).Nodup
  address : r.server.localAddress = (listeners turns).head?.map Prod.snd

inductive Shows (phases : List Phase) : ServerState → Prop where
  | created (none : ∀ (k : Nat) (phase : Phase), phases[k]? = some phase → phase.address? = none) :
    Shows phases .created
  | bound {k : Nat} {a : SocketAddress} (opening : phases[k]? = some (.opening a)) :
    Shows phases .bound
  | accepting : Shows phases .accepting

structure Followed (turns : List Turn) (r : Reruns) : Prop where
  done : Over turns r → r.server.state = .stopped
  shows : r.server.stopRequested = false → ¬ Over turns r → Shows r.phases r.server.state

structure Idle (turn : Turn) (r t : Reruns) : Prop where
  begun : turn.begun? = none
  silent : turn.located? = none
  address : t.server.localAddress = r.server.localAddress
  stopped : r.server.state = .stopped → t.server.state = .stopped
  same : t.server.stopRequested = false →
    r.server.stopRequested = false ∧ t.server.state = r.server.state
  kept : ∀ (k : Nat) (phase : Phase), r.phases[k]? = some phase → t.phases[k]? = some phase
  fresh : ∀ (k : Nat) (phase : Phase), t.phases[k]? = some phase →
    r.phases[k]? = some phase ∨ phase = .waiting

/-- What is seen of a server in one of whose accept loops run `k` listens on `a`. -/
structure Seen (turns : List Turn) (r : Reruns) (k : Nat) (a : SocketAddress) : Prop where
  stopped : r.server.state = .stopped ↔ Over turns r
  running : r.server.isRunning = true ↔ ¬ Over turns r
  -- A run that is about to accept takes the state back to bound for a moment.
  accepting : (∀ (j : Nat) b, r.phases[j]? ≠ some (.opening b)) →
    (r.server.state = .accepting ↔ ¬ Over turns r)
  listener : (k, a) ∈ listeners turns
  address : r.server.localAddress = (listeners turns).head?.map Prod.snd
  first : (listeners turns).head?.map Prod.fst = some k → r.server.localAddress = some a
  -- A server that was run once does not mislead.
  alone : (∀ j ∈ begun turns, j = k) →
    r.server.state = .accepting ∧ r.server.localAddress = some a

section
variable {setup : Setup} {turns : List Turn} {turn : Turn} {r t : Reruns} {acts log : List Action}
  {s q : Server} {phase next : Phase} {e : Event} {k j now : Nat}

theorem step_does (h : step setup r turn = some (t, acts)) : Does r turn t acts := by
  cases turn with
  | run =>
    cases h
    exact .runs
  | meets k now e =>
    obtain ⟨phase, hphase, h⟩ := Option.bind_eq_some_iff.mp h
    obtain ⟨⟨server, next, done⟩, hs, h⟩ := Option.bind_eq_some_iff.mp h
    cases h
    exact .meets hphase (move_of_step hs)
  | raise =>
    cases h
    exact .raises
  | retreat =>
    simp only [step, Option.ite_none_right_eq_some] at h
    obtain ⟨up, h⟩ := h
    cases h
    exact .retreats up

theorem phase_run (r : Reruns) (j : Nat) : (r.phases ++ [.waiting])[j]? =
    if j = r.phases.length then some .waiting else r.phases[j]? := by
  by_cases hj : j = r.phases.length
  · simp [hj]
  · rw [if_neg hj, List.getElem?_append]
    by_cases hlt : j < r.phases.length
    · rw [if_pos hlt]
    · rw [if_neg hlt, List.getElem?_eq_none (by simp; omega), List.getElem?_eq_none (by omega)]

theorem run_idle (r : Reruns) : Idle .run r ⟨r.server, r.phases ++ [.waiting]⟩ := by
  refine ⟨rfl, rfl, rfl, id, fun h => ⟨h, rfl⟩, fun k p hp => ?_, fun k p hp => ?_⟩
  · rw [phase_run, if_neg, hp]
    have := (List.getElem?_eq_some_iff.mp hp).1
    omega
  · rw [phase_run] at hp
    split at hp
    · exact .inr (Option.some.inj hp).symm
    · exact .inl hp

theorem raise_idle (r : Reruns) : Idle .raise r ⟨r.server.raise, r.phases⟩ :=
  ⟨rfl, rfl, rfl, id, nofun, fun _ _ hp => hp, fun _ _ hp => .inl hp⟩

theorem retreat_idle (up : r.server.stopRequested = true) :
    Idle .retreat r ⟨r.server.retreat, r.phases⟩ := by
  refine ⟨rfl, rfl, rfl, Tenure.retreat_stopped, fun h => ?_, fun _ _ hp => hp,
    fun _ _ hp => .inl hp⟩
  rw [show r.server.retreat.stopRequested = true from up] at h
  cases h

theorem does_cases (hd : Does r turn t acts) : Idle turn r t ∨
    ∃ k now e phase next q, turn = .meets k now e ∧ r.phases[k]? = some phase ∧
      Move r.server phase e q next acts ∧ t = ⟨q, r.phases.set k next⟩ := by
  cases hd with
  | runs => exact .inl (run_idle r)
  | meets here move => exact .inr ⟨_, _, _, _, _, _, rfl, here, move, rfl⟩
  | raises => exact .inl (raise_idle r)
  | retreats up => exact .inl (retreat_idle up)

theorem begun_concat (turns : List Turn) (turn : Turn) :
    begun (turns ++ [turn]) = begun turns ++ turn.begun?.toList := by
  rw [begun, List.filterMap_append]
  cases h : turn.begun? <;> simp [begun, h]

theorem listeners_concat (turns : List Turn) (turn : Turn) :
    listeners (turns ++ [turn]) = listeners turns ++ turn.located?.toList := by
  rw [listeners, List.filterMap_append]
  cases h : turn.located? <;> simp [listeners, h]

theorem move_goes (m : Move s phase e q next acts) : phase ≠ .ended ∧ next ≠ .waiting ∧
    (phase = .waiting → e = .begun ∨ e = .dropped ∧ next = .ended) := by
  cases m with
  | dropped begun on => exact ⟨on, by simp, fun h => absurd h begun⟩
  | _ => simp

inductive Lists (s : Server) : Phase → Event → Server → Phase → Prop where
  | locates {q : Server} (a : SocketAddress)
    (address : q.localAddress = s.localAddress.or (some a)) :
    Lists s .locating (.located a) q (.opening a)
  | keeps {phase next : Phase} {e : Event} {q : Server} (silent : ∀ a, e ≠ .located a)
    (address : q.localAddress = s.localAddress)
    (own : ∀ a, next.address? = some a → phase.address? = some a)
    (late : phase.isEarly = false → next.isEarly = false) : Lists s phase e q next

theorem move_lists (m : Move s phase e q next acts) : Lists s phase e q next := by
  cases m with
  | locates a line => exact .locates a (by simp [locate])
  | opens a => exact .keeps (by simp) (by simp) (by simp [Phase.address?]) (by simp [Phase.isEarly])
  | stops a e up first last why =>
    refine .keeps ?_ rfl (by simp [Phase.address?]) (by simp [Phase.isEarly])
    rcases why with rfl | ⟨error, rfl⟩ <;> simp
  | _ => exact .keeps (by simp) rfl (by simp [Phase.address?]) (by simp [Phase.isEarly])

theorem silent_located (h : ∀ a, e ≠ .located a) (k now : Nat) :
    (Turn.meets k now e).located? = none := by
  cases e with
  | located a => exact absurd rfl (h a)
  | _ => rfl

theorem begun_meets {turns : List Turn} : j ∈ begun (turns ++ [.meets k now e]) ↔
    j ∈ begun turns ∨ j = k ∧ e = .begun := by
  rw [begun_concat, List.mem_append]
  cases e <;> simp [Turn.begun?]

theorem start_started : Started [] start := ⟨by simp [start], by simp [begun]⟩

theorem meets_started (h : Started turns r) (here : r.phases[k]? = some phase)
    (m : Move r.server phase e q next acts) :
    Started (turns ++ [.meets k now e]) ⟨q, r.phases.set k next⟩ := by
  obtain ⟨hon, hnext, hwaiting⟩ := move_goes m
  constructor
  · intro j p hp hw he
    rw [part_set here] at hp
    rw [begun_meets]
    by_cases hj : j = k
    · rw [if_pos hj, Option.some.injEq] at hp
      by_cases hstart : phase = .waiting
      · exact .inr ⟨hj, (hwaiting hstart).resolve_right fun h => he (hp ▸ h.2)⟩
      · exact .inl (hj ▸ h.listed k phase here hstart hon)
    · rw [if_neg hj] at hp
      exact .inl (h.listed j p hp hw he)
  · intro j hj
    rw [part_set here]
    by_cases he : j = k
    · exact ⟨next, if_pos he, hnext⟩
    · rw [if_neg he]
      exact h.on j ((begun_meets.mp hj).resolve_right fun hk => he hk.1)

theorem start_listens : Listens [] start :=
  ⟨by simp [listeners], by simp [listeners], by simp [start], by simp [listeners], rfl⟩

theorem meets_listens (hb : Started turns r) (h : Listens turns r)
    (here : r.phases[k]? = some phase) (m : Move r.server phase e q next acts) :
    Listens (turns ++ [.meets k now e]) ⟨q, r.phases.set k next⟩ := by
  have hset := part_set here next
  cases move_lists m with
  | locates a address =>
    have hbegun : k ∈ begun turns := hb.listed k _ here (by simp) (by simp)
    have hlist : listeners (turns ++ [.meets k now (.located a)]) =
        listeners turns ++ [(k, a)] := by
      rw [listeners_concat]
      rfl
    have hnew : k ∉ (listeners turns).map Prod.fst := by
      intro hk
      obtain ⟨l, hl, rfl⟩ := List.mem_map.mp hk
      exact absurd (h.late l hl _ here) (by simp [Phase.isEarly])
    refine ⟨fun l hl => ?_, fun l hl p hp => ?_, fun j p b hp hb => ?_, ?_, ?_⟩
    · rw [hlist, List.mem_append, List.mem_singleton] at hl
      rw [begun_meets]
      rcases hl with hl | rfl
      · exact .inl (h.begun l hl)
      · exact .inl hbegun
    · rw [hset] at hp
      split at hp
      · cases hp
        rfl
      · rename_i hne
        rw [hlist, List.mem_append, List.mem_singleton] at hl
        rcases hl with hl | rfl
        · exact h.late l hl p hp
        · exact absurd rfl hne
    · rw [hset] at hp
      rw [hlist, List.mem_append, List.mem_singleton]
      split at hp
      · rename_i hj
        cases hp
        cases hb
        exact .inr (by rw [hj])
      · exact .inl (h.own j p b hp hb)
    · rw [hlist, List.map_append, List.nodup_append]
      refine ⟨h.once, by simp, ?_⟩
      rintro i hi j hj rfl
      simp only [List.map_singleton, List.mem_singleton] at hj
      exact hnew (hj ▸ hi)
    · rw [hlist, List.head?_append, address, h.address]
      cases (listeners turns).head? <;> rfl
  | keeps silent address own late =>
    have hlist : listeners (turns ++ [.meets k now e]) = listeners turns := by
      rw [listeners_concat, silent_located silent]
      exact List.append_nil _
    refine ⟨fun l hl => ?_, fun l hl p hp => ?_, fun j p b hp hb => ?_, ?_, ?_⟩
    · rw [hlist] at hl
      exact begun_meets.mpr (.inl (h.begun l hl))
    · rw [hlist] at hl
      rw [hset] at hp
      split at hp
      · rename_i hj
        cases hp
        exact late (h.late l hl phase (hj ▸ here))
      · exact h.late l hl p hp
    · rw [hlist]
      rw [hset] at hp
      split at hp
      · rename_i hj
        cases hp
        exact hj ▸ h.own k phase b here (own b hb)
      · exact h.own j p b hp hb
    · rw [hlist]
      exact h.once
    · rw [hlist]
      exact address.trans h.address

theorem move_stopped (h : s.state = .stopped) (m : Move s phase e q next acts) :
    q.state = .stopped := by
  cases m with
  | locates a line => simp [advance, locate, h]
  | opens a => simp [advance, h]
  | begins => exact h
  | unbegun => exact h
  | bound => exact h
  | accepts => exact h
  | rests => exact h
  | wakes => exact h
  | _ => rfl

theorem move_ended (m : Move s phase e q .ended acts) :
    q.state = .stopped ∨ phase = .waiting ∧ e = .dropped := by
  cases m with
  | unbegun => exact .inr ⟨rfl, rfl⟩
  | _ => exact .inl rfl

theorem idle_begun (h : Idle turn r t) : begun (turns ++ [turn]) = begun turns := by
  rw [begun_concat, h.begun]
  exact List.append_nil _

theorem idle_listeners (h : Idle turn r t) : listeners (turns ++ [turn]) = listeners turns := by
  rw [listeners_concat, h.silent]
  exact List.append_nil _

theorem idle_started (h : Started turns r) (hi : Idle turn r t) : Started (turns ++ [turn]) t := by
  refine ⟨fun k p hp hw he => ?_, fun k hk => ?_⟩
  · rw [idle_begun hi]
    exact h.listed k p ((hi.fresh k p hp).resolve_right hw) hw he
  · rw [idle_begun hi] at hk
    obtain ⟨p, hp, hw⟩ := h.on k hk
    exact ⟨p, hi.kept k p hp, hw⟩

theorem idle_listens (hb : Started turns r) (h : Listens turns r) (hi : Idle turn r t) :
    Listens (turns ++ [turn]) t := by
  refine ⟨fun l hl => ?_, fun l hl p hp => ?_, fun k p a hp ha => ?_, ?_, ?_⟩
  · rw [idle_listeners hi] at hl
    rw [idle_begun hi]
    exact h.begun l hl
  · rw [idle_listeners hi] at hl
    obtain ⟨old, hold, -⟩ := hb.on _ (h.begun l hl)
    have hsame := hi.kept _ _ hold
    rw [hp] at hsame
    exact h.late l hl p (hsame ▸ hold)
  · rw [idle_listeners hi]
    rcases hi.fresh k p hp with hold | rfl
    · exact h.own k p a hold ha
    · cases ha
  · rw [idle_listeners hi]
    exact h.once
  · rw [idle_listeners hi, hi.address]
    exact h.address

theorem start_followed : Followed [] start :=
  ⟨by simp [Over, begun], fun _ _ => .created (by simp [start])⟩

theorem idle_followed (h : Followed turns r) (hi : Idle turn r t) :
    Followed (turns ++ [turn]) t := by
  have hover : Over (turns ++ [turn]) t ↔ Over turns r := by
    unfold Over
    rw [idle_begun hi]
    constructor
    · rintro ⟨k, hk, he⟩
      exact ⟨k, hk, (hi.fresh k _ he).resolve_right (by simp)⟩
    · rintro ⟨k, hk, he⟩
      exact ⟨k, hk, hi.kept k _ he⟩
  refine ⟨fun ho => hi.stopped (h.done (hover.mp ho)), fun hdown ho => ?_⟩
  obtain ⟨hbefore, hstate⟩ := hi.same hdown
  have hshows := h.shows hbefore fun hn => ho (hover.mpr hn)
  rw [hstate]
  generalize r.server.state = state at hshows
  cases hshows with
  | created none =>
    refine .created fun k p hp => ?_
    rcases hi.fresh k p hp with hold | rfl
    · exact none k p hold
    · rfl
  | bound opening => exact .bound (hi.kept _ _ opening)
  | accepting => exact .accepting

theorem over_meets (hb : Started turns r) (here : r.phases[k]? = some phase)
    (m : Move r.server phase e q next acts) :
    Over (turns ++ [.meets k now e]) ⟨q, r.phases.set k next⟩ ↔
      Over turns r ∨ next = .ended ∧ ¬ (phase = .waiting ∧ e = .dropped) := by
  obtain ⟨hon, -, hwaiting⟩ := move_goes m
  unfold Over
  constructor
  · rintro ⟨j, hj, he⟩
    rw [part_set here] at he
    rw [begun_meets] at hj
    by_cases hjk : j = k
    · rw [if_pos hjk, Option.some.injEq] at he
      refine .inr ⟨he, ?_⟩
      rintro ⟨rfl, rfl⟩
      obtain ⟨p, hp, hw⟩ := hb.on j (hj.resolve_right (by simp))
      rw [hjk, here] at hp
      exact hw (Option.some.inj hp).symm
    · rw [if_neg hjk] at he
      exact .inl ⟨j, hj.resolve_right fun h => hjk h.1, he⟩
  · rintro (⟨j, hj, he⟩ | ⟨rfl, hbegun⟩)
    · have hjk : j ≠ k := by
        rintro rfl
        rw [here] at he
        exact hon (Option.some.inj he)
      exact ⟨j, begun_meets.mpr (.inl hj), by rw [part_set here, if_neg hjk, he]⟩
    · refine ⟨k, begun_meets.mpr ?_, by rw [part_set here, if_pos rfl]⟩
      by_cases hw : phase = .waiting
      · exact .inr ⟨rfl, (hwaiting hw).resolve_right fun h => hbegun ⟨hw, h.1⟩⟩
      · exact .inl (hb.listed k phase here hw hon)

theorem shows_advance (h : Shows r.phases s.state) (goal : ServerState) :
    (s.advance goal).state = goal := by
  unfold advance
  generalize hs : s.state = state at h
  cases h <;> simp

theorem shows_set (h : Shows r.phases s.state) (here : r.phases[k]? = some phase)
    (hopening : ∀ a, phase ≠ .opening a)
    (hown : ∀ a, next.address? = some a → phase.address? = some a) :
    Shows (r.phases.set k next) s.state := by
  generalize s.state = state at h
  cases h with
  | created none =>
    refine .created fun j p hp => ?_
    rw [part_set here] at hp
    split at hp
    · cases hp
      have hnone := none k phase here
      exact Option.eq_none_iff_forall_ne_some.mpr fun a ha => by simp [hown a ha] at hnone
    · exact none j p hp
  | @bound j a opening =>
    have hj : j ≠ k := by
      rintro rfl
      rw [here] at opening
      exact hopening a (Option.some.inj opening)
    exact .bound (k := j) (a := a) (by rw [part_set here, if_neg hj, opening])
  | accepting => exact .accepting

theorem move_shows (h : Shows r.phases s.state) (here : r.phases[k]? = some phase)
    (m : Move s phase e q next acts) (down : s.stopRequested = false)
    (on : next = .ended → phase = .waiting ∧ e = .dropped) :
    Shows (r.phases.set k next) q.state := by
  cases m with
  | declines up => rw [down] at up; cases up
  | stops a e up => rw [down] at up; cases up
  | bindFails => exact absurd (on rfl).1 (by simp)
  | locateFails => exact absurd (on rfl).1 (by simp)
  | dropped begun => exact absurd (on rfl).1 begun
  | locates a line =>
    rw [shows_advance (s := s.locate a) h]
    exact .bound (k := k) (a := a) (by rw [part_set here, if_pos rfl])
  | opens a =>
    rw [shows_advance h]
    exact .accepting
  | _ => exact shows_set h here (by simp) (by simp [Phase.address?])

theorem meets_followed (hb : Started turns r) (h : Followed turns r)
    (here : r.phases[k]? = some phase) (m : Move r.server phase e q next acts) :
    Followed (turns ++ [.meets k now e]) ⟨q, r.phases.set k next⟩ := by
  have hover : Over (turns ++ [.meets k now e]) ⟨q, r.phases.set k next⟩ ↔ _ :=
    over_meets hb here m
  constructor
  · intro ho
    rcases hover.mp ho with ho | ⟨rfl, hbegun⟩
    · exact move_stopped (h.done ho) m
    · exact (move_ended m).resolve_right hbegun
  · intro hdown ho
    have hdown : r.server.stopRequested = false := (Tenure.move_flag m).symm.trans hdown
    refine move_shows (h.shows hdown fun hn => ho (hover.mpr (.inl hn))) here m hdown fun he => ?_
    by_contra hn
    exact ho (hover.mpr (.inr ⟨he, hn⟩))

theorem run_holds (h : runAll (step setup) turns start = some (r, log)) :
    Started turns r ∧ Listens turns r ∧ Followed turns r := by
  refine run_invariant (P := fun turns r _ => Started turns r ∧ Listens turns r ∧ Followed turns r)
    ?_ ⟨start_started, start_listens, start_followed⟩ h
  rintro turns r _ turn t said ⟨hb, hl, hf⟩ hs
  rcases does_cases (step_does hs) with hidle | ⟨k, now, e, phase, next, q, rfl, here, m, rfl⟩
  · exact ⟨idle_started hb hidle, idle_listens hb hl hidle, idle_followed hf hidle⟩
  · exact ⟨meets_started hb here m, meets_listens hb hl here m, meets_followed hb hf here m⟩

theorem shows_listening {a : SocketAddress} (h : Shows r.phases r.server.state)
    (here : r.phases[k]? = some phase) (ha : phase.address? = some a) :
    r.server.state = .accepting ∨
      r.server.state = .bound ∧
        ∃ (j : Nat) (b : SocketAddress), r.phases[j]? = some (.opening b) := by
  generalize r.server.state = state at h
  cases h with
  | created none =>
    rw [none k phase here] at ha
    cases ha
  | bound opening => exact .inr ⟨rfl, _, _, opening⟩
  | accepting => exact .inl rfl

/-- Whenever and however often a server is run and asked to stop: while a run is in its accept
loop and no stop was requested, the state is stopped exactly if some other run is over, and
the address is that of the first listener. -/
theorem loops_seen (h : runAll (step setup) turns start = some (r, log))
    (down : r.server.stopRequested = false) {a : SocketAddress} (here : r.phases[k]? = some phase)
    (loop : phase.isLoop = true) (listens : phase.address? = some a) : Seen turns r k a := by
  obtain ⟨hstarted, hlistens, hfollowed⟩ := run_holds h
  have hown := hlistens.own k phase a here listens
  have hstate (ho : ¬ Over turns r) := shows_listening (hfollowed.shows down ho) here listens
  have hon : phase ≠ .ended ∧ phase ≠ .waiting ∧ ∀ b, phase ≠ .opening b := by
    refine ⟨?_, ?_, fun b => ?_⟩ <;> rintro rfl <;> cases loop
  have haccepting (hnone : ∀ (j : Nat) b, r.phases[j]? ≠ some (.opening b)) (ho : ¬ Over turns r) :
      r.server.state = .accepting := by
    rcases hstate ho with hs | ⟨-, j, b, hopening⟩
    · exact hs
    · exact absurd hopening (hnone j b)
  have hfirst (hk : (listeners turns).head?.map Prod.fst = some k) :
      r.server.localAddress = some a := by
    obtain ⟨⟨j, b⟩, hhead, rfl⟩ := Option.map_eq_some_iff.mp hk
    have hsame := List.inj_on_of_nodup_map hlistens.once (List.mem_of_mem_head? hhead) hown rfl
    rw [hlistens.address, hhead, hsame]
    rfl
  refine ⟨⟨fun hs => ?_, hfollowed.done⟩, ⟨fun hs ho => ?_, fun ho => ?_⟩, fun hnone => ?_, hown,
    hlistens.address, hfirst, fun halone => ?_⟩
  · by_contra ho
    rcases hstate ho with hr | ⟨hr, -⟩ <;> rw [hr] at hs <;> cases hs
  · rw [isRunning, hfollowed.done ho] at hs
    cases hs
  · rcases hstate ho with hr | ⟨hr, -⟩ <;> rw [isRunning, hr] <;> rfl
  · refine ⟨fun hs ho => ?_, haccepting hnone⟩
    rw [hfollowed.done ho] at hs
    cases hs
  · have hover : ¬ Over turns r := by
      rintro ⟨j, hj, he⟩
      rw [halone j hj, here] at he
      exact hon.1 (Option.some.inj he)
    have hnone : ∀ (j : Nat) b, r.phases[j]? ≠ some (.opening b) := by
      intro j b hj
      have hk := halone j (hstarted.listed j _ hj (by simp) (by simp))
      rw [hk, here] at hj
      exact hon.2.2 b (Option.some.inj hj)
    refine ⟨haccepting hnone hover, hfirst ?_⟩
    obtain ⟨l, hl⟩ : ∃ l, (listeners turns).head? = some l :=
      ⟨_, List.head?_eq_some_head (List.ne_nil_of_mem hown)⟩
    rw [hl, Option.map_some, halone _ (hlistens.begun l (List.mem_of_mem_head? hl))]

end

def loopback (port : UInt16) : SocketAddress := ⟨.v4 [127, 0, 0, 1], port⟩

def anyPort : Setup := ⟨"127.0.0.1", 0, "example.org", 80⟩

def opens (k : Nat) (port : UInt16) : List Turn := [.run, .meets k 0 .begun, .meets k 0 .bound,
  .meets k 0 (.located (loopback port)), .meets k 0 .opened]

def both : Reruns := ⟨⟨.accepting, false, some (loopback 4001)⟩,
  [.accepting (loopback 4001), .accepting (loopback 4002)]⟩

/-- Two runs accept at the same time, each on a port of its own. -/
theorem loops_seen_twice : ∃ log,
    runAll (step anyPort) (opens 0 4001 ++ opens 1 4002) start = some (both, log) ∧
    both.server.stopRequested = false ∧ both.phases[1]? = some (.accepting (loopback 4002)) ∧
    (Phase.accepting (loopback 4002)).isLoop = true ∧
    (Phase.accepting (loopback 4002)).address? = some (loopback 4002) ∧
    Seen (opens 0 4001 ++ opens 1 4002) both 1 (loopback 4002) := by
  have hrun : runAll (step anyPort) (opens 0 4001 ++ opens 1 4002) start = some (both, _) := rfl
  exact ⟨_, hrun, rfl, rfl, rfl, rfl, loops_seen hrun rfl rfl rfl rfl⟩

/-- The first run finds its port taken, and the second one accepts a client. -/
theorem stopped_and_accepting : ∃ r log, runAll (step anyPort)
      ([.run, .meets 0 0 .begun, .meets 0 0 (.bindFailed (.bind (.system 98)))] ++ opens 1 4002 ++
        [.meets 1 1 (.accepted default .unasked)]) start = some (r, log) ∧
    r.server.stopRequested = false ∧ r.phases[1]? = some (.accepting (loopback 4002)) ∧
    log.getLast? = some (.admitted default) ∧ r.server.state = .stopped ∧
    r.server.isRunning = false :=
  ⟨_, _, rfl, rfl, rfl, rfl, rfl, rfl⟩

end Reruns
end Wiretap.Server
