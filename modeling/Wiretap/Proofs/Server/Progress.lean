import Mathlib.Data.List.Destutter
import Wiretap.Proofs.Server.Moves

/-! How far a server comes in its one run, whenever it is asked to stop. Its state
only goes forward and ends as stopped, a run that cannot listen reports it once,
and a server that was asked to stop before it accepts never hands a client on. -/

set_option autoImplicit false

namespace Wiretap.Server

namespace Phase

def due : Phase → ServerState
  | .waiting => .created
  | .binding => .created
  | .locating => .created
  | .opening _ => .bound
  | .accepting _ => .accepting
  | .resting _ _ => .accepting
  | .ended => .stopped

def address? : Phase → Option SocketAddress
  | .opening a => some a
  | .accepting a => some a
  | .resting a _ => some a
  | _ => none

def isEarly : Phase → Bool
  | .waiting => true
  | .binding => true
  | .locating => true
  | _ => false

def isLoop : Phase → Bool
  | .accepting _ => true
  | .resting _ _ => true
  | _ => false

end Phase

namespace Tenure

def Turn.failure? : Turn → Option NetworkFailure
  | .meets _ (.bindFailed e) => some e
  | .meets _ (.locateFailed e) => some (.bind e)
  | _ => none

def Turn.begins : Turn → Bool
  | .meets _ .begun => true
  | _ => false

def Turn.opens : Turn → Bool
  | .meets _ .opened => true
  | _ => false

def Sight.state? : Sight → Option ServerState
  | .saw state _ => some state
  | _ => none

def Sight.report? : Sight → Option (Failure × Category)
  | .did (.reported error category) => some (error, category)
  | _ => none

def Sight.dispatches : Sight → Bool
  | .did (.asked _) => true
  | .did (.admitted _) => true
  | _ => false

def Sight.Unbound : Sight → Prop
  | .saw state address => state ≠ .bound ∧ state ≠ .accepting ∧ address = none
  | _ => True

def states (log : List Sight) : List ServerState := .created :: log.filterMap Sight.state?

def reports (log : List Sight) : List (Failure × Category) := log.filterMap Sight.report?

inductive Fit : Server → Phase → Prop where
  | on {s : Server} {phase : Phase} (on : phase ≠ .ended)
    (state : s.state = phase.due ∨ s.state = .stopping)
    (address : s.localAddress = phase.address?) : Fit s phase
  | stopped {s : Server} (state : s.state = .stopped) : Fit s .ended
  | unbegun {s : Server} (state : s.state = .created ∨ s.state = .stopping)
    (address : s.localAddress = none) : Fit s .ended

structure Begun (s : Server) (phase : Phase) : Prop where
  on : phase ≠ .waiting
  ended : phase = .ended → s.state = .stopped

structure Tried (turns : List Turn) (t : Tenure) (log : List Sight) : Prop where
  early : t.phase.isEarly = true → (∀ turn ∈ turns, turn.failure? = none) ∧
    reports log = [] ∧ ∀ sight ∈ log, sight.Unbound
  failed : ∀ turn ∈ turns, ∀ e, turn.failure? = some e → t.phase = .ended ∧ t.look.Unbound ∧
    reports log = [(.network e, .proxyServer)] ∧ ∀ sight ∈ log, sight.Unbound

section
variable {setup : Setup} {turns : List Turn} {turn : Turn} {t u : Tenure} {said log : List Sight}
  {s q : Server} {phase next : Phase} {e : Event} {acts : List Action}

theorem retreat_state (s : Server) : s.retreat.state = .stopping ∨ s.retreat.state = s.state := by
  unfold retreat
  by_cases hr : s.state.rank < ServerState.stopping.rank <;> simp [hr]

theorem retreat_stopped (h : s.state = .stopped) : s.retreat.state = .stopped := by
  simp [retreat, h, ServerState.rank]

theorem advance_state (h : s.state = phase.due ∨ s.state = .stopping)
    (hp : phase.due = .created ∨ phase.due = .bound) (goal : ServerState) :
    s.state = phase.due ∧ (s.advance goal).state = goal ∨
      s.state = .stopping ∧ (s.advance goal).state = .stopping := by
  unfold advance
  rcases h with hs | hs
  · rcases hp with hp | hp <;> simp [hs, hp]
  · simp [hs]

@[simp] theorem advance_address (s : Server) (next : ServerState) :
    (s.advance next).localAddress = s.localAddress := by
  unfold advance
  split <;> rfl

theorem start_fit : Fit start.server start.phase := .on (by simp [start]) (.inl rfl) rfl

theorem fit_on (h : Fit s phase) (hp : phase ≠ .ended) :
    (s.state = phase.due ∨ s.state = .stopping) ∧ s.localAddress = phase.address? := by
  cases h with
  | on _ state address => exact ⟨state, address⟩
  | stopped => exact absurd rfl hp
  | unbegun => exact absurd rfl hp

theorem locate_state (h : Fit s .locating) (a : SocketAddress) :
    s.state = .created ∧ ((s.locate a).advance .bound).state = .bound ∨
      s.state = .stopping ∧ ((s.locate a).advance .bound).state = .stopping := by
  have hstate : (s.locate a).state = Phase.locating.due ∨ (s.locate a).state = .stopping :=
    (fit_on h (by simp)).1
  exact advance_state hstate (.inl rfl) .bound

theorem open_state {a : SocketAddress} (h : Fit s (.opening a)) :
    s.state = .bound ∧ (s.advance .accepting).state = .accepting ∨
      s.state = .stopping ∧ (s.advance .accepting).state = .stopping :=
  advance_state (fit_on h (by simp)).1 (.inr rfl) .accepting

theorem move_fit (h : Fit s phase) (m : Move s phase e q next acts) : Fit q next := by
  have hon := fit_on h
  cases m with
  | begins => exact .on (by simp) (hon (by simp)).1 (hon (by simp)).2
  | bound => exact .on (by simp) (hon (by simp)).1 (hon (by simp)).2
  | unbegun => exact .unbegun (hon (by simp)).1 (hon (by simp)).2
  | locates a line =>
    have hnone : s.localAddress = none := (hon (by simp)).2
    exact .on (by simp) ((locate_state h a).imp And.right And.right)
      (by simp [locate, hnone, Phase.address?])
  | opens a =>
    have haddress : s.localAddress = some a := (hon (by simp)).2
    exact .on (by simp) ((open_state h).imp And.right And.right) (by simpa)
  | accepts a c v down => exact h
  | rests a e resume down => exact .on (by simp) (hon (by simp)).1 (hon (by simp)).2
  | wakes a resume => exact .on (by simp) (hon (by simp)).1 (hon (by simp)).2
  | _ => exact .stopped rfl

theorem raise_fit (h : Fit s phase) : Fit s.raise phase := by
  cases h with
  | on on state address => exact .on on state address
  | stopped state => exact .stopped state
  | unbegun state address => exact .unbegun state address

theorem retreat_fit (h : Fit s phase) : Fit s.retreat phase := by
  have hretreat := retreat_state s
  cases h with
  | on on state address =>
    refine .on on ?_ address
    rcases hretreat with hs | hs
    · exact .inr hs
    · rwa [hs]
  | stopped state => exact .stopped (retreat_stopped state)
  | unbegun state address =>
    refine .unbegun ?_ address
    rcases hretreat with hs | hs
    · exact .inr hs
    · rwa [hs]

theorem does_fit (h : Fit t.server t.phase) (hd : Does t turn u said) :
    Fit u.server u.phase := by
  cases hd with
  | meets move => exact move_fit h move
  | raises => exact raise_fit h
  | retreats up => exact retreat_fit h

theorem rank_le (state : ServerState) : state.rank ≤ ServerState.stopped.rank := by
  cases state <;> decide

theorem move_rank (h : Fit s phase) (m : Move s phase e q next acts) :
    s.state.rank ≤ q.state.rank := by
  cases m with
  | locates a line =>
    rcases locate_state h a with ⟨hs, hq⟩ | ⟨hs, hq⟩ <;> simp [hs, hq, ServerState.rank]
  | opens a => rcases open_state h with ⟨hs, hq⟩ | ⟨hs, hq⟩ <;> simp [hs, hq, ServerState.rank]
  | begins => exact Nat.le_refl _
  | unbegun => exact Nat.le_refl _
  | bound => exact Nat.le_refl _
  | accepts a c v down => exact Nat.le_refl _
  | rests a e resume down => exact Nat.le_refl _
  | wakes a resume => exact Nat.le_refl _
  | _ => exact rank_le _

theorem retreat_rank (s : Server) : s.state.rank ≤ s.retreat.state.rank := by
  unfold retreat
  by_cases hr : s.state.rank < ServerState.stopping.rank
  · simpa [hr] using Nat.le_of_lt hr
  · simp [hr]

theorem does_rank (h : Fit t.server t.phase) (hd : Does t turn u said) :
    t.server.state.rank ≤ u.server.state.rank := by
  cases hd with
  | meets move => exact move_rank h move
  | raises => exact Nat.le_refl _
  | retreats up => exact retreat_rank _

theorem states_append (log said : List Sight) :
    states (log ++ said) = states log ++ said.filterMap Sight.state? := by
  simp [states]

theorem state_did (acts : List Action) : (acts.map Sight.did).filterMap Sight.state? = [] := by
  simp [List.filterMap_map, Function.comp_def, Sight.state?]

theorem does_states (hd : Does t turn u said) : said.filterMap Sight.state? = [u.server.state] := by
  cases hd with
  | meets move => rw [List.filterMap_append, state_did]; rfl
  | raises => rfl
  | retreats up => rfl

theorem run_states (h : runAll (step setup) turns start = some (t, log)) :
    (∀ v ∈ states log, v.rank ≤ t.server.state.rank) ∧
      (states log).Pairwise (·.rank ≤ ·.rank) := by
  suffices hall : Fit t.server t.phase ∧ (∀ v ∈ states log, v.rank ≤ t.server.state.rank) ∧
      (states log).Pairwise (·.rank ≤ ·.rank) from hall.2
  refine run_invariant (P := fun _ t log => Fit t.server t.phase ∧
    (∀ v ∈ states log, v.rank ≤ t.server.state.rank) ∧ (states log).Pairwise (·.rank ≤ ·.rank))
    ?_ ⟨start_fit, by simp [states, start, fresh], by simp [states]⟩ h
  rintro - t log turn u said ⟨hf, hle, hsorted⟩ hs
  have hd := step_does hs
  have hrank := does_rank hf hd
  rw [states_append, does_states hd]
  refine ⟨does_fit hf hd, fun v hv => ?_, ?_⟩
  · rcases List.mem_append.mp hv with hv | hv
    · exact Nat.le_trans (hle v hv) hrank
    · rw [List.mem_singleton.mp hv]
  · refine List.pairwise_append.mpr ⟨hsorted, by simp, fun v hv w hw => ?_⟩
    rw [List.mem_singleton.mp hw]
    exact Nat.le_trans (hle v hv) hrank

theorem rank_injective {v w : ServerState} (h : v.rank = w.rank) : v = w := by
  cases v <;> cases w <;> first | rfl | cases h

theorem strictly_increasing {vs : List ServerState} (hne : vs.IsChain (· ≠ ·))
    (h : vs.Pairwise (·.rank ≤ ·.rank)) : vs.Pairwise (·.rank < ·.rank) := by
  induction vs with
  | nil => exact .nil
  | cons v vs ih =>
    obtain ⟨hv, hvs⟩ := List.pairwise_cons.mp h
    cases vs with
    | nil => simp
    | cons w vs =>
      obtain ⟨hvw, hchain⟩ := List.isChain_cons_cons.mp hne
      have hstrict := ih hchain hvs
      have hlt : v.rank < w.rank :=
        Nat.lt_of_le_of_ne (hv w List.mem_cons_self) fun he => hvw (rank_injective he)
      refine List.pairwise_cons.mpr ⟨fun u hu => ?_, hstrict⟩
      rcases List.mem_cons.mp hu with rfl | hu
      · exact hlt
      · exact Nat.lt_trans hlt ((List.pairwise_cons.mp hstrict).1 u hu)

theorem move_begun (h : phase ≠ .waiting ∨ e = .begun) (m : Move s phase e q next acts) :
    Begun q next := by
  cases m with
  | unbegun => simp at h
  | begins => exact ⟨by simp, by simp⟩
  | bound => exact ⟨by simp, by simp⟩
  | locates => exact ⟨by simp, by simp⟩
  | opens => exact ⟨by simp, by simp⟩
  | accepts => exact ⟨by simp, by simp⟩
  | rests => exact ⟨by simp, by simp⟩
  | wakes => exact ⟨by simp, by simp⟩
  | _ => exact ⟨by simp, fun _ => rfl⟩

theorem run_begun (h : runAll (step setup) turns start = some (t, log))
    (hb : ∃ turn ∈ turns, turn.begins = true) : Begun t.server t.phase := by
  refine run_invariant (P := fun turns t _ => (∃ turn ∈ turns, turn.begins = true) →
    Begun t.server t.phase) ?_ (by simp) h hb
  rintro turns t _ turn u _ hbegun hs ⟨first, hmem, hfirst⟩
  have hturn : (∃ turn ∈ turns, turn.begins = true) ∨ turn.begins = true := by
    rcases List.mem_append.mp hmem with hm | hm
    · exact .inl ⟨first, hm, hfirst⟩
    · exact .inr (List.mem_singleton.mp hm ▸ hfirst)
  cases step_does hs with
  | @meets now e _ _ move =>
    refine move_begun (hturn.imp (fun hold => (hbegun hold).on) fun hb => ?_) move
    cases e <;> first | rfl | cases hb
  | raises =>
    obtain ⟨hon, hended⟩ := hbegun (hturn.resolve_right (by simp [Turn.begins]))
    exact ⟨hon, hended⟩
  | retreats up =>
    obtain ⟨hon, hended⟩ := hbegun (hturn.resolve_right (by simp [Turn.begins]))
    exact ⟨hon, fun hp => retreat_stopped (hended hp)⟩

theorem fit_accepting (h : Fit s phase) (ha : s.state = .accepting) : s.localAddress ≠ none := by
  cases h with
  | on on state address =>
    rw [ha] at state
    rw [address]
    cases phase <;> simp [Phase.due, Phase.address?] at state ⊢
  | stopped state =>
    rw [ha] at state
    cases state
  | unbegun state =>
    rw [ha] at state
    simp at state

theorem fit_early (h : Fit s phase) (he : phase.isEarly = true) :
    (look ⟨s, phase⟩).Unbound ∧ s.localAddress = none := by
  have hp : phase ≠ .ended := by
    rintro rfl
    cases he
  obtain ⟨hstate, haddress⟩ := fit_on h hp
  cases phase <;> simp_all [Phase.isEarly, Phase.due, Phase.address?, look, Sight.Unbound]
  all_goals rcases hstate with hs | hs <;> simp [hs]

theorem does_saw (hd : Does t turn u said) {state : ServerState} {address : Option SocketAddress}
    (hm : .saw state address ∈ said) : .saw state address = u.look := by
  cases hd with
  | meets move => simpa using hm
  | raises => simpa using hm
  | retreats up => simpa using hm

theorem run_accepting (h : runAll (step setup) turns start = some (t, log)) :
    ∀ address, .saw .accepting address ∈ log → address ≠ none := by
  suffices hall : Fit t.server t.phase ∧ ∀ address, .saw .accepting address ∈ log →
      address ≠ none from hall.2
  refine run_invariant (P := fun _ t log => Fit t.server t.phase ∧
    ∀ address, .saw .accepting address ∈ log → address ≠ none) ?_ ⟨start_fit, by simp⟩ h
  rintro - t log turn u said ⟨hf, hlog⟩ hs
  have hu := does_fit hf (step_does hs)
  refine ⟨hu, fun address hm => ?_⟩
  rcases List.mem_append.mp hm with hm | hm
  · exact hlog address hm
  · obtain ⟨hstate, rfl⟩ := Sight.saw.inj (does_saw (step_does hs) hm)
    exact fit_accepting hu hstate.symm

theorem reports_append (log said : List Sight) :
    reports (log ++ said) = reports log ++ reports said := List.filterMap_append

theorem move_failure (now : Nat) (m : Move s phase e q next acts) : phase ≠ .ended ∧
    ∀ failure, (Turn.meets now e).failure? = some failure → phase.isEarly = true ∧
      next = .ended ∧ q = s.leave ∧
      reports (acts.map .did) = [(.network failure, .proxyServer)] := by
  cases m with
  | bindFails error line =>
    refine ⟨by simp, fun failure hf => ?_⟩
    cases hf
    exact ⟨rfl, rfl, rfl, rfl⟩
  | locateFails error =>
    refine ⟨by simp, fun failure hf => ?_⟩
    cases hf
    exact ⟨rfl, rfl, rfl, rfl⟩
  | stops a e up first last why =>
    refine ⟨by simp, fun failure hf => ?_⟩
    rcases why with rfl | ⟨error, rfl⟩ <;> cases hf
  | dropped begun on => exact ⟨on, fun failure hf => by cases hf⟩
  | _ => exact ⟨by simp, fun failure hf => by cases hf⟩

theorem move_early (now : Nat) (m : Move s phase e q next acts) (hn : next.isEarly = true) :
    phase.isEarly = true ∧ (Turn.meets now e).failure? = none ∧ acts = [] := by
  cases m with
  | begins => exact ⟨rfl, rfl, rfl⟩
  | bound => exact ⟨rfl, rfl, rfl⟩
  | _ => cases hn

theorem unbound_did (acts : List Action) : ∀ sight ∈ acts.map Sight.did, sight.Unbound := by
  intro sight hm
  obtain ⟨a, -, rfl⟩ := List.mem_map.mp hm
  trivial

theorem retreat_unbound (h : (look ⟨s, phase⟩).Unbound) : (look ⟨s.retreat, phase⟩).Unbound := by
  obtain ⟨hbound, haccepting, hnone⟩ := h
  rcases retreat_state s with hs | hs
  · exact ⟨by simp [hs], by simp [hs], hnone⟩
  · exact ⟨by rwa [hs], by rwa [hs], hnone⟩

/-- A half of a stop: the run stands where it stood. -/
theorem stopped_tried {v : Server} (h : Tried turns t log) (hf : Fit v t.phase)
    (hl : t.look.Unbound → (look ⟨v, t.phase⟩).Unbound) (hn : turn.failure? = none) :
    Tried (turns ++ [turn]) ⟨v, t.phase⟩ (log ++ [look ⟨v, t.phase⟩]) := by
  constructor
  · intro he
    obtain ⟨hnone, hreports, hlog⟩ := h.early he
    refine ⟨?_, by rw [reports_append, hreports]; rfl, ?_⟩
    · exact List.forall_mem_append.mpr ⟨hnone, by simpa using hn⟩
    · exact List.forall_mem_append.mpr ⟨hlog, by simpa using (fit_early hf he).1⟩
  · intro first hm failure hfirst
    have hold : first ∈ turns := by
      rcases List.mem_append.mp hm with hm | hm
      · exact hm
      · rw [List.mem_singleton.mp hm, hn] at hfirst
        cases hfirst
    obtain ⟨hp, hlook, hreports, hlog⟩ := h.failed first hold failure hfirst
    refine ⟨hp, hl hlook, by rw [reports_append, hreports]; rfl, ?_⟩
    exact List.forall_mem_append.mpr ⟨hlog, by simpa using hl hlook⟩

theorem met_tried {now : Nat} (h : Tried turns t log) (hf : Fit t.server t.phase)
    (m : Move t.server t.phase e u.server u.phase acts) :
    Tried (turns ++ [.meets now e]) u (log ++ (acts.map .did ++ [u.look])) := by
  have hu := move_fit hf m
  obtain ⟨hon, hfails⟩ := move_failure now m
  -- a run that has failed has ended, and meets nothing more
  have hnone : ∀ turn ∈ turns, turn.failure? = none := by
    intro turn hm
    cases hfirst : turn.failure? with
    | none => rfl
    | some failure => exact absurd (h.failed turn hm failure hfirst).1 hon
  constructor
  · intro he
    obtain ⟨hearly, hn, rfl⟩ := move_early now m he
    obtain ⟨-, hreports, hlog⟩ := h.early hearly
    refine ⟨?_, by rw [reports_append, hreports]; rfl, ?_⟩
    · exact List.forall_mem_append.mpr ⟨hnone, by simpa using hn⟩
    · exact List.forall_mem_append.mpr ⟨hlog, by simpa using (fit_early hu he).1⟩
  · intro first hm failure hfirst
    have hlast : first = .meets now e := by
      rcases List.mem_append.mp hm with hm | hm
      · rw [hnone first hm] at hfirst
        cases hfirst
      · exact List.mem_singleton.mp hm
    rw [hlast] at hfirst
    obtain ⟨hearly, hended, hq, hreports⟩ := hfails failure hfirst
    obtain ⟨-, hnothing, hlog⟩ := h.early hearly
    have hlook : u.look.Unbound := by
      have haddress := (fit_early hf hearly).2
      simp [look, hq, Sight.Unbound, leave, haddress]
    refine ⟨hended, hlook, ?_, ?_⟩
    · rw [reports_append, reports_append, hnothing, hreports]
      rfl
    · exact List.forall_mem_append.mpr ⟨hlog,
        List.forall_mem_append.mpr ⟨unbound_did acts, by simpa using hlook⟩⟩

theorem run_tried (h : runAll (step setup) turns start = some (t, log)) : Tried turns t log := by
  suffices hall : Fit t.server t.phase ∧ Tried turns t log from hall.2
  refine run_invariant (P := fun turns t log => Fit t.server t.phase ∧ Tried turns t log)
    ?_ ⟨start_fit, ⟨fun _ => ⟨by simp, rfl, by simp⟩, by simp⟩⟩ h
  rintro turns t log turn u said ⟨hf, htried⟩ hs
  have hd := step_does hs
  refine ⟨does_fit hf hd, ?_⟩
  cases hd with
  | meets move => exact met_tried htried hf move
  | raises => exact stopped_tried htried (raise_fit hf) id rfl
  | retreats up => exact stopped_tried htried (retreat_fit hf) retreat_unbound rfl

theorem move_flag (m : Move s phase e q next acts) : q.stopRequested = s.stopRequested := by
  have hadvance (s : Server) (goal : ServerState) :
      (s.advance goal).stopRequested = s.stopRequested := by
    unfold advance
    split <;> rfl
  cases m with
  | locates a line => exact hadvance _ _
  | opens a => exact hadvance _ _
  | _ => rfl

theorem move_dispatches (m : Move s phase e q next acts)
    (h : phase.isLoop = false ∨ s.stopRequested = true) :
    ∀ sight ∈ acts.map Sight.did, sight.dispatches = false := by
  cases m with
  | accepts a c v down =>
    rw [down] at h
    rcases h with h | h <;> cases h
  | _ => simp [Sight.dispatches]

theorem does_dispatches (hd : Does t turn u said)
    (h : t.phase.isLoop = false ∨ t.server.stopRequested = true) :
    ∀ sight ∈ said, sight.dispatches = false := by
  have hlook : ∀ v : Tenure, ∀ sight ∈ [v.look], sight.dispatches = false := by
    simp [look, Sight.dispatches]
  cases hd with
  | meets move => exact List.forall_mem_append.mpr ⟨move_dispatches move h, hlook u⟩
  | raises => exact hlook _
  | retreats up => exact hlook _

theorem move_loop (now : Nat) (m : Move s phase e q next acts) (h : phase.isLoop = false)
    (ho : (Turn.meets now e).opens = false) : next.isLoop = false := by
  cases m with
  | opens a => cases ho
  | accepts => exact h
  | rests => exact h
  | wakes => exact h
  | _ => rfl

/-- Before the accept loop is entered no client is dispatched. -/
theorem run_unopened (h : runAll (step setup) turns start = some (t, log))
    (ho : ∀ turn ∈ turns, turn.opens = false) : ∀ sight ∈ log, sight.dispatches = false := by
  refine (run_invariant (P := fun turns t log => (∀ turn ∈ turns, turn.opens = false) →
    t.phase.isLoop = false ∧ ∀ sight ∈ log, sight.dispatches = false) ?_
    (fun _ => ⟨rfl, by simp⟩) h ho).2
  rintro turns t log turn u said hbefore hs ho
  obtain ⟨hturns, hturn⟩ := List.forall_mem_append.mp ho
  obtain ⟨hloop, hlog⟩ := hbefore hturns
  have hlast : turn.opens = false := hturn turn List.mem_cons_self
  have hd := step_does hs
  refine ⟨?_, List.forall_mem_append.mpr ⟨hlog, does_dispatches hd (.inl hloop)⟩⟩
  cases hd with
  | meets move => exact move_loop _ move hloop hlast
  | raises => exact hloop
  | retreats up => exact hloop

theorem run_raised (h : runAll (step setup) turns t = some (u, log))
    (hr : t.server.stopRequested = true) : ∀ sight ∈ log, sight.dispatches = false := by
  refine (run_invariant (P := fun _ u log => u.server.stopRequested = true ∧
    ∀ sight ∈ log, sight.dispatches = false) ?_ ⟨hr, by simp⟩ h).2
  rintro - t log turn u said ⟨hflag, hlog⟩ hs
  have hd := step_does hs
  refine ⟨?_, List.forall_mem_append.mpr ⟨hlog, does_dispatches hd (.inr hflag)⟩⟩
  cases hd with
  | meets move => exact (move_flag move).trans hflag
  | raises => rfl
  | retreats up => exact hflag

theorem dropped_step (hp : t.phase ≠ .waiting) (hon : t.phase ≠ .ended) (now : Nat) :
    step setup t (.meets now .dropped) =
      some (⟨t.server.leave, .ended⟩, [look ⟨t.server.leave, .ended⟩]) := by
  have hs : t.server.step setup now t.phase .dropped = some (t.server.leave, .ended, []) := by
    unfold Server.step
    generalize t.phase = phase at hp hon
    cases phase <;> first | rfl | contradiction
  rw [step, hs]
  rfl

end

/-- Whenever a server is asked to stop in its one run, and whatever becomes of its attempt to
listen: the states seen one after another strictly increase. A run that has begun ends with a
server that is stopped, and it can be given up at any time. A server that is seen accepting has
an address. If the run cannot listen, the server is never seen bound or accepting or with an
address, and the reason is all that is reported. If the flag was raised before the accept
loop was entered, no client is dispatched. -/
theorem only_forward (setup : Setup) (turns : List Turn) (t : Tenure) (log : List Sight)
    (h : runAll (step setup) turns start = some (t, log)) :
    ((states log).destutter (· ≠ ·)).Pairwise (·.rank < ·.rank) ∧
    ((∃ turn ∈ turns, turn.begins = true) →
      (t.phase = .ended → t.server.state = .stopped) ∧
      (t.phase ≠ .ended → ∀ now, ∃ u said, step setup t (.meets now .dropped) = some (u, said) ∧
        u.phase = .ended ∧ u.server.state = .stopped)) ∧
    (∀ address, .saw .accepting address ∈ log → address ≠ none) ∧
    (∀ turn ∈ turns, ∀ e, turn.failure? = some e → t.phase = .ended ∧ t.look.Unbound ∧
      reports log = [(.network e, .proxyServer)] ∧ ∀ sight ∈ log, sight.Unbound) ∧
    (∀ before after, turns = before ++ .raise :: after →
      (∀ turn ∈ before, turn.opens = false) → ∀ sight ∈ log, sight.dispatches = false) := by
  refine ⟨?_, ?_, run_accepting h, (run_tried h).failed, ?_⟩
  · have hsorted := (run_states h).2
    exact strictly_increasing ((states log).isChain_destutter _)
      (hsorted.sublist ((states log).destutter_sublist _))
  · intro hb
    obtain ⟨hp, hended⟩ := run_begun h hb
    exact ⟨hended, fun hon now => ⟨_, _, dropped_step hp hon now, rfl, rfl⟩⟩
  · rintro before after rfl ho
    -- Until the flag is raised the loop was not entered, and from then on nobody is dispatched.
    obtain ⟨m, first, later, hfirst, hlater, rfl⟩ := run_split h
    obtain ⟨n, said, rest, hraise, hrest, rfl⟩ := run_cons hlater
    cases hraise
    refine List.forall_mem_append.mpr ⟨run_unopened hfirst ho, ?_⟩
    exact List.forall_mem_append.mpr ⟨by simp [look, Sight.dispatches], run_raised hrest rfl⟩

def racingTurns : List Turn := [.meets 0 .begun, .raise, .meets 0 .bound,
  .meets 0 (.located default), .meets 0 .opened, .retreat, .meets 1 .stopSeen, .raise, .retreat]

theorem only_forward_racing : ∃ t log,
    runAll (step ⟨"127.0.0.1", 8080, "example.org", 80⟩) racingTurns start = some (t, log) ∧
    (states log).destutter (· ≠ ·) = [.created, .bound, .accepting, .stopping, .stopped] ∧
    ((states log).destutter (· ≠ ·)).Pairwise (·.rank < ·.rank) ∧
    t.server.state = .stopped ∧ ∀ sight ∈ log, sight.dispatches = false := by
  refine ⟨_, _, rfl, by decide, ?_⟩
  obtain ⟨hstates, hbegun, -, -, hraised⟩ :=
    only_forward ⟨"127.0.0.1", 8080, "example.org", 80⟩ racingTurns _ _ rfl
  refine ⟨hstates, (hbegun ⟨.meets 0 .begun, by simp [racingTurns], rfl⟩).1 rfl, ?_⟩
  exact hraised [.meets 0 .begun] _ rfl (by simp [Turn.opens])

end Tenure
end Wiretap.Server
