import Wiretap.Engine
import Wiretap.Proofs.Handler.Closing
import Wiretap.Proofs.Pool.Stages

/-! What one step can do to the handlers of an engine. A step is about one
handler at most, or makes one, and the stage of each task follows the phase of
its handler. -/

set_option autoImplicit false

namespace Wiretap

def Handler.Phase.stage : Handler.Phase → Stage
  | .waiting => .pending
  | .gone => .finished
  | _ => .running

def Server.Action.isPlain : Server.Action → Bool
  | .asked _ => false
  | .admitted _ => false
  | _ => true

namespace Engine

inductive Mark where
  | asked (client : Client)
  | handler (task : Nat) (action : Handler.Action)

def Action.mark? : Action → Option Mark
  | .server (.asked c) => some (.asked c)
  | .handler i a => some (.handler i a)
  | _ => none

def marks (acts : List Action) : List Mark := acts.filterMap Action.mark?

def Step.accepted? : Step → Option Client
  | .run (.accepted c _) => some c
  | _ => none

structure Alike (e f : Engine) : Prop where
  setup : f.setup = e.setup
  clients : f.clients = e.clients
  handlers : f.handlers = e.handlers

def Joins (e f : Engine) (c : Client) (said : List Mark) : Prop :=
  ∃ events phase done,
    runAll (Handler.stepAt (e.handlerSetup c)) events .waiting = some (phase, done) ∧
      f.setup = e.setup ∧ f.clients = e.clients ++ [c] ∧ f.handlers = e.handlers ++ [phase] ∧
      said = done.map (.handler e.handlers.length)

inductive Move (e : Engine) : Step → Engine → List Mark → Prop where
  | idle {step : Step} {f : Engine} (same : Alike e f) : Move e step f []
  | asked {step : Step} {f : Engine} {c : Client} (heard : step.accepted? = some c)
    (same : Alike e f) : Move e step f [.asked c]
  | task {step : Step} {f : Engine} {i now : Nat} {c : Client} {phase next : Handler.Phase}
    {event : Handler.Event} {done : List Handler.Action} (client : e.clients[i]? = some c)
    (here : e.handlers[i]? = some phase)
    (moved : Handler.step (e.handlerSetup c) now phase event = some (next, done))
    (setup : f.setup = e.setup) (clients : f.clients = e.clients)
    (handlers : f.handlers = e.handlers.set i next) :
    Move e step f (done.map (.handler i))
  | made {step : Step} {f : Engine} {c : Client} {ask said : List Mark}
    (heard : step.accepted? = some c) (before : ask = [] ∨ ask = [.asked c])
    (joins : Joins e f c said) : Move e step f (ask ++ said)

/-- Each handler has its client, and a task whose stage is the handler's. -/
structure Paired (e : Engine) : Prop where
  orderly : e.pool.Orderly
  stages : e.pool.stages = e.handlers.map Handler.Phase.stage
  clients : e.clients.length = e.handlers.length

def Lawful (e : Engine) (step : Step) (outcome : Engine × List Action) : Prop :=
  Move e step outcome.1 (marks outcome.2) ∧ Paired outcome.1

section
variable {e f : Engine} {now i : Nat} {acts : List Action} {c : Client}

@[simp] theorem marks_append (xs ys : List Action) : marks (xs ++ ys) = marks xs ++ marks ys :=
  List.filterMap_append

@[simp] theorem marks_handler (i : Nat) (done : List Handler.Action) :
    marks (done.map (.handler i)) = done.map (.handler i) := by
  rw [marks, List.filterMap_map]
  exact List.filterMap_eq_map.symm ▸ rfl

theorem marks_plain {said : List Server.Action} (h : ∀ a ∈ said, a.isPlain = true) :
    marks (said.map .server) = [] := by
  rw [marks, List.filterMap_eq_nil_iff]
  intro b hb
  obtain ⟨a, ha, rfl⟩ := List.mem_map.mp hb
  cases a with
  | asked c => cases h _ ha
  | _ => rfl

theorem accept_plain {s s' : Server} {bound : SocketAddress} {phase : Server.Phase}
    {event : Server.Event} {said : List Server.Action}
    (h : s.acceptStep now bound event = some (s', phase, said)) :
    (∀ a ∈ said, a.isPlain = true) ∨ ∃ c v, event = .accepted c v ∧ said = Server.dispatch c v := by
  cases event with
  | accepted c v =>
    simp only [Server.acceptStep, Option.ite_none_left_eq_some] at h
    obtain ⟨-, h⟩ := h
    cases h
    exact .inr ⟨c, v, rfl, rfl⟩
  | stopSeen =>
    simp only [Server.acceptStep, Option.ite_none_right_eq_some] at h
    obtain ⟨-, h⟩ := h
    cases h
    exact .inl (by simp [Server.note, Server.Action.isPlain])
  | acceptFailed error =>
    simp only [Server.acceptStep] at h
    split at h <;> cases h <;> exact .inl (by simp [Server.note, Server.Action.isPlain])
  | _ => cases h

/-- A run of the server asks about a client, or hands one on, only when it has accepted it. -/
theorem server_plain {setup : Server.Setup} {s s' : Server} {phase phase' : Server.Phase}
    {event : Server.Event} {said : List Server.Action}
    (h : s.step setup now phase event = some (s', phase', said)) :
    (∀ a ∈ said, a.isPlain = true) ∨ ∃ c v, event = .accepted c v ∧ said = Server.dispatch c v := by
  unfold Server.step at h
  split at h
  case h_1 => split at h <;> cases h <;> exact .inl (by simp [Server.note, Server.Action.isPlain])
  case h_8 =>
    simp only [Option.ite_none_right_eq_some] at h
    obtain ⟨-, h⟩ := h
    cases h
    exact .inl (by simp)
  case h_9 => cases h
  case h_11 => exact accept_plain h
  case h_12 => cases h
  all_goals
    cases h
    exact .inl (by simp [Server.note, Server.Action.isPlain])

theorem follow_plain {said : List Server.Action} (h : ∀ a ∈ said, a.isPlain = true) :
    e.follow said = (e, said.map .server) := by
  induction said with
  | nil => rfl
  | cons a said ih =>
    have hrest := ih fun b hb => h b (List.mem_cons_of_mem _ hb)
    have ha := h a List.mem_cons_self
    cases a with
    | admitted c => cases ha
    | _ => simp [follow, hrest]

theorem handler_next {s : Handler.Setup} {phase next : Handler.Phase} {event : Handler.Event}
    {done : List Handler.Action} (h : Handler.step s now phase event = some (next, done)) :
    phase.stage ≠ .finished ∧ next.stage ≠ .pending := by
  have hm := Handler.move_of_step h
  have hsettle : ∀ a b torn, (Handler.settle s a b torn).1.stage ≠ .pending := by
    intro a b torn
    rcases Handler.settle_cases s a b torn with ⟨hs, -⟩ | ⟨hs, -⟩ <;>
      simp [hs, Handler.Phase.stage]
  cases hm with
  | refused why => cases why <;> decide
  | toTarget => exact ⟨by simp [Handler.Phase.stage], hsettle _ _ _⟩
  | toClient => exact ⟨by simp [Handler.Phase.stage], hsettle _ _ _⟩
  | reached => exact ⟨by decide, by simp [Handler.relay, Handler.Phase.stage]⟩
  | _ => decide

/-- What a step of a handler does to the engine. -/
theorem handlerStep_eq {event : Handler.Event}
    (h : e.handlerStep now i event = some (f, acts)) :
    ∃ c phase next done, e.clients[i]? = some c ∧ e.handlers[i]? = some phase ∧
      Handler.step (e.handlerSetup c) now phase event = some (next, done) ∧
      acts = done.map (.handler i) ∧ f.setup = e.setup ∧ f.clients = e.clients ∧
      f.handlers = e.handlers.set i next ∧
      f.pool = if next = .gone then (e.pool.finish i).getD e.pool else e.pool := by
  unfold handlerStep at h
  obtain ⟨c, hc, h⟩ := Option.bind_eq_some_iff.mp h
  obtain ⟨phase, hp, h⟩ := Option.bind_eq_some_iff.mp h
  obtain ⟨⟨next, done⟩, hs, h⟩ := Option.bind_eq_some_iff.mp h
  cases h
  refine ⟨c, phase, next, done, hc, hp, hs, rfl, ?_⟩
  cases next <;> exact ⟨rfl, rfl, rfl, rfl⟩

theorem submit_accepted (h : e.pool.submit.2 = true) (c : Client) :
    e.submit c = ({ e with
      pool := e.pool.submit.1, clients := e.clients ++ [c],
      handlers := e.handlers ++ [.waiting] }, []) := by
  simp [submit, h]

/-- A rejected handler is dropped at once. -/
theorem submit_rejected (h : e.pool.submit.2 = false) (c : Client) :
    e.submit c = ({ e with
      pool := e.pool.submit.1, clients := e.clients ++ [c],
      handlers := e.handlers ++ [.gone] },
      (.releasedClient :: (Handler.Notice.arm (e.handlerSetup c)).drop (e.handlerSetup c)).map
          (.handler e.handlers.length) ++
        [.server (Server.noteOn c .warn
          s!"connection from {c.peer.text} dropped: {SessionFailure.poolClosed.message}")]) := by
  have hset : (e.handlers ++ [Handler.Phase.waiting]).set e.handlers.length .gone =
      e.handlers ++ [.gone] := by simp
  simp only [submit, h, Bool.false_eq_true, if_false, setHandler, Handler.step, Option.getD_some,
    hset]
  rfl

theorem submit_joins (hp : Paired e) (c : Client) :
    Joins e (e.submit c).1 c (marks (e.submit c).2) ∧ Paired (e.submit c).1 := by
  have horderly := Pool.submit_orderly hp.orderly
  have hstages := Pool.submit_stages e.pool
  rw [hp.stages] at hstages
  cases h : e.pool.submit.2 with
  | true =>
    rw [submit_accepted h c]
    refine ⟨⟨[], .waiting, [], rfl, rfl, rfl, rfl, rfl⟩, horderly, ?_, by simp [hp.clients]⟩
    rw [hstages, h, List.map_append]
    rfl
  | false =>
    rw [submit_rejected h c]
    have hrun : runAll (Handler.stepAt (e.handlerSetup c)) [(0, .dropped)] .waiting =
        some (.gone, .releasedClient ::
          (Handler.Notice.arm (e.handlerSetup c)).drop (e.handlerSetup c)) := by
      simp [runAll, Handler.stepAt, Handler.step]
    refine ⟨⟨_, _, _, hrun, rfl, rfl, rfl, ?_⟩, horderly, ?_, by simp [hp.clients]⟩
    · rw [marks_append, marks_handler]
      exact List.append_nil _
    · rw [hstages, h, List.map_append]
      rfl

/-- A client that is turned away leaves the handlers alone. -/
theorem follow_refused {step : Step} {said : List Server.Action} (hp : Paired e)
    (heard : step.accepted? = some c) (h : ∀ a ∈ said, a.isPlain = true) :
    Lawful e step (e.follow (.asked c :: said)) := by
  have hsaid : marks ([.server (.asked c)] ++ said.map .server) = [.asked c] := by
    rw [marks_append, marks_plain h]
    rfl
  simp only [follow, follow_plain h]
  refine ⟨?_, hp⟩
  rw [hsaid]
  exact .asked heard ⟨rfl, rfl, rfl⟩

theorem follow_admitted {step : Step} {ask : List Server.Action} (hp : Paired e)
    (heard : step.accepted? = some c) (h : ask = [] ∨ ask = [.asked c]) :
    Lawful e step (e.follow (ask ++ [.admitted c])) := by
  obtain ⟨hjoins, hpaired⟩ := submit_joins hp c
  rcases h with rfl | rfl
  · simp only [List.nil_append, follow, List.append_nil]
    exact ⟨.made heard (.inl rfl) hjoins, hpaired⟩
  · simp only [List.singleton_append, follow, List.append_nil]
    exact ⟨.made heard (.inr rfl) hjoins, hpaired⟩

/-- What comes of a client that is accepted. -/
theorem dispatch_lawful {step : Step} (hp : Paired e) (v : Verdict)
    (heard : step.accepted? = some c) : Lawful e step (e.follow (Server.dispatch c v)) := by
  suffices hrest : ∀ level message said, Lawful e step (e.follow said) →
      Lawful e step (e.follow (Server.noteOn c level message :: said)) by
    unfold Server.dispatch
    refine hrest _ _ _ ?_
    cases v with
    | unasked => exact follow_admitted hp heard (.inl rfl)
    | admitted => exact follow_admitted hp heard (.inr rfl)
    | refused error =>
      exact follow_refused hp heard (by simp [Server.noteOn, Server.note, Server.Action.isPlain])
    | brokeOff complaint =>
      exact follow_refused hp heard (by simp [Server.noteOn, Server.note, Server.Action.isPlain])
  exact fun _ _ _ h => h

theorem stages_here {phase : Handler.Phase} (hp : Paired e) (h : e.handlers[i]? = some phase) :
    e.pool.stages[i]? = some phase.stage := by
  simp [hp.stages, h]

theorem stage_over {phase : Handler.Phase} : phase.stage = .finished ↔ phase = .gone := by
  cases phase <;> simp [Handler.Phase.stage]

theorem stage_pending {phase : Handler.Phase} : phase.stage = .pending ↔ phase = .waiting := by
  cases phase <;> simp [Handler.Phase.stage]

/-- A handler is gone exactly when its task is over. -/
theorem paired_over {phase : Handler.Phase} (hp : Paired e)
    (hphase : e.handlers[i]? = some phase) :
    ∃ status, e.pool.status i = some status ∧ (status.isOver = true ↔ phase = .gone) := by
  have hstage := stages_here hp hphase
  rw [Pool.stages, List.getElem?_map] at hstage
  obtain ⟨status, hstatus, heq⟩ := Option.map_eq_some_iff.mp hstage
  exact ⟨status, hstatus, by rw [status.over_iff, heq, stage_over]⟩

theorem paired_set {next : Handler.Phase} (hp : Paired e) (ho : f.pool.Orderly)
    (hs : f.pool.stages = e.pool.stages.set i next.stage) (hc : f.clients = e.clients)
    (hh : f.handlers = e.handlers.set i next) : Paired f := by
  refine ⟨ho, ?_, ?_⟩
  · rw [hs, hh, hp.stages, List.map_set]
  · rw [hc, hh, List.length_set, hp.clients]

theorem set_same {α : Type} {xs : List α} {x : α} (h : xs[i]? = some x) : xs.set i x = xs := by
  obtain ⟨hi, rfl⟩ := List.getElem?_eq_some_iff.mp h
  exact List.set_getElem_self hi

/-- The step of a handler whose task runs. -/
theorem handler_lawful {step : Step} {event : Handler.Event} (hp : Paired e)
    (hrun : e.isRunningTask i = true) (h : e.handlerStep now i event = some (f, acts)) :
    Lawful e step (f, acts) := by
  obtain ⟨c, phase, next, done, hc, hphase, hs, rfl, hsetup, hclients, hhandlers, hpool⟩ :=
    handlerStep_eq h
  have hstatus : e.pool.status i = some .running := by simpa [isRunningTask] using hrun
  have hrunning : e.pool.stages[i]? = some .running := Pool.status_stage hstatus
  refine ⟨?_, ?_⟩
  · rw [marks_handler]
    exact .task hc hphase hs hsetup hclients hhandlers
  · by_cases hgone : next = .gone
    · subst hgone
      obtain ⟨q, hq⟩ := Pool.finish_running hstatus
      rw [if_pos rfl, hq] at hpool
      obtain ⟨ho, hstages⟩ := Pool.finish_stages hp.orderly hq
      exact paired_set hp (hpool ▸ ho) (hpool ▸ hstages) hclients hhandlers
    · rw [if_neg hgone] at hpool
      have hnext : next.stage = .running := by
        have hpending := (handler_next hs).2
        have hover := stage_over.not.mpr hgone
        cases hst : next.stage with
        | running => rfl
        | pending => exact absurd hst hpending
        | finished => exact absurd hst hover
      refine paired_set hp (hpool ▸ hp.orderly) ?_ hclients hhandlers
      rw [hpool, hnext, set_same hrunning]

/-- A task that is resumed lets its handler begin, or drop its client, or wait on. -/
theorem resume_lawful {step : Step} (hp : Paired e) (h : e.resume now i = some (f, acts)) :
    Lawful e step (f, acts) := by
  unfold resume at h
  obtain ⟨q, hq, h⟩ := Option.bind_eq_some_iff.mp h
  obtain ⟨ho, hpending, next, hnext, hstatus, hstages⟩ := Pool.resume_stages hp.orderly hq
  have hwaits : ∀ phase, e.handlers[i]? = some phase → phase = .waiting := fun phase hphase =>
    stage_pending.mp (Option.some.inj ((stages_here hp hphase).symm.trans hpending))
  simp only [hstatus] at h
  rcases hnext with rfl | rfl | rfl
  · obtain ⟨c, phase, next, done, hc, hphase, hs, rfl, hsetup, hclients, hhandlers, hpool⟩ :=
      handlerStep_eq h
    obtain rfl := hwaits phase hphase
    refine ⟨?_, ?_⟩
    · rw [marks_handler]
      exact .task hc hphase hs hsetup hclients hhandlers
    · cases hs
      exact paired_set hp (hpool ▸ ho) (hpool ▸ hstages) hclients hhandlers
  · obtain ⟨⟨g, done⟩, hg, h⟩ := Option.map_eq_some_iff.mp h
    cases h
    obtain ⟨c, phase, next, done, hc, hphase, hs, rfl, hsetup, hclients, hhandlers, hpool⟩ :=
      handlerStep_eq hg
    obtain rfl := hwaits phase hphase
    refine ⟨?_, ?_⟩
    · rw [show marks (.logged Pool.cancelledTask :: done.map (.handler i)) =
        done.map (.handler i) from marks_handler i done]
      exact .task hc hphase hs hsetup hclients hhandlers
    · cases hs
      have hover : q.finish i = none := by simp [Pool.finish, hstatus]
      rw [if_pos rfl, hover] at hpool
      exact paired_set hp (hpool ▸ ho) (hpool ▸ hstages) hclients hhandlers
  · cases h
    refine ⟨.idle ⟨rfl, rfl, rfl⟩, ho, ?_, hp.clients⟩
    show q.stages = _
    rw [hstages, ← hp.stages]
    exact set_same hpending

theorem idle_lawful {step : Step} (hp : Paired e) (same : Alike e f) (ho : f.pool.Orderly)
    (hs : f.pool.stages = e.pool.stages) (hm : marks acts = []) : Lawful e step (f, acts) := by
  refine ⟨?_, ho, ?_, ?_⟩
  · rw [hm]
    exact .idle same
  · rw [hs, same.handlers, hp.stages]
  · rw [same.clients, same.handlers, hp.clients]

/-- A move is about the handlers of an engine only. -/
theorem alike_move {g : Engine} {step : Step} {said : List Mark} (same : Alike e g)
    (m : Move g step f said) : Move e step f said := by
  obtain ⟨hs, hc, hh⟩ := same
  have hsetup : ∀ c, g.handlerSetup c = e.handlerSetup c := fun c => by
    simp only [handlerSetup, hs]
  cases m with
  | idle same => exact .idle ⟨same.setup.trans hs, same.clients.trans hc, same.handlers.trans hh⟩
  | asked heard same =>
    exact .asked heard ⟨same.setup.trans hs, same.clients.trans hc, same.handlers.trans hh⟩
  | task client here moved setup clients handlers =>
    exact .task (hc ▸ client) (hh ▸ here) (hsetup _ ▸ moved) (setup.trans hs)
      (clients.trans hc) (hh ▸ handlers)
  | made heard before joins =>
    obtain ⟨events, phase, done, hrun, setup, clients, handlers, rfl⟩ := joins
    refine .made heard before ⟨events, phase, done, hsetup _ ▸ hrun, setup.trans hs, ?_, ?_, ?_⟩
    · rw [clients, hc]
    · rw [handlers, hh]
    · rw [hh]

theorem runStep_lawful {event : Server.Event} (hp : Paired e)
    (h : e.runStep now event = some (f, acts)) : Lawful e (.run event) (f, acts) := by
  unfold runStep at h
  obtain ⟨⟨server, run, said⟩, hs, h⟩ := Option.map_eq_some_iff.mp h
  have hq : Paired { e with server, run } := ⟨hp.orderly, hp.stages, hp.clients⟩
  replace h : ({ e with server, run } : Engine).follow said = (f, acts) := h
  rcases server_plain hs with hplain | ⟨c, v, rfl, rfl⟩
  · rw [follow_plain hplain] at h
    cases h
    exact idle_lawful hp ⟨rfl, rfl, rfl⟩ hp.orderly rfl (marks_plain hplain)
  · have hlawful : Lawful { e with server, run } (.run (.accepted c v))
        (({ e with server, run } : Engine).follow (Server.dispatch c v)) :=
      dispatch_lawful hq v rfl
    have hsame : Alike e { e with server, run } := ⟨rfl, rfl, rfl⟩
    rw [h] at hlawful
    exact ⟨alike_move hsame hlawful.1, hlawful.2⟩

theorem make_paired {setup : Setup} {pool : Pool} {limit : Nat} (h : Pool.make limit = .ok pool) :
    Paired (make setup pool) := by
  unfold Pool.make at h
  split at h
  · cases h
    exact ⟨⟨fun i hi => (by cases hi), List.nodup_nil, fun _ => rfl⟩, rfl, rfl⟩
  · cases h

/-- Every step of an engine is one of the moves. -/
theorem step_lawful {step : Step} (hp : Paired e) (h : e.step now step = some (f, acts)) :
    Lawful e step (f, acts) := by
  have ho := hp.orderly
  cases step with
  | call =>
    simp only [Engine.step, Option.ite_none_right_eq_some] at h
    obtain ⟨-, h⟩ := h
    cases h
    exact idle_lawful hp ⟨rfl, rfl, rfl⟩ ho rfl rfl
  | run event => exact runStep_lawful hp h
  | resume i => exact resume_lawful hp h
  | handler i event =>
    simp only [Engine.step, Option.ite_none_right_eq_some] at h
    exact handler_lawful hp h.1 h.2
  | stop =>
    cases h
    exact idle_lawful hp ⟨rfl, rfl, rfl⟩ ho rfl rfl
  | stopAccepting =>
    cases h
    exact idle_lawful hp ⟨rfl, rfl, rfl⟩ ⟨ho.queued, ho.nodup, ho.closed⟩ rfl rfl
  | closePermits waited =>
    cases h
    refine idle_lawful hp ⟨rfl, rfl, rfl⟩ ⟨?_, List.nodup_nil, fun _ => rfl⟩ rfl rfl
    exact fun i hi => by cases hi
  | detach =>
    cases h
    exact idle_lawful hp ⟨rfl, rfl, rfl⟩ ⟨ho.queued, ho.nodup, ho.closed⟩ rfl rfl

end

end Engine
end Wiretap
