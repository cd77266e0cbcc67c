import Wiretap.Proofs.Service.Holding

/-! Starting and stopping sessions, however the calls overlap. What a call to stop
does between two of its waits is one step, a start is one step, and between them
the accept tasks and the handlers of all servers go on. A wait may be over at any
moment; whether in time is not decided here. -/

set_option autoImplicit false

namespace Wiretap

namespace Traffic

inductive Stage where
  | joining
  | draining
  | closing
  | returned
  deriving DecidableEq

structure Stop where
  session : Nat
  engine : Nat
  stage : Stage
  aborted : Bool

end Traffic

/-- A service with the calls to stop that were made so far; one that found no engine has
returned at once. -/
structure Traffic where
  service : Service
  stops : List (Option Traffic.Stop)

namespace Traffic

inductive Turn where
  | start (draw : Draw) (session : Session)
  | stop
  | own (engine : Nat) (step : Engine.Step)
  -- a call to stop goes on after a wait that was long enough or too long
  | resume (call : Nat) (late : Bool)
  | drop (call : Nat)

inductive Sight where
  | started
  | called (call : Nat)
  | returned (call : Nat)
  deriving DecidableEq

section
variable (t : Traffic) (time : Timestamp) (now : Nat)

def stop : Traffic × List Sight :=
  let n := t.stops.length
  match t.service.current with
  | none => ({ t with stops := t.stops ++ [none] }, [.called n, .returned n])
  | some i =>
    match t.service.release time now with
    | none => (⟨t.service.finishStop i, t.stops ++ [none]⟩, [.called n, .returned n])
    | some (k, service, _) => (⟨service, t.stops ++ [some ⟨i, k, .joining, false⟩]⟩, [.called n])

def carry (n : Nat) (s : Stop) (step : Engine.Step) : Option (Traffic × List Sight) :=
  (t.service.engineStep time now s.engine step).map fun (service, _) =>
    (⟨service, t.stops.set n (some s)⟩, [])

def finish (n : Nat) (s : Stop) : Traffic × List Sight :=
  (⟨t.service.finishStop s.session, t.stops.set n (some { s with stage := .returned })⟩,
    [.returned n])

def resume (n : Nat) (s : Stop) (late : Bool) : Option (Traffic × List Sight) :=
  match s.stage with
  | .joining => t.carry time now n { s with stage := .draining, aborted := late } .stopAccepting
  | .draining =>
    if late then
      t.carry time now n { s with stage := .closing }
        (.closePermits t.service.manager.policy.graceful)
    else some (t.finish n s)
  | .closing =>
    if late then (t.carry time now n s .detach).map fun (t, _) => t.finish n s
    else some (t.finish n s)
  | .returned => none

def step : Turn → Option (Traffic × List Sight)
  | .start d session =>
    match t.service.start time d session with
    | (.ok (), service, _) => some ({ t with service }, [.started])
    | (.error _, service, _) => some ({ t with service }, [])
  | .stop => some (t.stop time now)
  | .own k step =>
    if step.isOwn then
      (t.service.engineStep time now k step).map fun (service, _) => ({ t with service }, [])
    else none
  | .resume n late => (t.stops[n]?.join).bind fun s => t.resume time now n s late
  | .drop n => (t.stops[n]?.join).bind fun s =>
    if s.aborted then t.carry time now n s (.run .dropped) else none

end
structure Orderly (t : Traffic) : Prop where
  ruled : t.service.manager.Ruled t.service.current
  taken : ∀ (n : Nat) (s : Stop), t.stops[n]? = some (some s) →
    (∃ g, t.service.manager.engines[s.engine]? = some g ∧ g.session = s.session) ∧
      t.service.manager.held ≠ some s.engine

section
variable {t u : Traffic} {time : Timestamp} {now n : Nat} {said : List Sight} {s : Stop}
  {service : Service}

theorem orderly_grows (h : Orderly t) (hr : service.manager.Ruled service.current)
    (hg : t.service.manager.Grows service.manager) : Orderly { t with service } := by
  refine ⟨hr, fun n s hs => ?_⟩
  obtain ⟨⟨g, hk, hsession⟩, hheld⟩ := h.taken n s hs
  obtain ⟨g', hk', hsession'⟩ := hg.kept _ g hk
  refine ⟨⟨g', hk', hsession'.trans hsession⟩, fun hl => ?_⟩
  rcases hg.held _ hl with hold | hnew
  · exact hheld hold
  · obtain ⟨hlt, -⟩ := List.getElem?_eq_some_iff.mp hk
    omega

theorem orderly_append {call : Option Stop} (h : Orderly t)
    (hc : ∀ s, call = some s → (∃ g, t.service.manager.engines[s.engine]? = some g ∧
      g.session = s.session) ∧ t.service.manager.held ≠ some s.engine) :
    Orderly { t with stops := t.stops ++ [call] } := by
  refine ⟨h.ruled, fun l s hs => ?_⟩
  change (t.stops ++ [call])[l]? = _ at hs
  rw [List.getElem?_append] at hs
  split at hs
  · exact h.taken l s hs
  · exact hc s (List.mem_singleton.mp (List.mem_of_getElem? hs)).symm

/-- A call to stop that goes on is still about the same engine. -/
theorem orderly_set {s' : Stop} (h : Orderly t) (hs : t.stops[n]? = some (some s))
    (hsession : s'.session = s.session) (hengine : s'.engine = s.engine) :
    Orderly { t with stops := t.stops.set n (some s') } := by
  refine ⟨h.ruled, fun l r hr => ?_⟩
  obtain ⟨hlt, -⟩ := List.getElem?_eq_some_iff.mp hs
  by_cases hln : l = n
  · subst hln
    change (t.stops.set l (some s'))[l]? = _ at hr
    rw [List.getElem?_set_self hlt] at hr
    cases hr
    rw [hsession, hengine]
    exact h.taken l s hs
  · change (t.stops.set n (some s'))[l]? = _ at hr
    rw [List.getElem?_set_ne (Ne.symm hln)] at hr
    exact h.taken l r hr

theorem engineStep_ruled {s s' : Service} {k : Nat} {step : Engine.Step}
    {acts : List Manager.Action} (h : s.manager.Ruled s.current)
    (hs : s.engineStep time now k step = some (s', acts)) :
    s'.manager.Ruled s'.current ∧ s.manager.Grows s'.manager ∧
      s'.manager.held = s.manager.held := by
  obtain ⟨⟨after, done⟩, hstep, heq⟩ := Option.map_eq_some_iff.mp hs
  cases heq
  obtain ⟨host, f, did, hk, -, rfl, hengines, hheld, -⟩ := Manager.engineStep_spec hstep
  obtain ⟨hmanager, -⟩ := Service.absorbAll_engine time { s with manager := after } k did
  rw [hmanager, Service.absorbAll_current]
  exact ⟨Manager.ruled_engineStep h hstep,
    Manager.grows_replace hk hengines fun l hl => hheld ▸ hl, hheld⟩

theorem release_ruled {s s' : Service} {k : Nat} {acts : List Manager.Action}
    (h : s.manager.Ruled s.current) (hs : s.release time now = some (k, s', acts)) :
    s'.manager.Ruled s'.current ∧ s.manager.Grows s'.manager ∧ s'.manager.held = none ∧
      ∃ g, s'.manager.engines[k]? = some g ∧ s.current = some g.session := by
  obtain ⟨⟨l, after, done⟩, hrelease, heq⟩ := Option.map_eq_some_iff.mp hs
  cases heq
  obtain ⟨hheld, host, hk, hengines, hnone, -, hquiet⟩ := Manager.release_spec hrelease
  obtain ⟨hruled, htaken⟩ := Manager.ruled_release h hrelease
  obtain ⟨hmanager, -⟩ := Service.absorbAll_quiet time { s with manager := after } acts hquiet
  rw [hmanager, Service.absorbAll_current]
  refine ⟨hruled, Manager.grows_replace hk hengines fun l hl => ?_, hnone, htaken⟩
  rw [hnone] at hl
  cases hl

theorem start_ruled {s s' : Service} {session : Session} {result : Except StartStop Unit}
    (h : s.manager.Ruled s.current) (hs : Service.Begun s session result s') :
    s'.manager.Ruled s'.current ∧ s.manager.Grows s'.manager ∧
      (result ≠ .ok () → s'.manager.held = s.manager.held) := by
  cases hs with
  | busy => exact ⟨h, Manager.grows_same rfl rfl, fun _ => rfl⟩
  | failed free started book current =>
    rw [(Service.failed_manager started).1, current]
    exact ⟨Manager.ruled_give h session, Manager.grows_same rfl rfl, fun _ => rfl⟩
  | hosts free started book current =>
    rw [current]
    generalize s'.manager = after at started
    cases started with
    | hosts off served tls pool present made =>
      refine ⟨?_, ?_, fun hne => absurd rfl hne⟩
      · refine Manager.ruled_host (Manager.ruled_give h session) off ?_ h.given
        simp [Manager.give]
      · have hgrows := Manager.grows_host (s.manager.give session).1 s.manager.sessions.length
          served tls pool
        exact ⟨hgrows.kept, hgrows.held⟩

theorem finish_ruled {s : Service} {i : Nat} (h : s.manager.Ruled s.current)
    (hother : ∀ k g, s.manager.held = some k → s.manager.engines[k]? = some g → g.session ≠ i) :
    (s.finishStop i).manager.Ruled (s.finishStop i).current ∧
      s.manager.Grows (s.finishStop i).manager :=
  ⟨Manager.ruled_quit h hother, Manager.grows_same rfl rfl⟩

structure Lawful (t u : Traffic) (said : List Sight) : Prop where
  orderly : Orderly u
  idle : t.service.manager.held = none → .started ∉ said → u.service.manager.held = none
  called : ∀ n, .called n ∈ said → u.service.manager.held = none ∧ .started ∉ said

theorem start_lawful {d : Draw} {session : Session} (h : Orderly t)
    (hs : t.step time now (.start d session) = some (u, said)) : Lawful t u said := by
  cases hstart : t.service.start time d session with
  | mk result rest =>
    obtain ⟨service, acts⟩ := rest
    obtain ⟨hruled, hgrows, hheld⟩ := start_ruled h.ruled (Service.begun_of_start hstart)
    simp only [step, hstart] at hs
    cases result with
    | ok _ =>
      cases hs
      exact ⟨orderly_grows h hruled hgrows, fun _ hnot => absurd List.mem_cons_self hnot, by simp⟩
    | error e =>
      cases hs
      exact ⟨orderly_grows h hruled hgrows, fun hnone _ => (hheld (by simp)).trans hnone, by simp⟩

theorem stop_lawful (h : Orderly t) (hs : t.step time now .stop = some (u, said)) :
    Lawful t u said := by
  replace hs : t.stop time now = (u, said) := Option.some.inj hs
  unfold stop at hs
  cases hcurrent : t.service.current with
  | none =>
    simp only [hcurrent] at hs
    cases hs
    have hheld : t.service.manager.held = none := by
      cases hheld : t.service.manager.held with
      | none => rfl
      | some k =>
        obtain ⟨g, -, hg, -⟩ := h.ruled.held k hheld
        rw [hcurrent] at hg
        cases hg
    exact ⟨orderly_append h nofun, fun _ _ => hheld, fun _ _ => ⟨hheld, by simp⟩⟩
  | some i =>
    cases hrelease : t.service.release time now with
    | none =>
      simp only [hcurrent, hrelease] at hs
      cases hs
      have hheld := Manager.release_none (Manager.ruled_rooted h.ruled)
        (Option.map_eq_none_iff.mp hrelease)
      obtain ⟨hruled, hgrows⟩ := finish_ruled (i := i) h.ruled fun k g hk => by
        rw [hheld] at hk
        cases hk
      exact ⟨orderly_append (orderly_grows h hruled hgrows) nofun, fun _ _ => hheld,
        fun _ _ => ⟨hheld, by simp⟩⟩
    | some taken =>
      obtain ⟨k, service, acts⟩ := taken
      simp only [hcurrent, hrelease] at hs
      cases hs
      obtain ⟨hruled, hgrows, hheld, g, hg, hsession⟩ := release_ruled h.ruled hrelease
      rw [hcurrent] at hsession
      refine ⟨orderly_append (orderly_grows h hruled hgrows) fun s hs => ?_, fun _ _ => hheld,
        fun _ _ => ⟨hheld, by simp⟩⟩
      cases hs
      exact ⟨⟨g, hg, (Option.some.inj hsession).symm⟩, by rw [hheld]; simp⟩

theorem carry_lawful {s' : Stop} {step : Engine.Step} (h : Orderly t)
    (hs : t.stops[n]? = some (some s)) (hc : t.carry time now n s' step = some (u, said))
    (hsession : s'.session = s.session) (hengine : s'.engine = s.engine) :
    Orderly u ∧ u.service.manager.held = t.service.manager.held ∧
      u.stops[n]? = some (some s') ∧ said = [] := by
  obtain ⟨⟨service, acts⟩, hstep, heq⟩ := Option.map_eq_some_iff.mp hc
  cases heq
  obtain ⟨hruled, hgrows, hheld⟩ := engineStep_ruled h.ruled hstep
  obtain ⟨hlt, -⟩ := List.getElem?_eq_some_iff.mp hs
  exact ⟨orderly_set (orderly_grows h hruled hgrows) hs hsession hengine, hheld,
    List.getElem?_set_self hlt, rfl⟩

theorem finish_lawful (h : Orderly t) (hs : t.stops[n]? = some (some s)) :
    Orderly (t.finish n s).1 := by
  obtain ⟨⟨g, hg, hsession⟩, hheld⟩ := h.taken n s hs
  -- The held engine is another one, and so is its session.
  obtain ⟨hruled, hgrows⟩ := finish_ruled (i := s.session) h.ruled fun k g' hk hg' hsame => by
    have hkl := h.ruled.distinct _ _ g' g hg' hg (hsame.trans hsession.symm)
    exact hheld (hkl ▸ hk)
  exact orderly_set (orderly_grows h hruled hgrows) hs rfl rfl

theorem resume_lawful {late : Bool} (h : Orderly t) (hs : t.stops[n]? = some (some s))
    (hr : t.resume time now n s late = some (u, said)) :
    Orderly u ∧ u.service.manager.held = t.service.manager.held ∧ .started ∉ said ∧
      ∀ m, .called m ∉ said := by
  unfold resume at hr
  split at hr
  · obtain ⟨ho, hheld, -, rfl⟩ := carry_lawful h hs hr rfl rfl
    exact ⟨ho, hheld, by simp⟩
  · split at hr
    · obtain ⟨ho, hheld, -, rfl⟩ := carry_lawful h hs hr rfl rfl
      exact ⟨ho, hheld, by simp⟩
    · cases hr
      exact ⟨finish_lawful h hs, rfl, by simp⟩
  · split at hr
    · obtain ⟨⟨v, said'⟩, hc, heq⟩ := Option.map_eq_some_iff.mp hr
      cases heq
      obtain ⟨ho, hheld, hv, -⟩ := carry_lawful h hs hc rfl rfl
      exact ⟨finish_lawful ho hv, hheld, by simp⟩
    · cases hr
      exact ⟨finish_lawful h hs, rfl, by simp⟩
  · cases hr

theorem step_lawful {turn : Turn} (h : Orderly t) (hs : t.step time now turn = some (u, said)) :
    Lawful t u said := by
  have hquiet : Orderly u ∧ u.service.manager.held = t.service.manager.held ∧ .started ∉ said ∧
      (∀ m, .called m ∉ said) → Lawful t u said := fun ⟨ho, hheld, hnot, hcalled⟩ =>
    ⟨ho, fun hnone _ => hheld.trans hnone, fun m hm => absurd hm (hcalled m)⟩
  cases turn with
  | start d session => exact start_lawful h hs
  | stop => exact stop_lawful h hs
  | own k step =>
    simp only [Traffic.step, Option.ite_none_right_eq_some] at hs
    obtain ⟨-, hs⟩ := hs
    obtain ⟨⟨service, acts⟩, hstep, heq⟩ := Option.map_eq_some_iff.mp hs
    cases heq
    obtain ⟨hruled, hgrows, hheld⟩ := engineStep_ruled h.ruled hstep
    exact hquiet ⟨orderly_grows h hruled hgrows, hheld, by simp⟩
  | resume n late =>
    obtain ⟨s, hn, hs⟩ := Option.bind_eq_some_iff.mp hs
    exact hquiet (resume_lawful h (Option.join_eq_some_iff.mp hn) hs)
  | drop n =>
    obtain ⟨s, hn, hs⟩ := Option.bind_eq_some_iff.mp hs
    simp only [Option.ite_none_right_eq_some] at hs
    obtain ⟨ho, hheld, -, rfl⟩ := carry_lawful h (Option.join_eq_some_iff.mp hn) hs.2 rfl rfl
    exact hquiet ⟨ho, hheld, by simp⟩

end
def stepAt (t : Traffic) (input : Timestamp × Nat × Turn) : Option (Traffic × List Sight) :=
  t.step input.1 input.2.1 input.2.2

/-- What holds of a service whenever its sessions were started and stopped. -/
structure Governed (t : Traffic) (log : List Sight) : Prop where
  -- A held server that has not stopped serves the current session, which is active.
  held : ∀ (k : Nat) (h : Manager.Hosted), t.service.manager.held = some k →
    t.service.manager.engines[k]? = some h → h.engine.server.state ≠ .stopped →
    t.service.current = some h.session ∧ t.service.manager.isActive h.session = true
  -- Of all servers ever made, one at most is created, bound or accepting.
  single : ∀ (k l : Nat) (g h : Manager.Hosted), t.service.manager.engines[k]? = some g →
    t.service.manager.engines[l]? = some h →
    g.engine.server.state.rank < ServerState.stopping.rank →
    h.engine.server.state.rank < ServerState.stopping.rank → k = l
  active : ∀ time d session,
    (t.service.start time d session).1 = .error (.failed .alreadyActive) ↔
      ∃ k h, t.service.manager.held = some k ∧ t.service.manager.engines[k]? = some h ∧
        h.engine.server.state ≠ .stopped
  running : ∀ time d session,
    (t.service.start time d session).1 ≠ .error (.failed .alreadyRunning)
  -- From the first moment of a stop on, and so when it returns, unless another session was started
  -- since.
  stopped : ∀ before n after, log = before ++ .called n :: after → .started ∉ after →
    t.service.manager.held = none ∧ t.service.isSessionActive = false

section
variable {t u : Traffic} {log more before after : List Sight} {n : Nat}

theorem called_append (h : log ++ more = before ++ .called n :: after) :
    (∃ rest, log = before ++ .called n :: rest ∧ after = rest ++ more) ∨ .called n ∈ more := by
  rcases List.append_eq_append_iff.mp h with ⟨later, -, rfl⟩ | ⟨later, rfl, hlater⟩
  · exact .inr (List.mem_append_right _ List.mem_cons_self)
  · cases later with
    | nil =>
      rw [List.nil_append] at hlater
      exact .inr (hlater ▸ List.mem_cons_self)
    | cons a later =>
      cases hlater
      exact .inl ⟨later, rfl, rfl⟩

def Idle (t : Traffic) (log : List Sight) : Prop :=
  ∀ before n after, log = before ++ .called n :: after → .started ∉ after →
    t.service.manager.held = none

theorem lawful_idle (h : Lawful t u more) (hidle : Idle t log) : Idle u (log ++ more) := by
  intro before n after hlog hnot
  rcases called_append hlog with ⟨rest, rfl, rfl⟩ | hcalled
  · rw [List.mem_append, not_or] at hnot
    exact h.idle (hidle before n rest rfl hnot.1) hnot.2
  · exact (h.called n hcalled).1

theorem orderly_start {time : Timestamp} {d : Draw} {session : Session} (h : Orderly t) :
    ((t.service.start time d session).1 = .error (.failed .alreadyActive) ↔
      t.service.manager.isServing = true) ∧
    (t.service.start time d session).1 ≠ .error (.failed .alreadyRunning) := by
  have hactive : t.service.manager.isServing = true → t.service.isActive = true :=
    Manager.ruled_serving h.ruled
  cases hstart : t.service.start time d session with
  | mk result rest =>
    obtain ⟨service, acts⟩ := rest
    cases Service.begun_of_start hstart with
    | busy serving active => exact ⟨⟨fun _ => serving, fun _ => rfl⟩, by simp⟩
    | failed free started book current =>
      have hoff : t.service.manager.isServing = false := by
        cases hs : t.service.manager.isServing with
        | false => rfl
        | true => simp [hs, hactive hs] at free
      obtain ⟨-, hreason⟩ := Service.failed_manager started
      refine ⟨⟨fun heq => ?_, fun hs => ?_⟩, fun heq => ?_⟩
      · exact absurd (Except.error.inj heq) hreason
      · rw [hoff] at hs
        cases hs
      · obtain rfl := Except.error.inj heq
        generalize service.manager = m at started
        cases started with
        | serving on => exact absurd (on.symm.trans hoff) (by simp)
        | unready off _ idle => cases idle
    | hosts free started book current =>
      refine ⟨⟨nofun, fun hs => ?_⟩, nofun⟩
      simp [hs, hactive hs] at free

theorem orderly_governed (h : Orderly t) (hidle : Idle t log) : Governed t log := by
  have hheld : ∀ (k : Nat) (g : Manager.Hosted), t.service.manager.engines[k]? = some g →
      g.engine.server.state.rank < ServerState.stopping.rank → t.service.manager.held = some k := by
    intro k g hg hrank
    by_contra hne
    rcases h.ruled.past k g hg hne with hstate | hstate <;>
      simp [hstate, ServerState.rank] at hrank
  refine ⟨fun k g hk hg hon => ?_, fun k l g g' hg hg' hr hr' => ?_, fun time d session => ?_,
    fun time d session => (orderly_start h).2, fun before n after hlog hnot => ?_⟩
  · obtain ⟨g', hg', hcurrent, hactive⟩ := h.ruled.held k hk
    obtain rfl := Option.some.inj (hg.symm.trans hg')
    exact ⟨hcurrent, hactive hon⟩
  · exact Option.some.inj ((hheld k g hg hr).symm.trans (hheld l g' hg' hr'))
  · rw [(orderly_start h).1, Manager.serving_iff]
  · have hnone := hidle before n after hlog hnot
    refine ⟨hnone, ?_⟩
    simp [Service.isSessionActive, Manager.isRunning, Manager.hosted?, hnone]

end

/-- However the starts and the stops of a service overlap, and whatever the accept tasks and
the handlers of its servers do meanwhile. -/
theorem sessions_governed {tuning : Tuning} {policy : ShutdownPolicy} {issuer : Option Issuer}
    {capture : Manager.Capture} {inputs : List (Timestamp × Nat × Turn)} {t : Traffic}
    {log : List Sight}
    (h : runAll stepAt inputs ⟨.make (.make tuning policy issuer capture), []⟩ = some (t, log)) :
    Governed t log := by
  have hempty : Manager.Ruled (.make tuning policy issuer capture) none :=
    ⟨⟨fun k g hg => (by cases hg), fun k l g g' hg => (by cases hg)⟩,
      fun k g hg => (by cases hg), fun k hk => (by cases hk)⟩
  have hall : Orderly t ∧ Idle t log := by
    refine run_invariant (P := fun _ t log => Orderly t ∧ Idle t log) ?_ ⟨⟨hempty, ?_⟩, ?_⟩ h
    · rintro - t log turn u more ⟨horderly, hidle⟩ hs
      have hlawful := step_lawful horderly hs
      exact ⟨hlawful.orderly, lawful_idle hlawful hidle⟩
    · intro n s hn
      cases hn
    · intro before n after hlog
      simp at hlog
  exact orderly_governed hall.1 hall.2

/-- A client keeps the first stop waiting. Meanwhile another session is started, which the rest of
that stop leaves alone, and a third cannot be started beside it. -/
def overlapTurns : List Turn :=
  [.start default Service.shopSession, .own 0 (.run .begun), .own 0 (.run .bound),
    .own 0 (.run (.located default)), .own 0 (.run .opened),
    .own 0 (.run (.accepted ⟨.ofNat 5, default, default⟩ .admitted)), .own 0 (.resume 0), .stop,
    .start default Service.shopSession, .resume 0 true, .own 1 (.run .begun), .drop 0,
    .resume 0 true, .resume 0 true, .start default Service.shopSession]

theorem sessions_governed_overlap : ∃ t log,
    runAll stepAt (overlapTurns.map fun turn => (default, 0, turn))
      ⟨.make (.make .default (.ofTuning .default) none default), []⟩ = some (t, log) ∧
    log = [.started, .called 0, .started, .returned 0] ∧
    t.service.current = some 1 ∧ t.service.isActive = true ∧
    t.service.manager.engines.map (·.engine.server.state) = [.stopped, .created] ∧
    Governed t log := by
  have hends : (runAll stepAt (overlapTurns.map fun turn => (default, 0, turn))
      ⟨.make (.make .default (.ofTuning .default) none default), []⟩).map (fun r =>
        (r.2, r.1.service.current, r.1.service.isActive,
          r.1.service.manager.engines.map (·.engine.server.state))) =
      some ([.started, .called 0, .started, .returned 0], some 1, true, [.stopped, .created]) := rfl
  obtain ⟨⟨t, log⟩, hrun, heq⟩ := Option.map_eq_some_iff.mp hends
  obtain ⟨hlog, hcurrent, hactive, hstates⟩ := by simpa only [Prod.mk.injEq] using heq
  exact ⟨t, log, hrun, hlog, hcurrent, hactive, hstates, sessions_governed hrun⟩

end Traffic
end Wiretap
