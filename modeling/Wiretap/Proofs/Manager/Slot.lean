import Wiretap.Proofs.Failure.Severity
import Wiretap.Proofs.Manager.Limits
import Wiretap.Proofs.Service.Holding

/-! The one slot of a manager, for which starts and stops race. A session that was given once
may be started again and again, also while an earlier call to stop is still waiting. A start
takes the slot, or leaves everything as it was; a call to stop empties the slot before its
first wait, so that no other call finds the same server. -/

set_option autoImplicit false

namespace Wiretap

namespace Slot

inductive Stage where
  | joining
  | draining
  | closing
  | returned (outcome : PoolShutdown)

structure Stop where
  engine : Nat
  stage : Stage
  aborted : Bool

end Slot

/-- A manager with the calls to stop that were made so far; one that found no server has
returned at once. -/
structure Slot where
  manager : Manager
  stops : List (Option Slot.Stop)

namespace Slot

inductive Turn where
  | give (session : Session)
  | start (draw : Draw) (session : Nat)
  | stop
  | own (engine : Nat) (step : Engine.Step)
  -- a call to stop goes on after a wait that was long enough or too long
  | resume (call : Nat) (late : Bool)
  | drop (call : Nat)

inductive Sight where
  | called (found : Option Nat)
  | returned (call : Nat) (outcome : Option PoolShutdown)

section
variable (t : Slot) (now : Nat)

def stop : Slot × List Sight :=
  match t.manager.release now with
  | none => ({ t with stops := t.stops ++ [none] },
      [.called t.manager.held, .returned t.stops.length none])
  | some (k, manager, _) =>
    (⟨manager, t.stops ++ [some ⟨k, .joining, false⟩]⟩, [.called t.manager.held])

def carry (n : Nat) (s : Stop) (step : Engine.Step) : Option (Slot × List Sight) :=
  (t.manager.engineStep now s.engine step).map fun (manager, _) =>
    (⟨manager, t.stops.set n (some s)⟩, [])

def finish (n : Nat) (s : Stop) (outcome : PoolShutdown) : Slot × List Sight :=
  ({ t with stops := t.stops.set n (some { s with stage := .returned outcome }) },
    [.returned n (some outcome)])

def resume (n : Nat) (s : Stop) (late : Bool) : Option (Slot × List Sight) :=
  match s.stage with
  | .joining => t.carry now n { s with stage := .draining, aborted := late } .stopAccepting
  | .draining =>
    if late then
      t.carry now n { s with stage := .closing } (.closePermits t.manager.policy.graceful)
    else some (t.finish n s .graceful)
  | .closing =>
    if late then (t.carry now n s .detach).map fun (t, _) => t.finish n s .incomplete
    else some (t.finish n s .forced)
  | .returned _ => none

def step : Turn → Option (Slot × List Sight)
  | .give session => some ({ t with manager := (t.manager.give session).1 }, [])
  | .start d i =>
    if i < t.manager.sessions.length then
      some ({ t with manager := (t.manager.start d i).2.1 }, [])
    else none
  | .stop => some (t.stop now)
  | .own k step =>
    if step.isOwn then
      (t.manager.engineStep now k step).map fun (manager, _) => ({ t with manager }, [])
    else none
  | .resume n late => (t.stops[n]?.join).bind fun s => t.resume now n s late
  | .drop n => (t.stops[n]?.join).bind fun s =>
    if s.aborted then t.carry now n s (.run .dropped) else none

end

def stepAt (t : Slot) (input : Nat × Turn) : Option (Slot × List Sight) := t.step input.1 input.2

def Sight.found? : Sight → Option (Option Nat)
  | .called found => some found
  | _ => none

def Sight.returns? : Sight → Option Nat
  | .returned n _ => some n
  | _ => none

def found (log : List Sight) : List (Option Nat) := log.filterMap Sight.found?

def answer? : Option Stop → Option (Option PoolShutdown)
  | none => some none
  | some ⟨_, .returned outcome, _⟩ => some (some outcome)
  | _ => none

def Stage.waits : Stage → Nat
  | .joining => 3
  | .draining => 2
  | .closing => 1
  | .returned _ => 0

def IsVacant (m : Manager) : Prop := m.held = none ∨
  ∃ k h, m.held = some k ∧ m.engines[k]? = some h ∧ h.engine.server.state = .stopped

structure Kept (t : Slot) (log : List Sight) : Prop where
  rooted : t.manager.Rooted
  taken : ∀ (n : Nat) (s : Stop), t.stops[n]? = some (some s) →
    s.engine < t.manager.engines.length ∧ t.manager.held ≠ some s.engine
  alone : ∀ (n l : Nat) (s r : Stop), t.stops[n]? = some (some s) → t.stops[l]? = some (some r) →
    s.engine = r.engine → n = l
  found : found log = t.stops.map (Option.map Stop.engine)
  returned : ∀ n outcome, .returned n outcome ∈ log ↔ t.stops[n]?.bind answer? = some outcome
  once : (log.filterMap Sight.returns?).Nodup

section
variable {t u : Slot} {log said : List Sight} {now n k : Nat} {s s' : Stop} {m after : Manager}
  {step : Engine.Step} {acts : List Manager.Action} {d : Draw} {i : Nat}

theorem vacant_iff (h : m.Rooted) : IsVacant m ↔ m.isServing = false := by
  rw [Bool.eq_false_iff, ne_eq, Manager.serving_iff]
  constructor
  · rintro (hnone | ⟨k, g, hk, hg, hstopped⟩) ⟨l, g', hl, hg', hon⟩
    · rw [hnone] at hl
      cases hl
    · obtain rfl := Option.some.inj (hk.symm.trans hl)
      obtain rfl := Option.some.inj (hg.symm.trans hg')
      exact hon hstopped
  · intro hoff
    cases hk : m.held with
    | none => exact .inl hk
    | some k =>
      obtain ⟨g, hg⟩ := h k hk
      refine .inr ⟨k, g, hk, hg, ?_⟩
      by_contra hon
      exact hoff ⟨k, g, hk, hg, hon⟩

theorem kept_grows (h : Kept t log) (hg : t.manager.Grows m) (hr : m.Rooted) :
    Kept { t with manager := m } log := by
  refine ⟨hr, fun n s hs => ?_, h.alone, h.found, h.returned, h.once⟩
  obtain ⟨hlt, hnot⟩ := h.taken n s hs
  obtain ⟨g, hkept, -⟩ := hg.kept _ _ (List.getElem?_eq_getElem hlt)
  refine ⟨(List.getElem?_eq_some_iff.mp hkept).1, fun hl => ?_⟩
  rcases hg.held _ hl with hold | hnew
  · exact hnot hold
  · omega

theorem kept_engineStep (h : Kept t log) (hs : t.manager.engineStep now k step = some (m, acts)) :
    Kept { t with manager := m } log := by
  obtain ⟨host, f, done, hk, -, -, hengines, hheld, -⟩ := Manager.engineStep_spec hs
  have hgrows : t.manager.Grows m := Manager.grows_replace hk hengines fun l hl => hheld ▸ hl
  refine kept_grows h hgrows fun l hl => ?_
  obtain ⟨g, hg⟩ := h.rooted l (hheld ▸ hl)
  obtain ⟨g', hg', -⟩ := hgrows.kept l g hg
  exact ⟨g', hg'⟩

/-- A failed start changes nothing, and another one puts a new engine into the slot. -/
theorem kept_start (h : Kept t log) :
    Kept { t with manager := (t.manager.start d i).2.1 } log := by
  have hstarted := Manager.start_started t.manager d i
  generalize (t.manager.start d i).1 = result, (t.manager.start d i).2.1 = after at hstarted
  cases hstarted with
  | unknown => exact h
  | serving => exact h
  | unready => exact h
  | hosts off s tls pool present made =>
    refine kept_grows h (Manager.grows_host t.manager i s tls pool) fun k hk => ?_
    obtain rfl := Option.some.inj hk
    exact ⟨_, List.getElem?_concat_length⟩

def tells (n : Nat) (s : Stop) : List Sight :=
  match s.stage with
  | .returned outcome => [.returned n (some outcome)]
  | _ => []

theorem mem_tells {l : Nat} {outcome : Option PoolShutdown} : .returned l outcome ∈ tells n s ↔
    l = n ∧ answer? (some s) = some outcome := by
  obtain ⟨engine, stage, aborted⟩ := s
  cases stage with
  | returned o => simp [tells, answer?, eq_comm]
  | _ => simp [tells, answer?]

theorem set_stops {l : Nat} {r : Stop} (hl : (t.stops.set n (some s'))[l]? = some (some r)) :
    l = n ∧ r = s' ∨ l ≠ n ∧ t.stops[l]? = some (some r) := by
  by_cases hln : l = n
  · subst hln
    obtain ⟨hlt, -⟩ := List.getElem?_eq_some_iff.mp hl
    rw [List.getElem?_set_self (by simpa using hlt)] at hl
    cases hl
    exact .inl ⟨rfl, rfl⟩
  · rw [List.getElem?_set_ne (Ne.symm hln)] at hl
    exact .inr ⟨hln, hl⟩

theorem unanswered (h : Kept t log) (hs : t.stops[n]? = some (some s))
    (hopen : answer? (some s) = none) (outcome : Option PoolShutdown) :
    .returned n outcome ∉ log := by
  rw [h.returned, hs]
  simp [hopen]

/-- Calls that have not returned may return now. -/
theorem once_append (h : (log.filterMap Sight.returns?).Nodup)
    (hsaid : (said.filterMap Sight.returns?).Nodup)
    (hnew : ∀ n ∈ said.filterMap Sight.returns?, ∀ outcome, .returned n outcome ∉ log) :
    ((log ++ said).filterMap Sight.returns?).Nodup := by
  rw [List.filterMap_append, List.nodup_append]
  refine ⟨h, hsaid, fun l hl l' hl' heq => ?_⟩
  obtain ⟨sight, hin, hreturns⟩ := List.mem_filterMap.mp hl
  cases sight with
  | called f => cases hreturns
  | returned _ outcome =>
    cases hreturns
    rw [heq] at hin
    exact hnew l' hl' outcome hin

/-- A call to stop that goes on is still about the same engine. -/
theorem kept_set (h : Kept t log) (hs : t.stops[n]? = some (some s))
    (hengine : s'.engine = s.engine) (hopen : answer? (some s) = none) :
    Kept { t with stops := t.stops.set n (some s') } (log ++ tells n s') := by
  have hnever := unanswered h hs hopen
  obtain ⟨hlt, -⟩ := List.getElem?_eq_some_iff.mp hs
  refine ⟨h.rooted, fun l r hr => ?_, fun l l' r r' hr hr' heq => ?_, ?_, fun l outcome => ?_, ?_⟩
  · rcases set_stops hr with ⟨rfl, rfl⟩ | ⟨-, hold⟩
    · rw [hengine]
      exact h.taken _ s hs
    · exact h.taken l r hold
  · rcases set_stops hr with ⟨rfl, rfl⟩ | ⟨-, hold⟩ <;>
      rcases set_stops hr' with ⟨rfl, rfl⟩ | ⟨-, hold'⟩
    · rfl
    · exact h.alone _ _ s r' hs hold' (hengine ▸ heq)
    · exact h.alone _ _ r s hold hs (hengine ▸ heq)
    · exact h.alone _ _ r r' hold hold' heq
  · have hquiet : found (tells n s') = [] := by
      obtain ⟨engine, stage, aborted⟩ := s'
      cases stage <;> rfl
    have hsame : (t.stops.map (Option.map Stop.engine))[n]? = some (some s'.engine) := by
      simp [hs, hengine]
    rw [found, List.filterMap_append]
    change found log ++ found (tells n s') = (t.stops.set n (some s')).map (Option.map Stop.engine)
    rw [hquiet, List.append_nil, h.found, List.map_set]
    exact (Engine.set_same hsame).symm
  · rw [List.mem_append, mem_tells]
    by_cases hln : l = n
    · subst hln
      simp [hnever, List.getElem?_set_self hlt]
    · rw [h.returned]
      simp [List.getElem?_set_ne (Ne.symm hln), hln]
  · obtain ⟨engine, stage, aborted⟩ := s'
    refine once_append h.once ?_ ?_ <;> cases stage <;> simp [tells, Sight.returns?, hnever]

structure Resumed (t u : Slot) (now n : Nat) (s s' : Stop) (said : List Sight) : Prop where
  engine : s'.engine = s.engine
  fewer : s'.stage.waits < s.stage.waits
  said : said = tells n s'
  stops : u.stops = t.stops.set n (some s')
  manager : u.manager = t.manager ∨
    ∃ step acts, t.manager.engineStep now s.engine step = some (u.manager, acts)

theorem carry_eq (hc : t.carry now n s' step = some (u, said)) : said = [] ∧
    u.stops = t.stops.set n (some s') ∧
    ∃ acts, t.manager.engineStep now s'.engine step = some (u.manager, acts) := by
  obtain ⟨⟨manager, acts⟩, hstep, heq⟩ := Option.map_eq_some_iff.mp hc
  cases heq
  exact ⟨rfl, rfl, acts, hstep⟩

theorem resume_resumed {late : Bool} (hr : t.resume now n s late = some (u, said)) :
    ∃ s', Resumed t u now n s s' said := by
  obtain ⟨engine, stage, aborted⟩ := s
  cases stage with
  | joining =>
    obtain ⟨rfl, hstops, hstep⟩ := carry_eq hr
    exact ⟨⟨engine, .draining, late⟩, rfl, by simp [Stage.waits], rfl, hstops, .inr ⟨_, hstep⟩⟩
  | draining =>
    cases late with
    | true =>
      obtain ⟨rfl, hstops, hstep⟩ := carry_eq hr
      exact ⟨⟨engine, .closing, aborted⟩, rfl, by simp [Stage.waits], rfl, hstops, .inr ⟨_, hstep⟩⟩
    | false =>
      cases hr
      exact ⟨⟨engine, .returned .graceful, aborted⟩, rfl, by simp [Stage.waits], rfl, rfl, .inl rfl⟩
  | closing =>
    cases late with
    | true =>
      obtain ⟨⟨v, more⟩, hc, heq⟩ := Option.map_eq_some_iff.mp hr
      obtain ⟨-, hstops, hstep⟩ := carry_eq hc
      cases heq
      refine ⟨⟨engine, .returned .incomplete, aborted⟩, rfl, by simp [Stage.waits], rfl, ?_,
        .inr ⟨_, hstep⟩⟩
      change v.stops.set n _ = _
      rw [hstops, List.set_set]
    | false =>
      cases hr
      exact ⟨⟨engine, .returned .forced, aborted⟩, rfl, by simp [Stage.waits], rfl, rfl, .inl rfl⟩
  | returned outcome => cases hr

theorem waits_open {s : Stop} : answer? (some s) = none ↔ 0 < s.stage.waits := by
  obtain ⟨engine, stage, aborted⟩ := s
  cases stage <;> simp [answer?, Stage.waits]

theorem resume_kept {late : Bool} (h : Kept t log) (hs : t.stops[n]? = some (some s))
    (hr : t.resume now n s late = some (u, said)) : Kept u (log ++ said) := by
  obtain ⟨s', hengine, hfewer, rfl, hstops, hmanager⟩ := resume_resumed hr
  have hopen : answer? (some s) = none := waits_open.mpr (by omega)
  obtain ⟨manager, stops⟩ := u
  obtain rfl : stops = t.stops.set n (some s') := hstops
  rcases hmanager with hsame | ⟨step, acts, hstep⟩
  · obtain rfl : manager = t.manager := hsame
    exact kept_set h hs hengine hopen
  · exact kept_set (kept_engineStep h hstep) hs hengine hopen

theorem drop_kept (h : Kept t log) (hs : t.stops[n]? = some (some s))
    (hc : t.carry now n s step = some (u, said)) : Kept u (log ++ said) := by
  obtain ⟨⟨manager, acts⟩, hstep, heq⟩ := Option.map_eq_some_iff.mp hc
  cases heq
  rw [Engine.set_same hs, List.append_nil]
  exact kept_engineStep h hstep

theorem append_stops {call : Option Stop} {l : Nat} {r : Stop}
    (hl : (t.stops ++ [call])[l]? = some (some r)) :
    t.stops[l]? = some (some r) ∨ l = t.stops.length ∧ call = some r := by
  rw [List.getElem?_append] at hl
  split at hl
  · exact .inl hl
  · obtain ⟨hlt, hcall⟩ := List.getElem?_eq_some_iff.mp hl
    simp only [List.length_singleton] at hlt
    exact .inr ⟨by omega, by simpa using hcall⟩

theorem append_answer {call : Option Stop} (h : Kept t log) (n : Nat)
    (outcome : Option PoolShutdown) :
    (t.stops ++ [call])[n]?.bind answer? = some outcome ↔
      .returned n outcome ∈ log ∨ n = t.stops.length ∧ answer? call = some outcome := by
  rw [h.returned, List.getElem?_append]
  split
  · rename_i hlt
    simp [Nat.ne_of_lt hlt]
  · rename_i hge
    rw [List.getElem?_eq_none (by omega : t.stops.length ≤ n)]
    by_cases hn : n = t.stops.length
    · subst hn
      simp
    · rw [List.getElem?_eq_none (by simp; omega)]
      simp [hn]

/-- A call to stop that finds no server returns at once. -/
theorem kept_idle (h : Kept t log) (hnone : t.manager.held = none) :
    Kept { t with stops := t.stops ++ [none] }
      (log ++ [.called t.manager.held, .returned t.stops.length none]) := by
  have hold : ∀ {l : Nat} {r : Stop}, (t.stops ++ [none])[l]? = some (some r) →
      t.stops[l]? = some (some r) := fun hl =>
    (append_stops hl).resolve_right fun ⟨_, hcall⟩ => by cases hcall
  refine ⟨h.rooted, fun n s hs => h.taken n s (hold hs), fun n l s r hs hr heq =>
    h.alone n l s r (hold hs) (hold hr) heq, ?_, fun n outcome => ?_, ?_⟩
  · rw [found, List.filterMap_append]
    change found log ++ [t.manager.held] = _
    rw [h.found, hnone]
    simp
  · rw [append_answer h]
    simp [answer?, eq_comm]
  · refine once_append h.once (List.nodup_singleton _) fun n hn outcome => ?_
    rw [List.mem_singleton.mp hn, h.returned]
    simp

/-- A call to stop that finds a server has the engine for itself. -/
theorem kept_taken (h : Kept t log) (hr : t.manager.release now = some (k, m, acts)) :
    Kept ⟨m, t.stops ++ [some ⟨k, .joining, false⟩]⟩ (log ++ [.called t.manager.held]) := by
  obtain ⟨hheld, host, hk, hengines, hnone, -, -⟩ := Manager.release_spec hr
  obtain ⟨hlt, -⟩ := List.getElem?_eq_some_iff.mp hk
  have hlength : m.engines.length = t.manager.engines.length := by simp [hengines]
  refine ⟨fun l hl => ?_, fun n s hs => ?_, fun n l s r hs hr heq => ?_, ?_, fun n outcome => ?_,
    ?_⟩
  · rw [hnone] at hl
    cases hl
  · refine ⟨?_, by rw [hnone]; simp⟩
    rcases append_stops hs with hold | ⟨-, hnew⟩
    · exact hlength ▸ (h.taken n s hold).1
    · cases hnew
      exact hlength ▸ hlt
  · rcases append_stops hs with hold | ⟨rfl, hnew⟩ <;>
      rcases append_stops hr with hold' | ⟨rfl, hnew'⟩
    · exact h.alone n l s r hold hold' heq
    · cases hnew'
      exact absurd (heq ▸ hheld) (h.taken n s hold).2
    · cases hnew
      exact absurd (heq ▸ hheld) (h.taken l r hold').2
    · rfl
  · rw [found, List.filterMap_append]
    change found log ++ [t.manager.held] = _
    rw [h.found, hheld]
    simp
  · rw [append_answer h]
    simp [answer?]
  · exact once_append h.once List.nodup_nil fun n hn => by cases hn

theorem step_kept {turn : Turn} (h : Kept t log) (hs : t.step now turn = some (u, said)) :
    Kept u (log ++ said) := by
  cases turn with
  | give session =>
    cases hs
    rw [List.append_nil]
    exact kept_grows h (Manager.grows_same rfl rfl) h.rooted
  | start d i =>
    simp only [step, Option.ite_none_right_eq_some] at hs
    obtain ⟨-, hs⟩ := hs
    cases hs
    rw [List.append_nil]
    exact kept_start h
  | stop =>
    replace hs : t.stop now = (u, said) := Option.some.inj hs
    unfold stop at hs
    split at hs
    · rename_i hrelease
      cases hs
      exact kept_idle h (Manager.release_none h.rooted hrelease)
    · rename_i k manager acts hrelease
      cases hs
      exact kept_taken h hrelease
  | own k step =>
    simp only [Slot.step, Option.ite_none_right_eq_some] at hs
    obtain ⟨-, hs⟩ := hs
    obtain ⟨⟨manager, acts⟩, hstep, heq⟩ := Option.map_eq_some_iff.mp hs
    cases heq
    rw [List.append_nil]
    exact kept_engineStep h hstep
  | resume n late =>
    obtain ⟨s, hn, hs⟩ := Option.bind_eq_some_iff.mp hs
    exact resume_kept h (Option.join_eq_some_iff.mp hn) hs
  | drop n =>
    obtain ⟨s, hn, hs⟩ := Option.bind_eq_some_iff.mp hs
    simp only [Option.ite_none_right_eq_some] at hs
    exact drop_kept h (Option.join_eq_some_iff.mp hn) hs.2

theorem run_kept {turns : List (Nat × Turn)} (hnone : m.held = none)
    (h : runAll stepAt turns ⟨m, []⟩ = some (t, log)) : Kept t log := by
  refine run_invariant (P := fun _ t log => Kept t log)
    (fun _ _ _ _ _ _ hkept hs => step_kept hkept hs) ?_ h
  refine ⟨fun k hk => ?_, by simp, by simp, rfl, by simp, List.nodup_nil⟩
  rw [hnone] at hk
  cases hk

end

def told (acts : List Manager.Action) : List (Failure × Category) :=
  acts.filterMap Manager.Action.report?

structure Admits (m : Manager) (d : Draw) (i : Nat) (s : Session) : Prop where
  started : (m.start d i).1 = .ok () ↔ IsVacant m ∧
    (∃ ready, TlsContext.forSession s m.tuning m.issuer d = .ok ready) ∧
    m.tuning.maxConnections ≤ Pool.maxPermits
  failed : ∀ e, (m.start d i).1 = .error (.failed e) ↔ ¬IsVacant m ∧ e = .alreadyRunning ∨
    IsVacant m ∧ TlsContext.forSession s m.tuning m.issuer d = .error (.failed e)
  broken : ∀ reason, (m.start d i).1 = .error (.broken reason) ↔ IsVacant m ∧
    TlsContext.forSession s m.tuning m.issuer d = .error (.broken reason)
  crowded : (m.start d i).1 = .error .tooManyConnections ↔ IsVacant m ∧
    (∃ ready, TlsContext.forSession s m.tuning m.issuer d = .ok ready) ∧
    Pool.maxPermits < m.tuning.maxConnections
  -- That TLS cannot be set up is reported once, and is fatal.
  reported : ∀ e, IsVacant m → TlsContext.forSession s m.tuning m.issuer d = .error (.failed e) →
    told (m.start d i).2.2 = [(.session e, .initialization)] ∧
      (Failure.session e).severity .initialization = .fatal
  quiet : (∀ e, ¬(IsVacant m ∧
      TlsContext.forSession s m.tuning m.issuer d = .error (.failed e))) →
    told (m.start d i).2.2 = []
  -- A new server takes the slot, and its session is active.
  hosts : (m.start d i).1 = .ok () → ∃ tls log pool,
    TlsContext.forSession s m.tuning m.issuer d = .ok (tls, log) ∧
    Pool.make m.tuning.maxConnections = .ok pool ∧
    (m.start d i).2.1 = m.host i s tls pool
  -- Servers, pools, tasks and sessions are as before, unless the start succeeds.
  unchanged : (m.start d i).1 ≠ .ok () → (m.start d i).2.1 = m

/-- What holds of a slot whenever its sessions were started and stopped. -/
structure Guarded (t : Slot) (log : List Sight) : Prop where
  starts : ∀ (d : Draw) (i : Nat) (s : Session), t.manager.sessions[i]? = some s →
    Admits t.manager d i s
  -- A call to stop finds the server that is held, and empties the slot before it waits.
  empties : ∀ now, ∃ u said, t.step now .stop = some (u, .called t.manager.held :: said) ∧
    u.manager.held = none
  -- No two calls have found the same server.
  alone : ∀ n l k : Nat, (found log)[n]? = some (some k) → (found log)[l]? = some (some k) → n = l
  -- A call returns something when it has found a server, and only then.
  answered : ∀ (n : Nat) (outcome : Option PoolShutdown), .returned n outcome ∈ log →
    ∃ f, (found log)[n]? = some f ∧ outcome.isSome = f.isSome
  idle : ∀ n : Nat, (found log)[n]? = some none → .returned n none ∈ log
  once : (log.filterMap Sight.returns?).Nodup
  -- A call that waits can always go on, and has fewer waits before it then.
  proceeds : ∀ (n : Nat) (s : Stop), t.stops[n]? = some (some s) → 0 < s.stage.waits → ∀ now late,
    ∃ u said s', t.step now (.resume n late) = some (u, said) ∧ Resumed t u now n s s' said

section
variable {t u : Slot} {log : List Sight} {now n : Nat} {s : Stop} {m : Manager} {d : Draw}
  {i : Nat} {session : Session}

theorem told_discarded (m : Manager) : told m.discarded = [] := by
  refine List.filterMap_eq_nil_iff.mpr fun a ha => ?_
  obtain ⟨s, -, rfl⟩ := List.mem_map.mp ha
  rfl

theorem told_logged (log : List LogLine) : told (log.map .logged) = [] := by
  refine List.filterMap_eq_nil_iff.mpr fun a ha => ?_
  obtain ⟨line, -, rfl⟩ := List.mem_map.mp ha
  rfl

theorem told_warned (m : Manager) (s : Session) : told (m.warned s) = [] := told_logged _

@[simp] theorem told_append (xs ys : List Manager.Action) :
    told (xs ++ ys) = told xs ++ told ys := List.filterMap_append

theorem start_admits (hs : m.sessions[i]? = some session) (hv : IsVacant m ↔ m.isServing = false) :
    Admits m d i session := by
  cases hon : m.isServing with
  | true =>
    have hbusy : ¬IsVacant m := by simp [hv, hon]
    constructor <;> simp [Manager.start_serving hs hon, hbusy, told, eq_comm]
  | false =>
    have hvacant : IsVacant m := hv.mpr hon
    cases hprepared : TlsContext.forSession session m.tuning m.issuer d with
    | error stop =>
      cases stop with
      | broken reason =>
        constructor <;>
          simp [Manager.start_broken hs hon hprepared, hvacant, hprepared, told_discarded,
            told_warned]
      | failed e =>
        have htold : told [Manager.Action.reported (.session e) .initialization] =
          [(.session e, .initialization)] := rfl
        constructor <;>
          simp [Manager.start_unready hs hon hprepared, hvacant, hprepared, told_discarded,
            told_warned, htold, Failure.severity]
    | ok ready =>
      obtain ⟨tls, lines⟩ := ready
      rcases Nat.lt_or_ge Pool.maxPermits m.tuning.maxConnections with hmax | hmax
      · have hnot := Nat.not_le.mpr hmax
        constructor <;>
          simp [Manager.start_crowded hs hon hprepared hmax, hvacant, hprepared, told_discarded,
            told_logged, hmax, hnot]
      · obtain ⟨pool, hpool, hstart⟩ := Manager.start_hosts hs hon hprepared hmax
        have hnot := Nat.not_lt.mpr hmax
        have hnote : ∀ level message, told [Manager.note level message] = [] := fun _ _ => rfl
        constructor <;>
          simp [hstart, hvacant, hprepared, told_discarded, told_logged, hnote, hmax, hnot, hpool]

theorem carry_isSome {s' : Stop} {step : Engine.Step} (hk : s'.engine < t.manager.engines.length)
    (hs : ∀ e : Engine, ∃ r, e.step now step = some r) :
    ∃ r, t.carry now n s' step = some r := by
  obtain ⟨⟨engine, acts⟩, hstep⟩ := hs t.manager.engines[s'.engine].engine
  simp [carry, Manager.engineStep, List.getElem?_eq_getElem hk, hstep]

/-- A wait is never the end of a call to stop. -/
theorem resume_isSome (hk : s.engine < t.manager.engines.length) (hw : 0 < s.stage.waits)
    (late : Bool) : ∃ r, t.resume now n s late = some r := by
  obtain ⟨engine, stage, aborted⟩ := s
  cases stage with
  | joining => exact carry_isSome hk fun e => ⟨_, rfl⟩
  | draining =>
    cases late with
    | true => exact carry_isSome hk fun e => ⟨_, rfl⟩
    | false => exact ⟨_, rfl⟩
  | closing =>
    cases late with
    | true =>
      have hcarry : ∃ r, t.carry now n ⟨engine, .closing, aborted⟩ .detach = some r :=
        carry_isSome hk fun e => ⟨_, rfl⟩
      obtain ⟨⟨v, said⟩, hcarry⟩ := hcarry
      simp [resume, hcarry]
    | false => exact ⟨_, rfl⟩
  | returned outcome => cases hw

theorem found_stops (h : Kept t log) (n : Nat) :
    (found log)[n]? = t.stops[n]?.map (Option.map Stop.engine) := by
  rw [h.found, List.getElem?_map]

theorem kept_guarded (h : Kept t log) : Guarded t log := by
  refine ⟨fun d i s hs => start_admits hs (vacant_iff h.rooted), fun now => ?_,
    fun n l k hn hl => ?_, fun n outcome hin => ?_, fun n hn => ?_, h.once,
    fun n s hs hw now late => ?_⟩
  · cases hr : t.manager.release now with
    | none =>
      have hheld := Manager.release_none h.rooted hr
      refine ⟨{ t with stops := t.stops ++ [none] }, [.returned t.stops.length none], ?_, hheld⟩
      simp [step, stop, hr]
    | some taken =>
      obtain ⟨k, manager, acts⟩ := taken
      obtain ⟨-, host, -, -, hnone, -⟩ := Manager.release_spec hr
      refine ⟨⟨manager, t.stops ++ [some ⟨k, .joining, false⟩]⟩, [], ?_, hnone⟩
      simp [step, stop, hr]
  · have hfound : ∀ {n k : Nat}, (found log)[n]? = some (some k) →
        ∃ s : Stop, t.stops[n]? = some (some s) ∧ s.engine = k := by
      intro n k hn
      rw [found_stops h] at hn
      obtain ⟨call, hcall, hmap⟩ := Option.map_eq_some_iff.mp hn
      obtain ⟨s, rfl, hk⟩ := Option.map_eq_some_iff.mp hmap
      exact ⟨s, hcall, hk⟩
    obtain ⟨s, hs, rfl⟩ := hfound hn
    obtain ⟨r, hr, heq⟩ := hfound hl
    exact h.alone n l s r hs hr heq.symm
  · obtain ⟨call, hcall, hanswer⟩ := Option.bind_eq_some_iff.mp ((h.returned n outcome).mp hin)
    refine ⟨call.map Stop.engine, by rw [found_stops h, hcall]; rfl, ?_⟩
    cases call with
    | none =>
      cases hanswer
      rfl
    | some s =>
      obtain ⟨engine, stage, aborted⟩ := s
      cases stage with
      | returned o =>
        cases hanswer
        rfl
      | _ => cases hanswer
  · rw [found_stops h] at hn
    obtain ⟨call, hcall, hnone⟩ := Option.map_eq_some_iff.mp hn
    obtain rfl := Option.map_eq_none_iff.mp hnone
    exact (h.returned n none).mpr (by rw [hcall]; rfl)
  · have hresume : ∃ r, t.resume now n s late = some r := resume_isSome (h.taken n s hs).1 hw late
    obtain ⟨⟨u, said⟩, hr⟩ := hresume
    obtain ⟨s', hresumed⟩ := resume_resumed hr
    refine ⟨u, said, s', ?_, hresumed⟩
    simp [step, hs, hr]

end

/-- However starts, calls to stop, accept tasks and handlers follow each other. -/
theorem slot_guarded (t : Tuning) (p : ShutdownPolicy) (issuer : Option Issuer)
    (capture : Manager.Capture) {turns : List (Nat × Turn)} {u : Slot} {log : List Sight}
    (h : runAll stepAt turns ⟨.make t p issuer capture, []⟩ = some (u, log)) : Guarded u log :=
  kept_guarded (run_kept rfl h)

/-- Two sessions, of which the first is started twice. The second one is in its way, and has no
issuer; two calls to stop overlap, and the first of them is still waiting when its session is
started again. -/
def raceTurns : List (Nat × Turn) :=
  [(0, .give Service.shopSession), (0, .give Service.sealedSession), (0, .start default 0),
    (1, .start default 1), (2, .stop), (2, .stop), (3, .start default 1), (3, .start default 0),
    (4, .own 0 (.run .begun)), (5, .resume 0 false), (5, .resume 0 false), (6, .stop)]

theorem slot_guarded_race : ∃ u log,
    runAll stepAt raceTurns ⟨.make .default .default none default, []⟩ = some (u, log) ∧
    log = [.called (some 0), .called none, .returned 1 none, .returned 0 (some .graceful),
      .called (some 1)] ∧ Guarded u log := by
  have hends : (runAll stepAt raceTurns ⟨.make .default .default none default, []⟩).map (·.2) =
      some [.called (some 0), .called none, .returned 1 none, .returned 0 (some .graceful),
        .called (some 1)] := rfl
  obtain ⟨⟨u, log⟩, hrun, hlog⟩ := Option.map_eq_some_iff.mp hends
  exact ⟨u, log, hrun, hlog, slot_guarded .default .default none default hrun⟩

end Slot
end Wiretap
