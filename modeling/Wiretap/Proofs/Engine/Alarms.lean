import Wiretap.Proofs.Engine.Accepting
import Wiretap.Proofs.Failure.Severity

/-! What a failed accept amounts to. The run of the server rests and accepts again, whatever
the error was; but an error that denies a port is fatal all the same, and the program that
hears of it does not go on. Handlers never give an alarm. -/

set_option autoImplicit false

namespace Wiretap

namespace Handler

def Action.IsMild (a : Action) : Prop :=
  ∀ error category, a.report? = some (error, category) →
    category = .connectionHandling ∨ category = .networkIo

section
variable {s : Setup} {now : Nat} {phase next : Phase} {e : Event} {acts : List Action}

theorem plain_mild {a : Action} (h : a.report? = none) : a.IsMild := by
  intro error category hr
  rw [h] at hr
  cases hr

theorem relayed_mild (d : Direction) (a : Pump.Action) : (Action.relayed d a).IsMild := by
  intro error category hr
  cases a with
  | reported e =>
    cases hr
    exact .inr rfl
  | _ => cases hr

theorem pumped_mild (d : Direction) (p : Pump) (done : List Pump.Action) (a b : Pump)
    (torn : Bool) : ∀ x ∈ pumped s d p done (settle s a b torn).2, x.IsMild := by
  refine List.forall_mem_append.mpr ⟨List.forall_mem_append.mpr ⟨?_, ?_⟩, ?_⟩
  · exact List.forall_mem_map.mpr fun a _ => relayed_mild d a
  · refine List.forall_mem_map.mpr fun outcome _ => plain_mild ?_
    cases outcome <;> rfl
  · rcases settle_cases s a b torn with ⟨hs, -⟩ | ⟨hs, -⟩ <;> rw [hs]
    · exact fun x hx => plain_mild (leave_plain s true x hx).2
    · simp

theorem move_mild (m : Move s now phase e next acts) : ∀ a ∈ acts, a.IsMild := by
  cases m with
  | begun => simp
  | greeted => simp
  | dropped =>
    exact List.forall_mem_cons.mpr ⟨plain_mild rfl, fun a ha => plain_mild (drop_plain s _ a ha).2⟩
  | refused why =>
    refine List.forall_mem_cons.mpr
      ⟨fun f c hr => ?_, fun a ha => plain_mild (leave_plain s false a ha).2⟩
    cases hr
    cases why with
    | client => exact .inl rfl
    | target => unfold NetworkFailure.targetCategory; split <;> simp
  | reached =>
    refine List.forall_mem_cons.mpr ⟨plain_mild rfl, List.forall_mem_append.mpr ⟨?_, ?_⟩⟩ <;>
      exact List.forall_mem_map.mpr fun a _ => relayed_mild _ a
  | toTarget => exact pumped_mild _ _ _ _ _ _
  | toClient => exact pumped_mild _ _ _ _ _ _

theorem run_mild {events : List (Nat × Event)}
    (h : runAll (stepAt s) events .waiting = some (phase, acts)) : ∀ a ∈ acts, a.IsMild :=
  run_invariant (P := fun _ _ acts => ∀ a ∈ acts, Action.IsMild a)
    (fun _ _ _ _ _ _ hmild hs =>
      List.forall_mem_append.mpr ⟨hmild, move_mild (move_of_step hs)⟩) (by simp) h

end
end Handler

namespace Engine

def reports (acts : List Action) : List (Failure × Category) := acts.filterMap Action.report?

def alarmed (acts : List Action) : Bool := (Program.fatal? (reports acts)).isSome

def ofServer : List (Failure × Category) → List (Failure × Category) :=
  List.filter (·.2 == .proxyServer)

structure Setback (acts : List Action) (now : Nat) (bound : SocketAddress) (error : IoFailure)
    (f : Engine) (more : List Action) : Prop where
  once : reports more = [(.network (.accept error), .proxyServer)]
  rests : f.run = .resting bound (now + Server.restMillis)
  wakes : ∀ later, now + Server.restMillis ≤ later →
    ∃ g, f.step later (.run .rested) = some (g, []) ∧ g.run = .accepting bound
  fatal : (Failure.network (.accept error)).severity .proxyServer = .fatal ↔
    (Failure.io error).DeniesPort
  sent : ∀ r : Reporter, (r.report (.network (.accept error)) .proxyServer).2 =
      some ((Failure.network (.accept error)).classify .proxyServer) ↔
    r.channel = true ∧ r.listening = true ∧ (Failure.io error).DeniesPort
  -- The program may have ended already.
  alarm : alarmed (acts ++ more) = true ↔
    alarmed acts = true ∨ (Failure.io error).DeniesPort

/-- What the reports of a run amount to after any steps. -/
structure Weighed (steps : List Step) (e : Engine) (acts : List Action) : Prop where
  failing : .stop ∉ steps → ∀ bound, e.run = .accepting bound → ∀ now error, ∃ f more,
    e.step now (.run (.acceptFailed error)) = some (f, more) ∧
      Setback acts now bound error f more
  listed : ofServer (reports acts) = ofServer (owed false steps)
  -- One of them whose error denies the port is what the program ends over.
  alarm : alarmed acts = true ↔ ∃ cause error, (.network cause, .proxyServer) ∈ owed false steps ∧
    cause.socketError? = some error ∧ (Failure.io error).DeniesPort

section
variable {e f : Engine} {now : Nat} {steps : List Step} {acts more : List Action}

@[simp] theorem reports_append (xs ys : List Action) :
    reports (xs ++ ys) = reports xs ++ reports ys := List.filterMap_append

theorem served_mild {setup : Setup} (h : Served setup e acts) {i : Nat} {a : Handler.Action}
    (ha : .handler i a ∈ acts) : a.IsMild := by
  have hin : a ∈ tasked i acts := List.mem_filterMap.mpr ⟨_, ha, by simp [Action.of?]⟩
  have hi : i < e.handlers.length := by
    by_contra hlt
    rw [h.unmade i (by omega)] at hin
    cases hin
  have hclient : i < e.clients.length := h.paired.clients ▸ hi
  obtain ⟨events, hrun⟩ := h.ran i _ _ (List.getElem?_eq_getElem hclient)
    (List.getElem?_eq_getElem hi)
  exact Handler.run_mild hrun a hin

/-- Only the run of the server speaks for it. -/
theorem reports_server (h : ∀ i a, .handler i a ∈ acts → a.IsMild) :
    ofServer (reports acts) = ofServer (acts.filterMap Action.serverReport?) := by
  rw [ofServer, reports, List.filter_filterMap, List.filter_filterMap]
  refine List.filterMap_congr fun a ha => ?_
  cases a with
  | handler i b =>
    cases hb : b.report? with
    | none => simp [Action.report?, Action.serverReport?, hb]
    | some r =>
      rcases h i b ha r.1 r.2 hb with hc | hc <;>
        simp [Action.report?, Action.serverReport?, hb, hc]
  | server b => cases b <;> rfl
  | logged line => rfl

theorem owes_server {up : Bool} {step : Step} {r : Failure × Category} (h : r ∈ step.owes up) :
    r.2 = .connectionHandling ∨ ∃ cause, r = (.network cause, .proxyServer) := by
  unfold Step.owes at h
  split at h
  · exact .inl (List.mem_singleton.mp h ▸ rfl)
  · split at h
    · cases h
    · exact .inr ⟨_, List.mem_singleton.mp h⟩
  · exact .inr ⟨_, List.mem_singleton.mp h⟩
  · exact .inr ⟨_, List.mem_singleton.mp h⟩
  · cases h

theorem owed_server {up : Bool} {r : Failure × Category} (h : r ∈ owed up steps) :
    r.2 = .connectionHandling ∨ ∃ cause, r = (.network cause, .proxyServer) := by
  induction steps generalizing up with
  | nil => cases h
  | cons step steps ih =>
    rcases List.mem_append.mp h with h | h
    · exact owes_server h
    · exact ih h

/-- The program ends over a failure of the server, and over nothing else. -/
theorem alarmed_iff (h : ∀ r ∈ reports acts, r.2 ≠ .initialization) : alarmed acts = true ↔
    ∃ r ∈ ofServer (reports acts), r.1.DeniesPort := by
  simp only [alarmed, Program.fatal_iff, Failure.severity_fatal_iff, ofServer, List.mem_filter,
    beq_iff_eq, and_assoc]
  refine exists_congr fun r => and_congr_right fun hr => ?_
  simp [h r hr]

/-- Nobody reports that the engine could not be set up. -/
theorem served_begun {setup : Setup} (hs : Served setup e acts)
    (hr : acts.filterMap Action.serverReport? = owed false steps) :
    ∀ r ∈ reports acts, r.2 ≠ .initialization := by
  intro r hin
  obtain ⟨a, ha, hreport⟩ := List.mem_filterMap.mp hin
  cases a with
  | handler i b => rcases served_mild hs ha r.1 r.2 hreport with hc | hc <;> simp [hc]
  | server b =>
    cases b with
    | reported error category =>
      cases hreport
      have howed : (error, category) ∈ owed false steps :=
        hr ▸ List.mem_filterMap.mpr ⟨_, ha, rfl⟩
      rcases owed_server howed with hc | ⟨cause, hc⟩
      · rw [hc]
        simp
      · cases hc
        simp
    | _ => cases hreport
  | logged line => cases hreport

theorem mem_ofServer {r : Failure × Category} (h : r ∈ ofServer (owed false steps)) :
    ∃ cause, r = (.network cause, .proxyServer) := by
  obtain ⟨hin, hc⟩ := List.mem_filter.mp h
  rcases owed_server hin with hother | hserver
  · rw [hother] at hc
    cases hc
  · exact hserver

theorem accept_denies (error : IoFailure) :
    (Failure.network (.accept error)).DeniesPort ↔ (Failure.io error).DeniesPort := by
  rw [Failure.network_denies_iff]
  simp [NetworkFailure.socketError?]

/-- A failed accept is reported before the server rests. -/
theorem accept_setback {bound : SocketAddress} (hdown : e.server.stopRequested = false)
    (hrun : e.run = .accepting bound) (acts : List Action) (now : Nat) (error : IoFailure) :
    ∃ f more, e.step now (.run (.acceptFailed error)) = some (f, more) ∧
      Setback acts now bound error f more := by
  have hstep : e.server.step e.setup.server now e.run (.acceptFailed error) =
      some (e.server, .resting bound (now + Server.restMillis),
        [.reported (.network (.accept error)) .proxyServer]) := by
    simp [Server.step, Server.acceptStep, hrun, hdown]
  obtain ⟨f, hf, hphase⟩ := run_steps hstep
  have hfatal : (Failure.network (.accept error)).severity .proxyServer = .fatal ↔
      (Failure.io error).DeniesPort := by
    rw [Failure.server_fatal_iff, accept_denies]
  refine ⟨f, _, hf, rfl, hphase, fun later hlater => ?_, hfatal, fun r => ?_, ?_⟩
  · have hrested : f.server.step f.setup.server later f.run .rested =
        some (f.server, .accepting bound, []) := by
      simp [Server.step, hphase, hlater]
    exact run_steps hrested
  · rw [Reporter.sends_iff, hfatal]
  · have honce : reports (acts ++ [.server (.reported (.network (.accept error)) .proxyServer)]) =
        reports acts ++ [(.network (.accept error), .proxyServer)] := reports_append _ _
    change
      alarmed (acts ++ [.server (.reported (.network (.accept error)) .proxyServer)]) = true ↔ _
    simp only [alarmed, Program.fatal_iff, honce, List.mem_append, List.mem_singleton, or_and_right,
      exists_or, exists_eq_left, hfatal]

end

/-- However long an engine runs, and whatever its handlers report meanwhile. -/
theorem failures_weighed {setup : Setup} {pool : Pool} {limit : Nat}
    (hpool : Pool.make limit = .ok pool) {inputs : List (Nat × Step)} {e : Engine}
    {acts : List Action} (h : runAll stepAt inputs (make setup pool) = some (e, acts)) :
    Weighed (inputs.map (·.2)) e acts := by
  have hkept := run_kept hpool h
  have hserved := run_served hpool h
  have hlisted : ofServer (reports acts) = ofServer (owed false (inputs.map (·.2))) := by
    rw [reports_server fun i a => served_mild hserved, hkept.reports]
  refine ⟨fun hs bound hrun now error => ?_, hlisted, ?_⟩
  · exact accept_setback (stopped_not hkept hs) hrun acts now error
  · rw [alarmed_iff (served_begun hserved hkept.reports), hlisted]
    constructor
    · rintro ⟨r, hr, hdenies⟩
      obtain ⟨cause, rfl⟩ := mem_ofServer hr
      obtain ⟨error, herror, hdenies⟩ := (Failure.network_denies_iff cause).mp hdenies
      exact ⟨cause, error, List.mem_of_mem_filter hr, herror, hdenies⟩
    · rintro ⟨cause, error, hr, herror, hdenies⟩
      exact ⟨_, List.mem_filter.mpr ⟨hr, rfl⟩,
        (Failure.network_denies_iff cause).mpr ⟨error, herror, hdenies⟩⟩

def barredSteps : List (Nat × Step) :=
  [(0, .run .begun), (0, .run .bound), (0, .run (.located default)), (0, .run .opened),
    (1, .run (.accepted (guest 1) .admitted)), (1, .resume 0), (2, .handler 0 .clientReady),
    (3, .handler 0 (.targetFailed (.connect "example.org:80" (.system 13))))]

/-- The program ends over an accept that is not permitted, while the server accepts again. -/
theorem failures_weighed_barred : ∃ e acts f more g,
    runAll stepAt barredSteps (make tightSetup ⟨1, true, false, 1, [], [], []⟩) = some (e, acts) ∧
    alarmed acts = false ∧
    e.step 4 (.run (.acceptFailed (.system 13))) = some (f, more) ∧
    f.step 104 (.run .rested) = some (g, []) ∧ g.run = .accepting default ∧
    alarmed (acts ++ more) = true := by
  have hends : (runAll stepAt barredSteps (make tightSetup ⟨1, true, false, 1, [], [], []⟩)).map
      (fun r => (r.1.run, reports r.2)) = some (.accepting default,
        [(.network (.connect "example.org:80" (.system 13)), .networkIo)]) := rfl
  obtain ⟨⟨e, acts⟩, hrun, hends⟩ := Option.map_eq_some_iff.mp hends
  obtain ⟨hphase, hreports⟩ := Prod.mk.inj hends
  have hpool : Pool.make 1 = .ok ⟨1, true, false, 1, [], [], []⟩ := rfl
  have hweighed := failures_weighed hpool hrun
  have hquiet : alarmed acts = false := by
    rw [Bool.eq_false_iff, ne_eq, alarmed_iff (by simp [hreports]), hreports]
    simp [ofServer]
  obtain ⟨f, more, hstep, hsetback⟩ :=
    hweighed.failing (by simp [barredSteps]) default hphase 4 (.system 13)
  obtain ⟨g, hwakes, hg⟩ := hsetback.wakes 104 (Nat.le_refl _)
  have hdenies : (Failure.io (.system 13)).DeniesPort :=
    (Failure.system_denies_iff 13).mpr (by decide)
  exact ⟨e, acts, f, more, g, hrun, hquiet, hstep, hwakes, hg,
    hsetback.alarm.mpr (.inr hdenies)⟩

end Engine
end Wiretap
