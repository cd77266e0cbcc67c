import Wiretap.Proofs.Engine.Closing
import Wiretap.Proofs.Server.Progress

/-! What the accept loop of an engine owes. Every accepted client is asked about once
and handed on or not, whatever else goes on in between; every verdict and every
failed accept is accounted for; and the loop goes on until it is asked to stop. -/

set_option autoImplicit false

namespace Wiretap

def Verdict.admits : Verdict → Bool
  | .unasked => true
  | .admitted => true
  | _ => false

namespace Engine

inductive Dealing where
  | asked (client : Client)
  | admitted (client : Client)

def Action.dealing? : Action → Option Dealing
  | .server (.asked c) => some (.asked c)
  | .server (.admitted c) => some (.admitted c)
  | _ => none

def Action.admitted? : Action → Option Client
  | .server (.admitted c) => some c
  | _ => none

def Action.serverReport? : Action → Option (Failure × Category)
  | .server (.reported error category) => some (error, category)
  | _ => none

def dealings (c : Client) : Verdict → List Dealing
  | .unasked => [.admitted c]
  | .admitted => [.asked c, .admitted c]
  | .refused _ => [.asked c]
  | .brokeOff _ => [.asked c]

def Step.met? : Step → Option (Client × Verdict)
  | .run (.accepted c v) => some (c, v)
  | _ => none

def Step.stops : Step → Bool
  | .stop => true
  | _ => false

def met (steps : List Step) : List (Client × Verdict) := steps.filterMap Step.met?

def welcome (steps : List Step) : List Client := ((met steps).filter (·.2.admits)).map (·.1)

def Step.owes (up : Bool) : Step → List (Failure × Category)
  | .run (.accepted _ (.refused error)) => [(.session error, .connectionHandling)]
  | .run (.acceptFailed error) => if up then [] else [(.network (.accept error), .proxyServer)]
  | .run (.bindFailed error) => [(.network error, .proxyServer)]
  | .run (.locateFailed error) => [(.network (.bind error), .proxyServer)]
  | _ => []

def owed : Bool → List Step → List (Failure × Category)
  | _, [] => []
  | up, step :: steps => step.owes up ++ owed (up || step.stops) steps

structure Accounts (e : Engine) (step : Step) (f : Engine) (acts : List Action) : Prop where
  dealt : acts.filterMap Action.dealing? = step.met?.toList.flatMap fun m => dealings m.1 m.2
  clients : f.clients = e.clients ++ welcome [step]
  reports : acts.filterMap Action.serverReport? = step.owes e.server.stopRequested
  after : ∀ k i a, acts[k]? = some (.handler i a) →
    i < e.clients.length + ((acts.take k).filterMap Action.admitted?).length

inductive Steers (e : Engine) : Step → Engine → Prop where
  | meets {event : Server.Event} {f : Engine} {said : List Server.Action}
    (move : Server.Move e.server e.run event f.server f.run said) : Steers e (.run event) f
  | called {f : Engine} (ended : e.run = .ended) (server : f.server = e.server)
    (run : f.run = .waiting) : Steers e .call f
  | stopped {f : Engine} (server : f.server = e.server.stop) (run : f.run = e.run) :
    Steers e .stop f
  | other {step : Step} {f : Engine} (on : step.stops = false) (server : f.server = e.server)
    (run : f.run = e.run) : Steers e step f

section
variable {e f : Engine} {now i : Nat} {step : Step} {acts : List Action} {c : Client}

theorem submit_server (e : Engine) (c : Client) :
    (e.submit c).1.server = e.server ∧ (e.submit c).1.run = e.run := by
  cases h : e.pool.submit.2 with
  | true => rw [submit_accepted h c]; exact ⟨rfl, rfl⟩
  | false => rw [submit_rejected h c]; exact ⟨rfl, rfl⟩

theorem follow_server (e : Engine) (said : List Server.Action) :
    (e.follow said).1.server = e.server ∧ (e.follow said).1.run = e.run := by
  induction said generalizing e with
  | nil => exact ⟨rfl, rfl⟩
  | cons a said ih =>
    cases a with
    | admitted c =>
      obtain ⟨hserver, hrun⟩ := submit_server e c
      obtain ⟨hserver', hrun'⟩ := ih (e.submit c).1
      exact ⟨hserver'.trans hserver, hrun'.trans hrun⟩
    | _ => exact ih e

theorem runStep_eq {event : Server.Event} (h : e.runStep now event = some (f, acts)) :
    ∃ server run said, Server.Move e.server e.run event server run said ∧
      ({ e with server, run } : Engine).follow said = (f, acts) := by
  obtain ⟨⟨server, run, said⟩, hs, h⟩ := Option.map_eq_some_iff.mp h
  exact ⟨server, run, said, Server.move_of_step hs, h⟩

theorem handlerStep_server {event : Handler.Event}
    (h : e.handlerStep now i event = some (f, acts)) :
    f.server = e.server ∧ f.run = e.run := by
  unfold handlerStep at h
  obtain ⟨c, hc, h⟩ := Option.bind_eq_some_iff.mp h
  obtain ⟨phase, hp, h⟩ := Option.bind_eq_some_iff.mp h
  obtain ⟨⟨next, done⟩, hs, h⟩ := Option.bind_eq_some_iff.mp h
  cases h
  cases next <;> exact ⟨rfl, rfl⟩

theorem resume_eq (h : e.resume now i = some (f, acts)) :
    ∃ pool, e.pool.resume i = some pool ∧
      (({ e with pool } : Engine).handlerStep now i .begun = some (f, acts) ∨
        (∃ done, ({ e with pool } : Engine).handlerStep now i .dropped = some (f, done) ∧
          acts = .logged Pool.cancelledTask :: done) ∨
        f = { e with pool } ∧ acts = []) := by
  unfold resume at h
  obtain ⟨pool, hpool, h⟩ := Option.bind_eq_some_iff.mp h
  refine ⟨pool, hpool, ?_⟩
  split at h
  · exact .inl h
  · obtain ⟨⟨g, done⟩, hg, h⟩ := Option.map_eq_some_iff.mp h
    cases h
    exact .inr (.inl ⟨done, hg, rfl⟩)
  · cases h
    exact .inr (.inr ⟨rfl, rfl⟩)

theorem step_steers (h : e.step now step = some (f, acts)) : Steers e step f := by
  cases step with
  | call =>
    simp only [Engine.step, Option.ite_none_right_eq_some] at h
    obtain ⟨hended, h⟩ := h
    cases h
    exact .called hended rfl rfl
  | run event =>
    obtain ⟨server, run, said, hmove, hfollow⟩ := runStep_eq h
    obtain ⟨hserver, hrun⟩ : f.server = server ∧ f.run = run := by
      have hkept := follow_server { e with server, run } said
      rwa [hfollow] at hkept
    have hmeets : Server.Move e.server e.run event f.server f.run said := by
      rwa [hserver, hrun]
    exact .meets hmeets
  | resume i =>
    obtain ⟨pool, -, hbegun | ⟨done, hdropped, -⟩ | ⟨rfl, -⟩⟩ := resume_eq h
    · obtain ⟨hserver, hrun⟩ := handlerStep_server hbegun
      exact .other rfl hserver hrun
    · obtain ⟨hserver, hrun⟩ := handlerStep_server hdropped
      exact .other rfl hserver hrun
    · exact .other rfl rfl rfl
  | handler i event =>
    simp only [Engine.step, Option.ite_none_right_eq_some] at h
    obtain ⟨hserver, hrun⟩ := handlerStep_server h.2
    exact .other rfl hserver hrun
  | stop =>
    cases h
    exact .stopped rfl rfl
  | _ =>
    cases h
    exact .other rfl rfl rfl

/-- A step that is about the handlers there are already, as far as anything is said in it. -/
theorem accounts_quiet (hm : step.met? = none) (ho : step.owes e.server.stopRequested = [])
    (hc : f.clients = e.clients)
    (hsaid : ∀ a ∈ acts, (∃ line, a = .logged line) ∨
      ∃ i b, a = .handler i b ∧ i < e.clients.length) : Accounts e step f acts := by
  have hnone : ∀ {β : Type} (g : Action → Option β), (∀ line, g (.logged line) = none) →
      (∀ i b, g (.handler i b) = none) → acts.filterMap g = [] := by
    intro β g hl hh
    refine List.filterMap_eq_nil_iff.mpr fun a ha => ?_
    obtain ⟨line, rfl⟩ | ⟨i, b, rfl, -⟩ := hsaid a ha
    · exact hl line
    · exact hh i b
  refine ⟨?_, ?_, ?_, fun k i a hk => ?_⟩
  · rw [hm]
    exact hnone _ (fun _ => rfl) (fun _ _ => rfl)
  · simp [hc, welcome, met, hm]
  · rw [ho]
    exact hnone _ (fun _ => rfl) (fun _ _ => rfl)
  · obtain ⟨line, hline⟩ | ⟨j, b, heq, hj⟩ := hsaid _ (List.mem_of_getElem? hk)
    · cases hline
    · cases heq
      omega

theorem handlerStep_quiet {event : Handler.Event} (h : e.handlerStep now i event = some (f, acts)) :
    f.clients = e.clients ∧ ∀ a ∈ acts, ∃ i b, a = .handler i b ∧ i < e.clients.length := by
  obtain ⟨c, phase, next, done, hc, -, -, rfl, -, hclients, -⟩ := handlerStep_eq h
  obtain ⟨hi, -⟩ := List.getElem?_eq_some_iff.mp hc
  refine ⟨hclients, fun a ha => ?_⟩
  obtain ⟨b, -, rfl⟩ := List.mem_map.mp ha
  exact ⟨i, b, rfl, hi⟩

theorem resume_accounts (h : e.resume now i = some (f, acts)) :
    Accounts e (.resume i) f acts := by
  obtain ⟨pool, -, hbegun | ⟨done, hdropped, rfl⟩ | ⟨rfl, rfl⟩⟩ := resume_eq h
  · obtain ⟨hclients, hsaid⟩ := handlerStep_quiet hbegun
    exact accounts_quiet rfl rfl hclients fun a ha => .inr (hsaid a ha)
  · obtain ⟨hclients, hsaid⟩ := handlerStep_quiet hdropped
    refine accounts_quiet rfl rfl hclients fun a ha => ?_
    rcases List.mem_cons.mp ha with rfl | ha
    · exact .inl ⟨_, rfl⟩
    · exact .inr (hsaid a ha)
  · exact accounts_quiet rfl rfl rfl (by simp)

/-- What a submission says is about the new handler, if anything. -/
theorem submit_quiet (hp : Paired e) (c : Client) : (e.submit c).1.clients = e.clients ++ [c] ∧
    (e.submit c).2.filterMap Action.dealing? = [] ∧
    (e.submit c).2.filterMap Action.serverReport? = [] ∧
    ∀ i b, .handler i b ∈ (e.submit c).2 → i = e.clients.length := by
  cases h : e.pool.submit.2 with
  | true =>
    rw [submit_accepted h c]
    exact ⟨rfl, rfl, rfl, by simp⟩
  | false =>
    have hnone : ∀ {β : Type} (g : Action → Option β) (j : Nat) (done : List Handler.Action),
        (∀ i b, g (.handler i b) = none) → (done.map (Action.handler j)).filterMap g = [] := by
      intro β g j done hg
      refine List.filterMap_eq_nil_iff.mpr fun a ha => ?_
      obtain ⟨b, -, rfl⟩ := List.mem_map.mp ha
      exact hg j b
    rw [submit_rejected h c]
    refine ⟨rfl, ?_, ?_, fun i b hb => ?_⟩
    · rw [List.filterMap_append, hnone _ _ _ fun _ _ => rfl]
      rfl
    · rw [List.filterMap_append, hnone _ _ _ fun _ _ => rfl]
      rfl
    · rw [hp.clients]
      rcases List.mem_append.mp hb with hb | hb
      · obtain ⟨_, -, heq⟩ := List.mem_map.mp hb
        cases heq
        rfl
      · cases List.mem_singleton.mp hb

/-- A run of the server that neither asks about a client nor hands one on. -/
theorem plain_accounts {said : List Server.Action} (hplain : ∀ a ∈ said, a.isPlain = true)
    (hc : f.clients = e.clients) (hm : step.met? = none)
    (hr : (said.map Action.server).filterMap Action.serverReport? =
      step.owes e.server.stopRequested) : Accounts e step f (said.map .server) := by
  refine ⟨?_, by simp [hc, welcome, met, hm], hr, fun k i a hk => ?_⟩
  · rw [hm]
    refine List.filterMap_eq_nil_iff.mpr fun b hb => ?_
    obtain ⟨a, ha, rfl⟩ := List.mem_map.mp hb
    have := hplain a ha
    cases a <;> first | rfl | cases this
  · obtain ⟨b, -, heq⟩ := List.mem_map.mp (List.mem_of_getElem? hk)
    cases heq

theorem follow_dispatch (e : Engine) (c : Client) (v : Verdict) :
    e.follow (Server.dispatch c v) = (if v.admits then (e.submit c).1 else e,
      (Server.dispatch c v).map .server ++ if v.admits then (e.submit c).2 else []) := by
  cases v <;> simp [Server.dispatch, Server.noteOn, Server.note, follow, Verdict.admits]

theorem dispatch_accounts (hp : Paired e) (c : Client) (v : Verdict) :
    Accounts e (.run (.accepted c v)) (e.follow (Server.dispatch c v)).1
      (e.follow (Server.dispatch c v)).2 := by
  obtain ⟨hclients, hdealt, hreports, hnew⟩ := submit_quiet hp c
  rw [follow_dispatch]
  refine ⟨?_, ?_, ?_, fun k i a hk => ?_⟩
  · have hrest : (if v.admits then (e.submit c).2 else []).filterMap Action.dealing? = [] := by
      split <;> simp [hdealt]
    rw [List.filterMap_append, hrest]
    cases v <;> rfl
  · cases v <;> simp [hclients, welcome, met, Step.met?, Verdict.admits]
  · have hrest : (if v.admits then (e.submit c).2 else []).filterMap Action.serverReport? = [] := by
      split <;> simp [hreports]
    rw [List.filterMap_append, hrest]
    cases v <;> rfl
  · rw [List.getElem?_append] at hk
    split at hk
    · obtain ⟨b, -, heq⟩ := List.mem_map.mp (List.mem_of_getElem? hk)
      cases heq
    · rename_i hlast
      cases hadmits : v.admits with
      | false => simp [hadmits] at hk
      | true =>
        have hi : i = e.clients.length := hnew i a (by
          rw [hadmits] at hk
          exact List.mem_of_getElem? hk)
        have hone : ((Server.dispatch c v).map Action.server).filterMap Action.admitted? = [c] := by
          cases v <;> first | rfl | cases hadmits
        rw [List.take_append, List.take_of_length_le (by omega), List.filterMap_append, hone]
        simp
        omega

/-- Each move of a run reports what it owes. -/
theorem move_owes {s q : Server} {phase next : Server.Phase} {event : Server.Event}
    {said : List Server.Action} (m : Server.Move s phase event q next said) :
    (said.map Action.server).filterMap Action.serverReport? =
      (Step.run event).owes s.stopRequested := by
  cases m with
  | accepts a c v down => cases v <;> rfl
  | rests a error resume down =>
    rw [down]
    rfl
  | stops a event up first last why =>
    obtain rfl | ⟨error, rfl⟩ := why
    · rfl
    · rw [up]
      rfl
  | _ => rfl

theorem move_plain {s q : Server} {phase next : Server.Phase} {event : Server.Event}
    {said : List Server.Action} (m : Server.Move s phase event q next said) :
    (∃ c v, event = .accepted c v ∧ said = Server.dispatch c v) ∨
      (Step.run event).met? = none ∧ ∀ a ∈ said, a.isPlain = true := by
  cases m with
  | accepts a c v down => exact .inl ⟨c, v, rfl, rfl⟩
  | stops a event up first last why =>
    refine .inr ⟨?_, by simp [Server.Action.isPlain]⟩
    obtain rfl | ⟨error, rfl⟩ := why <;> rfl
  | _ => exact .inr ⟨rfl, by simp [Server.Action.isPlain]⟩

theorem runStep_accounts {event : Server.Event} (hp : Paired e)
    (h : e.runStep now event = some (f, acts)) : Accounts e (.run event) f acts := by
  obtain ⟨server, run, said, hmove, hfollow⟩ := runStep_eq h
  have howes := move_owes hmove
  obtain ⟨c, v, rfl, rfl⟩ | ⟨hm, hplain⟩ := move_plain hmove
  · have hq : Paired { e with server, run } := ⟨hp.orderly, hp.stages, hp.clients⟩
    have haccounts := dispatch_accounts hq c v
    rw [hfollow] at haccounts
    obtain ⟨dealt, clients, reports, after⟩ := haccounts
    refine ⟨dealt, clients, ?_, after⟩
    rw [reports]
    cases v <;> rfl
  · rw [follow_plain hplain] at hfollow
    cases hfollow
    exact plain_accounts hplain rfl hm howes

/-- Every step of an engine keeps the accounts. -/
theorem step_accounts (hp : Paired e) (h : e.step now step = some (f, acts)) :
    Accounts e step f acts := by
  cases step with
  | call =>
    simp only [Engine.step, Option.ite_none_right_eq_some] at h
    obtain ⟨-, h⟩ := h
    cases h
    exact accounts_quiet rfl rfl rfl (by simp)
  | run event => exact runStep_accounts hp h
  | resume i => exact resume_accounts h
  | handler i event =>
    simp only [Engine.step, Option.ite_none_right_eq_some] at h
    obtain ⟨hclients, hsaid⟩ := handlerStep_quiet h.2
    exact accounts_quiet rfl rfl hclients fun a ha => .inr (hsaid a ha)
  | _ =>
    cases h
    exact accounts_quiet rfl rfl rfl (by simp)

/-- The flag of the server is raised by a stop, and never lowered. -/
theorem steers_flag (h : Steers e step f) :
    f.server.stopRequested = (e.server.stopRequested || step.stops) := by
  cases h with
  | meets move => rw [Server.Tenure.move_flag move]; simp [Step.stops]
  | called ended server run => simp [server, Step.stops]
  | stopped server run => simp [server, Step.stops]
  | other on server run => simp [server, on]

theorem owed_concat (up : Bool) (steps : List Step) (step : Step) :
    owed up (steps ++ [step]) = owed up steps ++ step.owes (up || steps.any Step.stops) := by
  induction steps generalizing up with
  | nil => simp [owed]
  | cons s steps ih => simp [owed, ih, Bool.or_assoc]

theorem met_concat (steps : List Step) (step : Step) :
    met (steps ++ [step]) = met steps ++ step.met?.toList := by
  rw [met, List.filterMap_append, met]
  cases h : step.met? <;> simp [h]

theorem welcome_append (steps others : List Step) :
    welcome (steps ++ others) = welcome steps ++ welcome others := by
  simp [welcome, met]

def Dealing.admitted? : Dealing → Option Client
  | .asked _ => none
  | .admitted c => some c

/-- Those that were handed on are those that nobody objected to. -/
theorem dealt_welcome {steps : List Step}
    (h : acts.filterMap Action.dealing? = (met steps).flatMap fun m => dealings m.1 m.2) :
    acts.filterMap Action.admitted? = welcome steps := by
  have hsame : acts.filterMap Action.admitted? =
      (acts.filterMap Action.dealing?).filterMap Dealing.admitted? := by
    rw [List.filterMap_filterMap]
    congr 1
    funext a
    cases a with
    | server b => cases b <;> rfl
    | _ => rfl
  rw [hsame, h, welcome]
  induction met steps with
  | nil => rfl
  | cons m rest ih =>
    obtain ⟨c, v⟩ := m
    rw [List.flatMap_cons, List.filterMap_append, ih]
    cases v <;> rfl

end

structure Kept (steps : List Step) (e : Engine) (acts : List Action) : Prop where
  paired : Paired e
  flag : e.server.stopRequested = steps.any Step.stops
  dealt : acts.filterMap Action.dealing? = (met steps).flatMap fun m => dealings m.1 m.2
  clients : e.clients = welcome steps
  reports : acts.filterMap Action.serverReport? = owed false steps
  after : ∀ k i a, acts[k]? = some (.handler i a) →
    i < ((acts.take k).filterMap Action.admitted?).length

section
variable {e f : Engine} {now : Nat} {step : Step} {steps : List Step} {acts more : List Action}

theorem kept_step (h : Kept steps e acts) (hs : e.step now step = some (f, more)) :
    Kept (steps ++ [step]) f (acts ++ more) := by
  obtain ⟨hpaired, hflag, hdealt, hclients, hreports, hafter⟩ := h
  obtain ⟨dealt, clients, reports, after⟩ := step_accounts hpaired hs
  refine ⟨(step_lawful hpaired hs).2, ?_, ?_, ?_, ?_, fun k i a hk => ?_⟩
  · rw [steers_flag (step_steers hs), hflag]
    simp
  · rw [List.filterMap_append, hdealt, dealt, met_concat, List.flatMap_append]
  · rw [clients, hclients, welcome_append]
  · rw [List.filterMap_append, hreports, reports, owed_concat, hflag, Bool.false_or]
  · rw [List.getElem?_append] at hk
    split at hk
    · rename_i hlt
      rw [List.take_append_of_le_length (by omega)]
      exact hafter k i a hk
    · rename_i hge
      have hhere := after _ i a hk
      rw [List.take_append, List.take_of_length_le (by omega), List.filterMap_append,
        dealt_welcome hdealt, List.length_append, ← hclients]
      exact hhere

theorem run_kept {setup : Setup} {pool : Pool} {limit : Nat} (hpool : Pool.make limit = .ok pool)
    {inputs : List (Nat × Step)} (h : runAll stepAt inputs (make setup pool) = some (e, acts)) :
    Kept (inputs.map (·.2)) e acts := by
  refine run_invariant (P := fun inputs e acts => Kept (inputs.map (·.2)) e acts)
    (fun inputs e acts i f more hkept hs => ?_) ?_ h
  · rw [List.map_append]
    exact kept_step hkept hs
  · exact ⟨make_paired hpool, rfl, rfl, rfl, rfl, by simp⟩

end

/-- What is due of an accept loop after any steps. -/
structure Accounted (steps : List Step) (e : Engine) (acts : List Action) : Prop where
  -- Everybody accepted is asked about once, when there is somebody to ask, and then handed on if
  -- nobody objected, in the order of acceptance.
  dealt : acts.filterMap Action.dealing? = (met steps).flatMap fun m => dealings m.1 m.2
  clients : e.clients = welcome steps
  tasks : e.handlers.length = e.clients.length ∧ e.pool.tasks.length = e.clients.length
  -- A handler does something only after its client was handed on.
  after : ∀ k i a, acts[k]? = some (.handler i a) →
    i < ((acts.take k).filterMap Action.admitted?).length
  -- No handler does anything for a client that was refused or about which the one who was asked
  -- broke off.
  refused : ∀ m ∈ met steps, m.2.admits = false → (∀ n ∈ met steps, n.1.id = m.1.id → n = m) →
    ∀ i a, .handler i a ∈ acts → ∃ c, e.clients[i]? = some c ∧ c.id ≠ m.1.id
  reports : acts.filterMap Action.serverReport? = owed false steps
  -- Only a stop lets the loop end by itself.
  ends : e.run.isLoop = true → ∀ now event f more, e.step now (.run event) = some (f, more) →
    f.run.isLoop = false → event = .dropped ∨ .stop ∈ steps
  -- Until then every client and every failure is met, and the loop is back after its rest.
  goes : .stop ∉ steps → ∀ bound, e.run = .accepting bound → ∀ now,
    (∀ c v, ∃ f more, e.step now (.run (.accepted c v)) = some (f, more) ∧
      f.run = .accepting bound) ∧
    ∀ error, ∃ f more, e.step now (.run (.acceptFailed error)) = some (f, more) ∧
      f.run = .resting bound (now + Server.restMillis)
  wakes : ∀ bound resume, e.run = .resting bound resume → ∀ now, resume ≤ now →
    ∃ f, e.step now (.run .rested) = some (f, []) ∧ f.run = .accepting bound
  closed : .stop ∈ steps → ∀ now c v, e.step now (.run (.accepted c v)) = none

section
variable {e f : Engine} {now : Nat} {steps : List Step} {acts more : List Action}

theorem stopped_iff (h : Kept steps e acts) :
    e.server.stopRequested = true ↔ .stop ∈ steps := by
  rw [h.flag, List.any_eq_true]
  refine ⟨fun ⟨step, hin, hstops⟩ => ?_, fun hin => ⟨.stop, hin, rfl⟩⟩
  cases step <;> first | exact hin | cases hstops

theorem stopped_not (h : Kept steps e acts) (hs : .stop ∉ steps) :
    e.server.stopRequested = false := by
  cases hflag : e.server.stopRequested with
  | false => rfl
  | true => exact absurd ((stopped_iff h).mp hflag) hs

theorem move_leaves {s q : Server} {phase next : Server.Phase} {event : Server.Event}
    {said : List Server.Action} (m : Server.Move s phase event q next said)
    (hl : phase.isLoop = true) (hn : next.isLoop = false) :
    event = .dropped ∨ s.stopRequested = true := by
  cases m with
  | stops a event up => exact .inr up
  | dropped => exact .inl rfl
  | accepts => cases hn
  | rests => cases hn
  | wakes => cases hn
  | _ => cases hl

theorem run_steps {server : Server} {phase : Server.Phase} {event : Server.Event}
    {said : List Server.Action}
    (h : e.server.step e.setup.server now e.run event = some (server, phase, said)) :
    ∃ f, e.step now (.run event) = some (f, (({ e with server, run := phase } : Engine).follow
      said).2) ∧ f.run = phase := by
  refine ⟨(({ e with server, run := phase } : Engine).follow said).1, ?_, ?_⟩
  · rw [Engine.step, runStep, h]
    rfl
  · exact (follow_server _ said).2

theorem kept_accounted (h : Kept steps e acts) : Accounted steps e acts := by
  have hwelcome := dealt_welcome h.dealt
  refine ⟨h.dealt, h.clients, ⟨h.paired.clients.symm, ?_⟩, h.after, ?_, h.reports, ?_, ?_, ?_, ?_⟩
  · have hlengths := congrArg List.length h.paired.stages
    simpa [Pool.stages, h.paired.clients] using hlengths
  · intro m hm hadmits honly i a ha
    obtain ⟨k, hk⟩ := List.mem_iff_getElem?.mp ha
    have hi : i < e.clients.length := by
      have hbefore := h.after k i a hk
      have hprefix := ((List.take_sublist k acts).filterMap Action.admitted?).length_le
      rw [hwelcome, ← h.clients] at hprefix
      omega
    refine ⟨e.clients[i], List.getElem?_eq_getElem hi, fun hid => ?_⟩
    have hin : e.clients[i] ∈ welcome steps := h.clients ▸ List.getElem_mem hi
    obtain ⟨n, hn, hclient⟩ := List.mem_map.mp hin
    obtain ⟨hmet, hgood⟩ := List.mem_filter.mp hn
    rw [← hclient] at hid
    rw [honly n hmet hid, hadmits] at hgood
    cases hgood
  · intro hloop now event f more hs hleft
    cases step_steers hs with
    | meets move => exact (move_leaves move hloop hleft).imp_right (stopped_iff h).mp
    | other on server run => rw [run, hloop] at hleft; cases hleft
  · intro hs bound hrun now
    have hdown := stopped_not h hs
    refine ⟨fun c v => ?_, fun error => ?_⟩
    · have hstep : e.server.step e.setup.server now e.run (.accepted c v) =
          some (e.server, .accepting bound, Server.dispatch c v) := by
        simp [Server.step, Server.acceptStep, hrun, hdown]
      obtain ⟨f, hf, hphase⟩ := run_steps hstep
      exact ⟨f, _, hf, hphase⟩
    · have hstep : e.server.step e.setup.server now e.run (.acceptFailed error) =
          some (e.server, .resting bound (now + Server.restMillis),
            [.reported (.network (.accept error)) .proxyServer]) := by
        simp [Server.step, Server.acceptStep, hrun, hdown]
      obtain ⟨f, hf, hphase⟩ := run_steps hstep
      exact ⟨f, _, hf, hphase⟩
  · intro bound resume hrun now hresume
    have hstep : e.server.step e.setup.server now e.run .rested =
        some (e.server, .accepting bound, []) := by
      simp [Server.step, hrun, hresume]
    exact run_steps hstep
  · intro hs now c v
    have hup := (stopped_iff h).mpr hs
    have hnone : e.server.step e.setup.server now e.run (.accepted c v) = none := by
      unfold Server.step
      generalize e.run = phase
      cases phase <;> simp [Server.acceptStep, hup]
    simp [Engine.step, runStep, hnone]

end

/-- Whatever is accepted, whatever comes of asking, whichever accepts fail and whenever the
server is asked to stop, among all else that an engine does meanwhile. -/
theorem accept_loop_accounted {setup : Setup} {pool : Pool} {limit : Nat}
    (hpool : Pool.make limit = .ok pool) {inputs : List (Nat × Step)} {e : Engine}
    {acts : List Action} (h : runAll stepAt inputs (make setup pool) = some (e, acts)) :
    Accounted (inputs.map (·.2)) e acts :=
  kept_accounted (run_kept hpool h)

def pickySteps : List (Nat × Step) :=
  [(0, .run .begun), (0, .run .bound), (0, .run (.located default)), (0, .run .opened),
    (1, .run (.acceptFailed default)), (101, .run .rested),
    (102, .run (.accepted (guest 1) (.refused .poolClosed))),
    (103, .run (.accepted (guest 2) (.brokeOff "no"))),
    (104, .run (.accepted (guest 3) .admitted)), (104, .resume 0), (105, .stop),
    (106, .run (.acceptFailed default))]

theorem accept_loop_accounted_picky : ∃ e acts,
    runAll stepAt pickySteps (make tightSetup ⟨1, true, false, 1, [], [], []⟩) = some (e, acts) ∧
    e.run = .ended ∧ e.clients = [guest 3] ∧
    acts.filterMap Action.dealing? =
      [.asked (guest 1), .asked (guest 2), .asked (guest 3), .admitted (guest 3)] ∧
    acts.filterMap Action.serverReport? =
      [(.network (.accept default), .proxyServer), (.session .poolClosed, .connectionHandling)] ∧
    Accounted (pickySteps.map (·.2)) e acts := by
  have hends : (runAll stepAt pickySteps (make tightSetup ⟨1, true, false, 1, [], [], []⟩)).map
      (·.1.run) = some .ended := rfl
  obtain ⟨⟨e, acts⟩, hrun, hended⟩ := Option.map_eq_some_iff.mp hends
  have hpool : Pool.make 1 = .ok ⟨1, true, false, 1, [], [], []⟩ := rfl
  have haccounted := accept_loop_accounted hpool hrun
  exact ⟨e, acts, hrun, hended, haccounted.clients, haccounted.dealt, haccounted.reports,
    haccounted⟩

end Engine
end Wiretap
