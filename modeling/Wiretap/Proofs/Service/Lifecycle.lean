import Wiretap.Proofs.Service.Seats
import Wiretap.Proofs.Service.Starts

/-! The life of a connection as subscribers see it, along every run of a
service: accepting, relaying and closing on many connections at once, stops and
later starts. -/

set_option autoImplicit false

namespace Wiretap.Service
open Engine (marks)
open Manager (Hosted Capture)

def stepAt (s : Service) (input : Timestamp × Nat × Step) :
    Option (Service × List Manager.Action) := s.step input.1 input.2.1 input.2.2

def Step.accepted? : Step → Option Client
  | .engine _ step => step.accepted?
  | _ => none

def acceptedIds (inputs : List (Timestamp × Nat × Step)) : List ConnectionId :=
  inputs.filterMap fun input => input.2.2.accepted?.map (·.id)

def events (s : Service) : List RegistryEvent := s.recorder.feed.published.reverse

def status? (s : Service) (k i : Nat) : Option TaskStatus :=
  s.manager.engines[k]?.bind fun h => h.engine.pool.status i

def Consistent (ids : List ConnectionId) (capture : Capture) (s : Service) : Prop :=
  Recorded ids capture s.manager.engines s.recorder.book ∧ s.manager.capture = capture

section
variable {ids : List ConnectionId} {capture : Capture} {engines : List Hosted} {b : Book}
  {m after : Manager} {s t : Service} {time : Timestamp} {k now : Nat}
  {acts : List Manager.Action} {sink : Sink}

theorem recorded_clear (h : Recorded ids capture engines b) :
    Recorded ids capture engines (b.apply .clear) := by
  have hclear := Book.clear_changes h.sound
  refine ⟨h.hosted, hclear.sound, fun id hid => h.heard id ((hclear.registered id).mp hid),
    h.known, h.distinct, fun l j d p _ active hactive => ?_⟩
  rw [hclear.activity_eq] at hactive
  cases hactive

/-- An engine without handlers takes no seats. -/
theorem recorded_host {host : Hosted} (h : Recorded ids capture engines b)
    (hp : host.engine.Paired) (hs : host.engine.setup.sink = capture.sink)
    (hc : host.engine.clients = []) : Recorded ids capture (engines ++ [host]) b := by
  have hseat : ∀ l j d p, Seat (engines ++ [host]) l j d p → Seat engines l j d p := by
    rintro l j d p ⟨g, hg, hd, hq⟩
    by_cases hl : l < engines.length
    · rw [List.getElem?_append_left hl] at hg
      exact ⟨g, hg, hd, hq⟩
    · have hlast : g = host := by
        rw [List.getElem?_append_right (by omega)] at hg
        exact List.mem_singleton.mp (List.mem_of_getElem? hg)
      rw [hlast, hc] at hd
      cases hd
  refine ⟨fun g hg => ?_, h.sound, h.heard, fun l j d p hs => h.known l j d p (hseat l j d p hs),
    fun l j d p l' j' d' p' hs hs' =>
      h.distinct l j d p l' j' d' p' (hseat l j d p hs) (hseat l' j' d' p' hs'),
    fun l j d p hs => h.agrees l j d p (hseat l j d p hs)⟩
  rcases List.mem_append.mp hg with hg | hg
  · exact h.hosted g hg
  · rw [List.mem_singleton.mp hg]
    exact ⟨hp, hs⟩

/-- A start makes one engine at most, which has no handlers yet. -/
theorem start_cases {d : Draw} {i : Nat} {result : Except StartStop Unit}
    (h : m.start d i = (result, after, acts)) :
    after.capture = m.capture ∧ (∀ a ∈ acts, ∀ number b, a ≠ .engine number b) ∧
      (after.engines = m.engines ∨ ∃ host : Hosted, after.engines = m.engines ++ [host] ∧
        host.engine.Paired ∧ host.engine.setup.sink = m.capture.sink ∧
        host.engine.clients = []) := by
  refine ⟨?_, Manager.start_quiet h, ?_⟩
  · cases Manager.started_of_start h <;> rfl
  · cases Manager.started_of_start h with
    | hosts off s tls pool present made =>
      exact .inr ⟨⟨i, .make (m.engineSetup s tls) pool⟩, rfl, Engine.make_paired made, rfl, rfl⟩
    | _ => exact .inl rfl

theorem engineStep_cases {step : Engine.Step} (h : m.engineStep now k step = some (after, acts)) :
    ∃ host f done, m.engines[k]? = some host ∧ host.engine.step now step = some (f, done) ∧
      after.engines = replaced m.engines k host f ∧ after.capture = m.capture ∧
      acts = done.map (.engine k) := by
  unfold Manager.engineStep at h
  obtain ⟨host, hh, h⟩ := Option.bind_eq_some_iff.mp h
  obtain ⟨⟨f, done⟩, hs, h⟩ := Option.bind_eq_some_iff.mp h
  cases h
  refine ⟨host, f, done, hh, hs, ?_⟩
  split <;> exact ⟨rfl, rfl, rfl⟩

theorem release_cases (h : m.release now = some (k, after, acts)) :
    ∃ host f done line, m.engines[k]? = some host ∧ host.engine.step now .stop = some (f, done) ∧
      after.engines = replaced m.engines k host f ∧ after.capture = m.capture ∧
      acts = .logged line :: done.map (.engine k) := by
  unfold Manager.release at h
  obtain ⟨k', -, h⟩ := Option.bind_eq_some_iff.mp h
  obtain ⟨host, hh, h⟩ := Option.bind_eq_some_iff.mp h
  obtain ⟨⟨f, done⟩, hs, h⟩ := Option.bind_eq_some_iff.mp h
  cases h
  exact ⟨host, f, done, _, hh, hs, rfl, rfl, rfl⟩

/-- Everything that an engine did in a step reaches the registry. -/
theorem absorb_consistent {step : Engine.Step} {host : Hosted} {f : Engine}
    {done : List Engine.Action} (hk : capture.sink = some sink) (h : Consistent ids capture s)
    (hh : s.manager.engines[k]? = some host) (hs : host.engine.step now step = some (f, done))
    (hnew : ∀ c, step.accepted? = some c → c.id ∉ ids)
    (hengines : t.manager.engines = replaced s.manager.engines k host f)
    (hcapture : t.manager.capture = s.manager.capture)
    (hbook : t.recorder.book = s.recorder.book) :
    Consistent ((step.accepted?.map (·.id)).toList ++ ids) capture
      (absorbAll time t (done.map (.engine k))) := by
  obtain ⟨hrecorded, hsame⟩ := h
  obtain ⟨hpaired, -⟩ := hrecorded.hosted host (List.mem_of_getElem? hh)
  obtain ⟨hmove, hp⟩ := Engine.step_lawful hpaired hs
  obtain ⟨hmanager, hafter⟩ := absorbAll_engine time t k done
  have hclient : t.client? k = (f.clients[·]?) := by
    obtain ⟨hlt, -⟩ := List.getElem?_eq_some_iff.mp hh
    funext i
    simp [client?, hengines, replaced, List.getElem?_set_self hlt]
  refine ⟨?_, by rw [hmanager, hcapture, hsame]⟩
  rw [hmanager, hafter, hengines, hbook, hclient]
  exact recorded_move hk hrecorded hh hp hmove hnew rfl

/-- A start clears the registry before anything else. -/
theorem start_consistent {d : Draw} {session : Session} (h : Consistent ids capture s) :
    Consistent ids capture (s.start time d session).2.1 := by
  unfold start
  split
  · exact h
  · obtain ⟨hrecorded, hsame⟩ := h
    have hclear := recorded_clear hrecorded
    cases hstart : (s.manager.give session).1.start d (s.manager.give session).2 with
    | mk result rest =>
      obtain ⟨after, acts⟩ := rest
      obtain ⟨hcapture, hquiet, hengines⟩ := start_cases hstart
      have hbegun : Recorded ids capture after.engines (s.recorder.book.apply .clear) := by
        rcases hengines with he | ⟨host, he, hp, hsink, hc⟩
        · rw [he]
          exact hclear
        · rw [he]
          exact recorded_host hclear hp (by rw [hsink, ← hsame]; rfl) hc
      obtain ⟨hm, hb⟩ := absorbAll_quiet time
        { s with recorder := (s.recorder.apply .clear).2, manager := after } acts hquiet
      have hall : Consistent ids capture (absorbAll time
          { s with recorder := (s.recorder.apply .clear).2, manager := after } acts) := by
        refine ⟨?_, by rw [hm, ← hsame]; exact hcapture⟩
        rw [hm, hb, Recorder.apply_book]
        exact hbegun
      simp only [hstart]
      cases result with
      | error e => exact hall
      | ok _ => exact hall

/-- The registry agrees with the engines after every step. -/
theorem step_consistent {step : Step} (hk : capture.sink = some sink)
    (h : Consistent ids capture s) (hnew : ∀ c, step.accepted? = some c → c.id ∉ ids)
    (hs : s.step time now step = some (t, acts)) :
    Consistent ((step.accepted?.map (·.id)).toList ++ ids) capture t := by
  cases step with
  | start d session =>
    have ht : (s.start time d session).2.1 = t := congrArg Prod.fst (Option.some.inj hs)
    exact ht ▸ start_consistent h
  | release =>
    obtain ⟨⟨k, _, _⟩, hr, hs⟩ := Option.map_eq_some_iff.mp hs
    obtain ⟨⟨_, after, acts⟩, hr', hr⟩ := Option.map_eq_some_iff.mp hr
    cases hr
    cases hs
    obtain ⟨host, f, done, line, hh, hstop, hengines, hcapture, rfl⟩ := release_cases hr'
    have hstopped : ∀ t : Service, t.manager = after → t.recorder.book = s.recorder.book →
        Consistent ids capture (absorbAll time t (done.map (.engine k))) := by
      rintro t rfl hbook
      exact absorb_consistent hk h hh hstop (fun _ hc => by cases hc) hengines hcapture hbook
    exact hstopped (({ s with manager := after } : Service).log line) rfl rfl
  | engine k step =>
    obtain ⟨⟨after, acts⟩, he, hs⟩ := Option.map_eq_some_iff.mp hs
    cases hs
    obtain ⟨host, f, done, hh, hstep, hengines, hcapture, rfl⟩ := engineStep_cases he
    exact absorb_consistent hk h hh hstep hnew hengines hcapture rfl
  | finishStop i =>
    cases hs
    exact h
  | deactivate i =>
    cases hs
    exact h

theorem make_consistent (tuning : Tuning) (policy : ShutdownPolicy) (issuer : Option Issuer)
    (capture : Capture) : Consistent [] capture (make (.make tuning policy issuer capture)) := by
  have hnone : ∀ l j d p, ¬Seat [] l j d p := by
    rintro l j d p ⟨g, hg, -⟩
    cases hg
  have hempty : Book.empty.Sound :=
    ⟨fun id c hc => (by cases hc), fun id => ⟨.unheard, rfl, rfl⟩⟩
  exact ⟨⟨fun g hg => (by cases hg), hempty, fun id hid => (by cases hid),
    fun l j d p hs => absurd hs (hnone l j d p),
    fun l j d p _ _ _ _ hs => absurd hs (hnone l j d p),
    fun l j d p hs => absurd hs (hnone l j d p)⟩, rfl⟩

theorem accepted_concat (inputs : List (Timestamp × Nat × Step)) (i : Timestamp × Nat × Step) :
    acceptedIds (inputs ++ [i]) = acceptedIds inputs ++ (i.2.2.accepted?.map (·.id)).toList := by
  rw [acceptedIds, acceptedIds, List.filterMap_append]
  cases h : i.2.2.accepted? <;> simp [h]

/-- The registry agrees with the engines along every run in which all clients differ. -/
theorem run_consistent {tuning : Tuning} {policy : ShutdownPolicy} {issuer : Option Issuer}
    {inputs : List (Timestamp × Nat × Step)} (hk : capture.sink = some sink)
    (h : runAll stepAt inputs (make (.make tuning policy issuer capture)) = some (s, acts))
    (hids : (acceptedIds inputs).Nodup) : Consistent (acceptedIds inputs) capture s := by
  refine run_invariant (P := fun inputs s _ =>
    (acceptedIds inputs).Nodup → Consistent (acceptedIds inputs) capture s)
    ?_ (fun _ => make_consistent tuning policy issuer capture) h hids
  intro taken s _ i t more ih hs hids
  rw [accepted_concat] at hids ⊢
  obtain ⟨htaken, -, hdisjoint⟩ := List.nodup_append.mp hids
  have hnew : ∀ c, i.2.2.accepted? = some c → c.id ∉ acceptedIds taken := fun c hc hin =>
    hdisjoint c.id hin c.id (by simp [hc]) rfl
  obtain ⟨hrecorded, hcapture⟩ := step_consistent hk (ih htaken) hnew hs
  refine ⟨recorded_ids hrecorded fun id hid => ?_, hcapture⟩
  exact List.mem_append.mpr (List.mem_append.mp hid).symm

/-- A client whose handler is on an engine has a task there, which is over when the handler
is gone. -/
theorem client_seat {i : Nat} {c : Client} (h : Consistent ids capture s)
    (hc : s.client? k i = some c) :
    ∃ phase status, Seat s.manager.engines k i c phase ∧ s.status? k i = some status ∧
      (status.isOver = true ↔ phase = .gone) := by
  obtain ⟨host, hh, hclient⟩ := Option.bind_eq_some_iff.mp hc
  obtain ⟨hpaired, -⟩ := h.1.hosted host (List.mem_of_getElem? hh)
  obtain ⟨hlt, -⟩ := List.getElem?_eq_some_iff.mp hclient
  have hphase := List.getElem?_eq_getElem (hpaired.clients ▸ hlt)
  obtain ⟨status, hstatus, hover⟩ := Engine.paired_over hpaired hphase
  exact ⟨_, status, ⟨host, hh, hclient, hphase⟩, by simp [status?, hh, hstatus], hover⟩

end

structure Life (id : ConnectionId) (s : Service) : Prop where
  grammar : ∃ packets : List Packet,
    s.events.filter (·.concerns id) <+:
      .registered id :: packets.map (.packetAdded id) ++ [.closed id]
  -- Nothing is said of it once the registry was cleared.
  past : ∀ before after, s.events = before ++ .cleared :: after → .registered id ∈ before →
    ∀ e ∈ after, e.concerns id = false
  -- Unless the registry was cleared since, it is closed exactly when its handler is over: run to
  -- its end, rejected, or cancelled before it began.
  ended : ∀ before after, s.events = before ++ .registered id :: after → .cleared ∉ after →
    ∀ k i client, s.client? k i = some client → client.id = id →
      ∃ status, s.status? k i = some status ∧ (status.isOver = true ↔ .closed id ∈ s.events)

/-- Whatever the clients, the targets and the pools of a service do, and however often it is
stopped and started, each connection lives such a life. The sink is there because a service is
the sink of all its sessions. -/
theorem connection_lifecycle {tuning : Tuning} {policy : ShutdownPolicy} {issuer : Option Issuer}
    {capture : Capture} {sink : Sink} (hk : capture.sink = some sink)
    {inputs : List (Timestamp × Nat × Step)} (hids : (acceptedIds inputs).Nodup) {s : Service}
    {acts : List Manager.Action}
    (h : runAll stepAt inputs (make (.make tuning policy issuer capture)) = some (s, acts))
    (id : ConnectionId) : Life id s := by
  have hconsistent := run_consistent hk h hids
  have hrecorded := hconsistent.1
  obtain ⟨ch, hch, hactivity⟩ := hrecorded.sound.told id
  replace hch : chapter id s.recorder.feed.published = some ch := hch
  have hsplit : ∀ before e after, s.events = before ++ e :: after →
      s.recorder.feed.published = after.reverse ++ e :: before.reverse := by
    intro before e after he
    rw [List.reverse_eq_iff.mp he]
    simp
  refine ⟨tale_grammar (chapter_tale hch), fun before after he hr e hin => ?_,
    fun before after he hc k i client hclient hid => ?_⟩
  · rw [hsplit before _ after he] at hch
    exact chapter_cleared hch (List.mem_reverse.mpr hr) e (List.mem_reverse.mpr hin)
  · obtain ⟨phase, status, hseat, hstatus, hover⟩ := client_seat hconsistent hclient
    have hheld := chapter_held (hsplit before _ after he ▸ hch) (by simpa using hc)
    have hagrees := hrecorded.agrees k i client phase hseat
    rw [hid, hactivity] at hagrees
    refine ⟨status, hstatus, hover.trans ?_⟩
    rw [events, List.mem_reverse]
    rcases hheld with rfl | rfl
    · have hgone := (hagrees true rfl).mp rfl
      simp [hgone, chapter_live hch]
    · have hgone := hagrees false rfl
      simp at hgone
      simp [hgone, chapter_shut hch]

/-- One permit. The second client is cancelled while it waits for the first, which is relayed
beyond the end of its session, and the registry is cleared when the next session starts. -/
def shopSteps : List Step :=
  [.start default shopSession, .engine 0 (.run .begun), .engine 0 (.run .bound),
    .engine 0 (.run (.located default)), .engine 0 (.run .opened),
    .engine 0 (.run (.accepted ⟨.ofNat 1, default, default⟩ .admitted)), .engine 0 (.resume 0),
    .engine 0 (.run (.accepted ⟨.ofNat 2, default, default⟩ .admitted)), .engine 0 (.resume 1),
    .engine 0 (.handler 0 .clientReady), .engine 0 (.handler 0 .targetReady),
    .engine 0 (.handler 0 (.pump .toTarget (.chunk [7]))), .release,
    .engine 0 (.run .stopSeen), .engine 0 .stopAccepting, .engine 0 (.closePermits 1),
    .engine 0 (.resume 1), .engine 0 (.handler 0 (.pump .toTarget (.took 1))),
    .engine 0 (.handler 0 (.pump .toTarget .flushed)),
    .engine 0 (.handler 0 (.pump .toTarget .sourceEnd)),
    .engine 0 (.handler 0 (.pump .toTarget .closed)),
    .engine 0 (.handler 0 (.pump .toClient .tornDown)),
    .engine 0 (.handler 0 (.pump .toClient .closed)), .finishStop 0, .start default shopSession]

def shopInputs : List (Timestamp × Nat × Step) := shopSteps.map fun step => (default, 0, step)

def shopManager : Manager :=
  .make { Tuning.default with maxConnections := 1 } (.ofTuning .default) none ⟨some .quiet, none⟩

theorem connection_lifecycle_shop : ∃ s acts,
    runAll stepAt shopInputs (make shopManager) = some (s, acts) ∧
    s.events = [.cleared, .registered (.ofNat 1), .registered (.ofNat 2), .closed (.ofNat 2),
      .packetAdded (.ofNat 1) (.capture default .toTarget [7]), .closed (.ofNat 1), .cleared] ∧
    Life (.ofNat 1) s ∧ Life (.ofNat 2) s := by
  have hends : (runAll stepAt shopInputs (make shopManager)).map (fun r => r.1.events) =
      some [.cleared, .registered (.ofNat 1), .registered (.ofNat 2), .closed (.ofNat 2),
        .packetAdded (.ofNat 1) (.capture default .toTarget [7]), .closed (.ofNat 1), .cleared] :=
    rfl
  obtain ⟨⟨s, acts⟩, hrun, hevents⟩ := Option.map_eq_some_iff.mp hends
  have hids : (acceptedIds shopInputs).Nodup := by decide
  exact ⟨s, acts, hrun, hevents, connection_lifecycle rfl hids hrun _,
    connection_lifecycle rfl hids hrun _⟩

end Wiretap.Service
