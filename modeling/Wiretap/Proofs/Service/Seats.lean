import Wiretap.Proofs.Service.Records

/-! The handlers on all engines of a service, and what the registry holds of
their connections. A connection that is held is active as long as its handler
is not gone, so no handler can add to one that is closed. -/

set_option autoImplicit false

namespace Wiretap.Service
open Engine (Mark marks)
open Manager (Hosted Capture)

def Seat (engines : List Hosted) (k i : Nat) (c : Client) (phase : Handler.Phase) : Prop :=
  ∃ h, engines[k]? = some h ∧ h.engine.clients[i]? = some c ∧ h.engine.handlers[i]? = some phase

/-- What holds of the engines of a service and its registry. `ids` are the identifiers of all
clients that were accepted. -/
structure Recorded (ids : List ConnectionId) (capture : Capture) (engines : List Hosted)
    (b : Book) : Prop where
  hosted : ∀ h ∈ engines, h.engine.Paired ∧ h.engine.setup.sink = capture.sink
  sound : b.Sound
  heard : ∀ id, .registered id ∈ b.published → id ∈ ids
  known : ∀ k i c phase, Seat engines k i c phase → c.id ∈ ids
  distinct : ∀ k i c phase k' i' c' phase', Seat engines k i c phase →
    Seat engines k' i' c' phase' → c.id = c'.id → k = k' ∧ i = i'
  agrees : ∀ k i c phase, Seat engines k i c phase →
    ∀ active, b.registry.activity c.id = some active → (active = true ↔ phase ≠ .gone)

section
variable (time : Timestamp) {b : Book} {id : ConnectionId}

theorem changes_trans {after last : Book} {f g : ConnectionId → Option Bool}
    (h : Book.Changes b after f) (h' : Book.Changes after last g) : Book.Changes b last g :=
  ⟨h'.sound, h'.activity_eq, fun id => (h'.registered id).trans (h.registered id)⟩

/-- A handler that is not gone adds packets to a connection that is not closed. -/
theorem open_changes {done : List Handler.Action} (h : b.Sound) (hc : .closed ∉ done)
    (ha : b.registry.activity id ≠ some false) :
    Book.Changes b ((done.filterMap (handled? time id)).foldl Book.apply b)
      b.registry.activity := by
  induction done generalizing b with
  | nil => exact Book.changes_none h
  | cons a done ih =>
    have hrest : .closed ∉ done := fun hm => hc (List.mem_cons_of_mem _ hm)
    cases ho : handled? time id a with
    | none =>
      rw [List.filterMap_cons_none ho]
      exact ih h hrest ha
    | some op =>
      rw [List.filterMap_cons_some ho, List.foldl_cons]
      obtain ⟨p, rfl⟩ : ∃ p, op = .addPacket id p := by
        cases a with
        | relayed d pa => cases pa <;> cases ho; exact ⟨_, rfl⟩
        | closed => exact absurd List.mem_cons_self hc
        | _ => cases ho
      have hpacket := Book.addPacket_changes h p ha
      have hsame : (b.apply (.addPacket id p)).registry.activity = b.registry.activity :=
        funext hpacket.activity_eq
      have hlater := ih hpacket.sound hrest (by rwa [hsame])
      rw [hsame] at hlater
      exact changes_trans hpacket hlater

/-- What a step of a handler changes: its connection is closed when it is gone. -/
theorem handled_changes {done before : List Handler.Action} {phase : Handler.Phase} (h : b.Sound)
    (ht : Handler.Tells phase before done) (ha : b.registry.activity id ≠ some false) :
    Book.Changes b ((done.filterMap (handled? time id)).foldl Book.apply b)
      (if phase = .gone then b.closedActivity id else b.registry.activity) := by
  rcases ht with ⟨hg, hc⟩ | ⟨rfl, front, back, rfl, -, hf, hl⟩
  · rw [if_neg hg]
    exact open_changes time h hc ha
  · have hback : back.filterMap (handled? time id) = [] := by
      refine List.filterMap_eq_nil_iff.mpr fun a hmem => ?_
      obtain ⟨line, rfl⟩ := hl a hmem
      rfl
    have hfront := open_changes time h hf ha
    have hclose := Book.close_changes hfront.sound id time
    have hsame : (List.foldl Book.apply b (front.filterMap (handled? time id))).closedActivity id =
        b.closedActivity id := by
      funext other
      simp only [Book.closedActivity, hfront.activity_eq]
    have hops : (front ++ .closed :: back).filterMap (handled? time id) =
        front.filterMap (handled? time id) ++ [.close id time] := by
      rw [List.filterMap_append, ← hback]
      rfl
    rw [if_pos rfl, hops, List.foldl_append]
    rw [hsame] at hclose
    exact changes_trans hfront hclose

end

section
variable {engines : List Hosted} {host : Hosted} {f : Engine} {k j l i : Nat} {c d : Client}
  {phase p : Handler.Phase}

def replaced (engines : List Hosted) (k : Nat) (host : Hosted) (f : Engine) : List Hosted :=
  engines.set k { host with engine := f }

theorem seat_replaced (hh : engines[k]? = some host)
    (h : Seat (replaced engines k host f) l j d p) :
    (l = k ∧ f.clients[j]? = some d ∧ f.handlers[j]? = some p) ∨
      (l ≠ k ∧ Seat engines l j d p) := by
  obtain ⟨h', hget, hc, hp⟩ := h
  obtain ⟨hlt, -⟩ := List.getElem?_eq_some_iff.mp hh
  by_cases hl : k = l
  · subst hl
    rw [replaced, List.getElem?_set_self hlt] at hget
    cases hget
    exact .inl ⟨rfl, hc, hp⟩
  · rw [replaced, List.getElem?_set_ne hl] at hget
    exact .inr ⟨fun he => hl he.symm, h', hget, hc, hp⟩

theorem seat_alike (hh : engines[k]? = some host) (same : Engine.Alike host.engine f)
    (h : Seat (replaced engines k host f) l j d p) : Seat engines l j d p := by
  rcases seat_replaced hh h with ⟨rfl, hc, hp⟩ | ⟨-, h⟩
  · exact ⟨host, hh, same.clients ▸ hc, same.handlers ▸ hp⟩
  · exact h

/-- A handler that goes on keeps its seat in another phase. -/
theorem seat_task {next : Handler.Phase} (hh : engines[k]? = some host)
    (hc : host.engine.clients[i]? = some c) (hp : host.engine.handlers[i]? = some phase)
    (clients : f.clients = host.engine.clients)
    (handlers : f.handlers = host.engine.handlers.set i next)
    (h : Seat (replaced engines k host f) l j d p) :
    (Seat engines l j d p ∧ ¬(l = k ∧ j = i)) ∨ (l = k ∧ j = i ∧ d = c ∧ p = next) := by
  rcases seat_replaced hh h with ⟨rfl, hd, hq⟩ | ⟨hl, h⟩
  · rw [clients] at hd
    rw [handlers] at hq
    obtain ⟨hlt, -⟩ := List.getElem?_eq_some_iff.mp hp
    by_cases hj : i = j
    · subst hj
      rw [List.getElem?_set_self hlt] at hq
      rw [hc] at hd
      exact .inr ⟨rfl, rfl, (Option.some.inj hd).symm, (Option.some.inj hq).symm⟩
    · rw [List.getElem?_set_ne hj] at hq
      exact .inl ⟨⟨host, hh, hd, hq⟩, fun he => hj he.2.symm⟩
  · exact .inl ⟨h, fun he => hl he.1⟩

/-- A handler that is made takes the next seat of its engine. -/
theorem seat_made (hh : engines[k]? = some host) (hlen : host.engine.Paired)
    (clients : f.clients = host.engine.clients ++ [c])
    (handlers : f.handlers = host.engine.handlers ++ [phase])
    (h : Seat (replaced engines k host f) l j d p) :
    Seat engines l j d p ∨
      (l = k ∧ j = host.engine.handlers.length ∧ d = c ∧ p = phase) := by
  rcases seat_replaced hh h with ⟨rfl, hd, hq⟩ | ⟨-, h⟩
  · rw [clients] at hd
    rw [handlers] at hq
    have hlength := hlen.clients
    by_cases hj : j < host.engine.handlers.length
    · rw [List.getElem?_append_left (by omega)] at hd hq
      exact .inl ⟨host, hh, hd, hq⟩
    · obtain ⟨hlt, -⟩ := List.getElem?_eq_some_iff.mp hq
      rw [List.length_append, List.length_singleton] at hlt
      have hlast : j = host.engine.handlers.length := by omega
      subst hlast
      rw [List.getElem?_concat_length] at hq
      rw [← hlength, List.getElem?_concat_length] at hd
      exact .inr ⟨rfl, rfl, (Option.some.inj hd).symm, (Option.some.inj hq).symm⟩
  · exact .inl h

end

section
variable {engines after : List Hosted} {host : Hosted} {f : Engine} {k i : Nat} {c : Client}
  {phase next : Handler.Phase} {ids : List ConnectionId} {capture : Capture} {b : Book}
  {time : Timestamp} {sink : Sink}

theorem recorded_ids {more : List ConnectionId} (h : Recorded ids capture engines b)
    (hsub : ∀ id ∈ ids, id ∈ more) : Recorded more capture engines b :=
  ⟨h.hosted, h.sound, fun id hid => hsub id (h.heard id hid),
    fun l j d p hs => hsub _ (h.known l j d p hs), h.distinct, h.agrees⟩

theorem hosted_replaced (h : Recorded ids capture engines b) (hh : engines[k]? = some host)
    (hp : f.Paired) (hs : f.setup = host.engine.setup) :
    ∀ g ∈ replaced engines k host f, g.engine.Paired ∧ g.engine.setup.sink = capture.sink := by
  intro g hg
  rcases List.mem_or_eq_of_mem_set hg with hg | rfl
  · exact h.hosted g hg
  · obtain ⟨-, hsink⟩ := h.hosted host (List.mem_of_getElem? hh)
    exact ⟨hp, hs ▸ hsink⟩

theorem recorded_alike (h : Recorded ids capture engines b) (hh : engines[k]? = some host)
    (hp : f.Paired) (same : Engine.Alike host.engine f) :
    Recorded ids capture (replaced engines k host f) b := by
  have hseat : ∀ l j d p, Seat (replaced engines k host f) l j d p → Seat engines l j d p :=
    fun l j d p hs => seat_alike hh same hs
  exact ⟨hosted_replaced h hh hp same.setup, h.sound, h.heard,
    fun l j d p hs => h.known l j d p (hseat l j d p hs),
    fun l j d p l' j' d' p' hs hs' =>
      h.distinct l j d p l' j' d' p' (hseat l j d p hs) (hseat l' j' d' p' hs'),
    fun l j d p hs => h.agrees l j d p (hseat l j d p hs)⟩

/-- A client whose identifier is new is registered as active. -/
theorem recorded_asked (h : Recorded ids capture engines b) (hnew : c.id ∉ ids) :
    Recorded (c.id :: ids) capture engines (b.apply (.register c.connection)) ∧
      (b.apply (.register c.connection)).registry.activity c.id = some true := by
  obtain ⟨hsound, hpublished, hactivity⟩ := Book.register_sound (c := c.connection) h.sound rfl
    fun hin => hnew (h.heard _ hin)
  have hact : ∀ id, (b.apply (.register c.connection)).registry.activity id =
      if id = c.id then some true else b.registry.activity id := hactivity
  refine ⟨⟨h.hosted, hsound, fun id hid => ?_, fun l j d p hs => ?_, h.distinct,
    fun l j d p hs active hactive => ?_⟩, by rw [hact, if_pos rfl]⟩
  · rw [hpublished, List.mem_cons] at hid
    rcases hid with hid | hid
    · cases hid
      exact List.mem_cons_self
    · exact List.mem_cons_of_mem _ (h.heard id hid)
  · exact List.mem_cons_of_mem _ (h.known l j d p hs)
  · have hne : d.id ≠ c.id := fun he => hnew (he ▸ h.known l j d p hs)
    rw [hact, if_neg hne] at hactive
    exact h.agrees l j d p hs active hactive

/-- One handler takes a step, or its first ones; the others keep their seats. -/
theorem recorded_tells {done before : List Handler.Action} (h : Recorded ids capture engines b)
    (hosted : ∀ g ∈ after, g.engine.Paired ∧ g.engine.setup.sink = capture.sink)
    (hseat : ∀ l j d p, Seat after l j d p →
      (Seat engines l j d p ∧ d.id ≠ c.id) ∨ (l = k ∧ j = i ∧ d = c ∧ p = next))
    (hid : c.id ∈ ids) (ha : b.registry.activity c.id ≠ some false)
    (ht : Handler.Tells next before done) :
    Recorded ids capture after ((done.filterMap (handled? time c.id)).foldl Book.apply b) := by
  have hchanges := handled_changes time h.sound ht ha
  refine ⟨hosted, hchanges.sound, fun id hin => ?_, fun l j d p hs => ?_,
    fun l j d p l' j' d' p' hs hs' he => ?_, fun l j d p hs active hactive => ?_⟩
  · exact h.heard id ((hchanges.registered id).mp hin)
  · rcases hseat l j d p hs with ⟨hold, -⟩ | ⟨-, -, rfl, -⟩
    · exact h.known l j d p hold
    · exact hid
  · rcases hseat l j d p hs with ⟨hold, hne⟩ | ⟨rfl, rfl, rfl, rfl⟩ <;>
      rcases hseat l' j' d' p' hs' with ⟨hold', hne'⟩ | ⟨rfl, rfl, rfl, -⟩
    · exact h.distinct l j d p l' j' d' p' hold hold' he
    · exact absurd he hne
    · exact absurd he.symm hne'
    · exact ⟨rfl, rfl⟩
  · rw [hchanges.activity_eq] at hactive
    rcases hseat l j d p hs with ⟨hold, hne⟩ | ⟨rfl, rfl, rfl, rfl⟩
    · have hsame : b.registry.activity d.id = some active := by
        split at hactive
        · rwa [Book.closedActivity, if_neg hne] at hactive
        · exact hactive
      exact h.agrees l j d p hold active hsame
    · by_cases hg : p = .gone
      · rw [if_pos hg, Book.closedActivity, if_pos rfl] at hactive
        obtain ⟨_, -, rfl⟩ := Option.map_eq_some_iff.mp hactive
        simp [hg]
      · rw [if_neg hg] at hactive
        cases active with
        | true => simp [hg]
        | false => exact absurd hactive ha

theorem operations_handler {client? : Nat → Option Client} (hc : client? i = some c)
    (done : List Handler.Action) :
    (done.map (Mark.handler i)).filterMap (operation? time client?) =
      done.filterMap (handled? time c.id) := by
  rw [List.filterMap_map]
  congr 1
  funext a
  simp [operation?, hc]

theorem recorded_task {now : Nat} {event : Handler.Event} {done : List Handler.Action}
    (hk : (host.engine.handlerSetup c).sink = some sink) (h : Recorded ids capture engines b)
    (hh : engines[k]? = some host) (hp : f.Paired) (client : host.engine.clients[i]? = some c)
    (here : host.engine.handlers[i]? = some phase)
    (moved : Handler.step (host.engine.handlerSetup c) now phase event = some (next, done))
    (setup : f.setup = host.engine.setup) (clients : f.clients = host.engine.clients)
    (handlers : f.handlers = host.engine.handlers.set i next) :
    Recorded ids capture (replaced engines k host f)
      ((done.filterMap (handled? time c.id)).foldl Book.apply b) := by
  have hmove := Handler.move_of_step moved
  have hold : Seat engines k i c phase := ⟨host, hh, client, here⟩
  have hheld : b.registry.activity c.id ≠ some false := by
    intro hfalse
    have hagrees := h.agrees k i c phase hold false hfalse
    simp [Handler.move_alive hmove] at hagrees
  refine recorded_tells (k := k) (i := i) h (hosted_replaced h hh hp setup)
    (fun l j d p hs => ?_) (h.known k i c phase hold) hheld (Handler.move_tells hk hmove)
  rcases seat_task hh client here clients handlers hs with ⟨hseat, hne⟩ | hnext
  · exact .inl ⟨hseat, fun he => hne (h.distinct l j d p k i c phase hseat hold he)⟩
  · exact .inr hnext

theorem recorded_made {events : List (Nat × Handler.Event)} {done : List Handler.Action}
    (hk : (host.engine.handlerSetup c).sink = some sink) (h : Recorded ids capture engines b)
    (hh : engines[k]? = some host) (hp : f.Paired) (hin : c.id ∈ ids)
    (hfree : ∀ l j d p, Seat engines l j d p → d.id ≠ c.id)
    (hheld : b.registry.activity c.id ≠ some false)
    (begun : runAll (Handler.stepAt (host.engine.handlerSetup c)) events .waiting =
      some (phase, done))
    (setup : f.setup = host.engine.setup) (clients : f.clients = host.engine.clients ++ [c])
    (handlers : f.handlers = host.engine.handlers ++ [phase]) :
    Recorded ids capture (replaced engines k host f)
      ((done.filterMap (handled? time c.id)).foldl Book.apply b) := by
  obtain ⟨hpaired, -⟩ := h.hosted host (List.mem_of_getElem? hh)
  refine recorded_tells (k := k) (i := host.engine.handlers.length) h
    (hosted_replaced h hh hp setup) (fun l j d p hs => ?_) hin hheld
    (Handler.kept_tells (Handler.run_kept hk begun))
  rcases seat_made hh hpaired clients handlers hs with hseat | hnext
  · exact .inl ⟨hseat, hfree l j d p hseat⟩
  · exact .inr hnext

/-- A client whose identifier is new is given a handler, and registered if it was asked about. -/
theorem recorded_joins {ask said : List Mark} (hk : (host.engine.handlerSetup c).sink = some sink)
    (h : Recorded ids capture engines b) (hh : engines[k]? = some host) (hp : f.Paired)
    (hnew : c.id ∉ ids) (before : ask = [] ∨ ask = [.asked c])
    (joins : Engine.Joins host.engine f c said) :
    Recorded (c.id :: ids) capture (replaced engines k host f)
      (((ask ++ said).filterMap (operation? time (f.clients[·]?))).foldl Book.apply b) := by
  obtain ⟨events, phase, done, hrun, setup, clients, handlers, rfl⟩ := joins
  obtain ⟨hpaired, -⟩ := h.hosted host (List.mem_of_getElem? hh)
  have hlast : f.clients[host.engine.handlers.length]? = some c := by
    rw [clients, ← hpaired.clients, List.getElem?_concat_length]
  have hfree : ∀ l j d p, Seat engines l j d p → d.id ≠ c.id :=
    fun l j d p hs he => hnew (he ▸ h.known l j d p hs)
  have hin : c.id ∈ c.id :: ids := List.mem_cons_self
  rw [List.filterMap_append, List.foldl_append, operations_handler hlast]
  rcases before with rfl | rfl
  · obtain ⟨-, hnone⟩ := Book.unheard h.sound fun hm => hnew (h.heard _ hm)
    have hmany := recorded_ids h fun id => List.mem_cons_of_mem c.id
    exact recorded_made hk hmany hh hp hin hfree (by simp [Registry.activity, hnone]) hrun setup
      clients handlers
  · obtain ⟨hasked, hactive⟩ := recorded_asked h hnew
    have hheld : (b.apply (.register c.connection)).registry.activity c.id ≠ some false := by
      simp [hactive]
    exact recorded_made hk hasked hh hp hin hfree hheld hrun setup clients handlers

/-- A step of an engine, whose client, if it accepts one, has a new identifier. -/
theorem recorded_move {step : Engine.Step} {said : List Mark} {more : List ConnectionId}
    (hk : capture.sink = some sink) (h : Recorded ids capture engines b)
    (hh : engines[k]? = some host) (hp : f.Paired) (m : Engine.Move host.engine step f said)
    (hnew : ∀ c, step.accepted? = some c → c.id ∉ ids)
    (hmore : more = (step.accepted?.map (·.id)).toList ++ ids) :
    Recorded more capture (replaced engines k host f)
      ((said.filterMap (operation? time (f.clients[·]?))).foldl Book.apply b) := by
  have hsub : ∀ id ∈ ids, id ∈ more := by
    rw [hmore]
    exact fun id hid => List.mem_append_right _ hid
  obtain ⟨hpaired, hsink⟩ := h.hosted host (List.mem_of_getElem? hh)
  have hset : ∀ c, (host.engine.handlerSetup c).sink = some sink := fun c => hsink.trans hk
  cases m with
  | idle same => exact recorded_ids (recorded_alike h hh hp same) hsub
  | asked heard same =>
    rw [heard] at hmore
    obtain ⟨hasked, -⟩ := recorded_asked h (hnew _ heard)
    rw [hmore]
    exact recorded_alike hasked hh hp same
  | task client here moved setup clients handlers =>
    rw [operations_handler (clients ▸ client)]
    exact recorded_ids
      (recorded_task (hset _) h hh hp client here moved setup clients handlers) hsub
  | made heard before joins =>
    rw [heard] at hmore
    rw [hmore]
    exact recorded_joins (hset _) h hh hp (hnew _ heard) before joins

end

end Wiretap.Service
