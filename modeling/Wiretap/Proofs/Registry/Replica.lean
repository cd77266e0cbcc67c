import Wiretap.Proofs.Registry.Book
import Wiretap.Proofs.Registry.Order
import Wiretap.Proofs.Run

/-! A subscriber that was there from the start and never falls behind can rebuild
the registry from the events alone. What it is given are the published events in
their order, and replaying those of the first operations gives what a snapshot
showed after them. -/

set_option autoImplicit false

namespace Wiretap

structure Sketch where
  id : ConnectionId
  packets : List Packet
  active : Bool
  deriving DecidableEq, Repr

def Connection.sketch (c : Connection) : Sketch := ⟨c.id, c.packets, c.active⟩

def Registry.sketches (r : Registry) : List Sketch := r.snapshot.map Connection.sketch

namespace Sketch

def add (p : Packet) (k : Sketch) : Sketch := { k with packets := k.packets ++ [p] }

def shut (k : Sketch) : Sketch := { k with active := false }

def modify (id : ConnectionId) (change : Sketch → Sketch) (known : List Sketch) : List Sketch :=
  known.map fun k => if k.id = id then change k else k

def hear (known : List Sketch) : RegistryEvent → List Sketch
  | .registered id => known ++ [⟨id, [], true⟩]
  | .packetAdded id p => modify id (add p) known
  | .closed id => modify id shut known
  | .cleared => []

def replay (events : List RegistryEvent) : List Sketch := events.foldl hear []

end Sketch

namespace Registry

def Call.Idle (r : Registry) : Call → Prop
  | .register id _ _ _ => r.get? id ≠ none
  | .registerClient client => r.get? client.id ≠ none
  | .addPacket id _ => r.get? id = none
  | .close id _ => ∀ c, r.get? id = some c → c.active = false
  | .clear => False

def Call.event : Call → RegistryEvent
  | .register id _ _ _ => .registered id
  | .registerClient client => .registered client.id
  | .addPacket id packet => .packetAdded id packet
  | .close id _ => .closed id
  | .clear => .cleared

section
variable {r : Registry} {id : ConnectionId} {c next : Connection}

theorem sketches_tidy (h : Tidy r) : r.sketches = r.entries.map (·.2.sketch) := by
  rw [sketches, snapshot_entries h, List.map_map]
  rfl

theorem sketches_put (h : Tidy r) (hget : r.get? id = some c) (hp : Tidy (r.put next))
    (hid : next.id = id) {change : Sketch → Sketch} (hc : change c.sketch = next.sketch) :
    (r.put next).sketches = Sketch.modify id change r.sketches := by
  rw [sketches_tidy hp, sketches_tidy h, Sketch.modify, put, List.map_map, List.map_map]
  refine List.map_congr_left fun e he => ?_
  have hfiled : e.2.sketch.id = e.1 := h.filed e he
  show (if e.1 = next.id then (e.1, next) else e).2.sketch =
    if e.2.sketch.id = id then change e.2.sketch else e.2.sketch
  rw [hfiled, hid]
  by_cases hk : e.1 = id
  · -- an identifier has one entry only, so this is the one that was looked up
    have hentry : r.get? id = some e.2 := (tidy_get h).mpr (hk ▸ he)
    have hsame : e.2 = c := Option.some.inj (hentry.symm.trans hget)
    simp only [hk, if_true, hsame, hc]
  · simp only [hk, if_false]

theorem register_hears (h : Tidy r) (hnew : r.get? c.id = none) (ha : c.active = true)
    (hn : c.packets = []) (hc : Dated c) : (r.register c).event = some (.registered c.id) ∧
      (r.register c).registry.sketches = Sketch.hear r.sketches (.registered c.id) := by
  have ht := tidy_register h hc
  simp only [register, hnew] at ht ⊢
  rw [sketches_tidy ht, sketches_tidy h]
  simp [Sketch.hear, Connection.sketch, ha, hn]

theorem addPacket_hears (h : Tidy r) (hget : r.get? id = some c) (p : Packet) :
    (r.addPacket id p).event = some (.packetAdded id p) ∧
      (r.addPacket id p).registry.sketches = Sketch.hear r.sketches (.packetAdded id p) := by
  have ht : Tidy (r.addPacket id p).registry := tidy_addPacket h p
  have hid : c.id = id := h.filed _ ((tidy_get h).mp hget)
  simp only [addPacket, hget] at ht ⊢
  exact ⟨trivial, sketches_put h hget ht hid rfl⟩

theorem close_hears (h : Tidy r) (hget : r.get? id = some c) (ha : c.active = true)
    (time : Timestamp) : (r.close id time).event = some (.closed id) ∧
      (r.close id time).registry.sketches = Sketch.hear r.sketches (.closed id) := by
  have ht : Tidy (r.close id time).registry := tidy_close h time
  have hid : c.id = id := h.filed _ ((tidy_get h).mp hget)
  simp only [close, hget, ha, if_true] at ht ⊢
  exact ⟨trivial, sketches_put h hget ht hid rfl⟩

theorem idle_call {call : Call} (hi : call.Idle r) :
    (r.apply call.operation).event = none ∧ (r.apply call.operation).registry = r := by
  cases call with
  | register id address port time =>
    obtain ⟨c, hget⟩ := Option.ne_none_iff_exists'.mp hi
    simp [Call.operation, apply, register, Connection.fresh, hget]
  | registerClient client =>
    obtain ⟨c, hget⟩ := Option.ne_none_iff_exists'.mp hi
    simp [Call.operation, apply, register, Client.connection, Connection.fresh, hget]
  | addPacket id packet =>
    have hget : r.get? id = none := hi
    simp [Call.operation, apply, addPacket, hget]
  | close id time =>
    cases hget : r.get? id with
    | none => simp [Call.operation, apply, close, hget]
    | some c =>
      have ha : c.active = false := hi c hget
      simp [Call.operation, apply, close, hget, ha]
  | clear => exact hi.elim

/-- Any other call publishes its event, which tells what it has changed. -/
theorem busy_call (h : Tidy r) {call : Call} (hi : ¬call.Idle r) :
    (r.apply call.operation).event = some call.event ∧
      (r.apply call.operation).registry.sketches = Sketch.hear r.sketches call.event := by
  cases call with
  | register id address port time =>
    have hnew : r.get? id = none := not_not.mp hi
    exact register_hears h hnew rfl rfl (by simp [Dated, Connection.fresh])
  | registerClient client =>
    have hnew : r.get? client.id = none := not_not.mp hi
    exact register_hears h hnew rfl rfl (by simp [Dated, Client.connection, Connection.fresh])
  | addPacket id packet =>
    obtain ⟨c, hget⟩ := Option.ne_none_iff_exists'.mp hi
    exact addPacket_hears h hget packet
  | close id time =>
    have hactive : ∃ c, r.get? id = some c ∧ c.active = true := by simpa [Call.Idle] using hi
    obtain ⟨c, hget, ha⟩ := hactive
    exact close_hears h hget ha time
  | clear => exact ⟨rfl, rfl⟩

theorem put_ne (hget : r.get? id = some c) (hid : next.id = id) (hn : next ≠ c) :
    r.put next ≠ r := by
  intro he
  have hput := get_put r next id
  rw [he, if_pos hid.symm, hget] at hput
  exact hn (Option.some.inj hput).symm

/-- Only a clearing may publish an event without effect. -/
theorem busy_changes (h : Tidy r) {call : Call} (hi : ¬call.Idle r) (hc : call ≠ .clear) :
    (r.apply call.operation).registry ≠ r := by
  have hid {id : ConnectionId} {c : Connection} (hget : r.get? id = some c) : c.id = id :=
    h.filed _ ((tidy_get h).mp hget)
  cases call with
  | register id address port time =>
    have hnew : r.get? id = none := not_not.mp hi
    intro he
    have horder := congrArg Registry.order he
    simp [Call.operation, apply, register, Connection.fresh, hnew] at horder
  | registerClient client =>
    have hnew : r.get? client.id = none := not_not.mp hi
    intro he
    have horder := congrArg Registry.order he
    simp [Call.operation, apply, register, Client.connection, Connection.fresh, hnew] at horder
  | addPacket id packet =>
    obtain ⟨c, hget⟩ := Option.ne_none_iff_exists'.mp hi
    have hne : { c with packets := c.packets ++ [packet] } ≠ c := by
      intro he
      simpa using congrArg Connection.packets he
    have hc : c.id = id := hid hget
    have hput : r.put { c with packets := c.packets ++ [packet] } ≠ r := put_ne hget hc hne
    simpa [Call.operation, apply, addPacket, hget] using hput
  | close id time =>
    have hactive : ∃ c, r.get? id = some c ∧ c.active = true := by simpa [Call.Idle] using hi
    obtain ⟨c, hget, ha⟩ := hactive
    have hne : { c with active := false, closed := some time } ≠ c := by
      intro he
      simpa [ha] using congrArg Connection.active he
    have hc : c.id = id := hid hget
    have hput : r.put { c with active := false, closed := some time } ≠ r := put_ne hget hc hne
    simpa [Call.operation, apply, close, hget, ha] using hput
  | clear => exact absurd rfl hc

end

end Registry

namespace Feed

def first (f : Feed) (n : Nat) : List RegistryEvent := f.published.reverse.take n

section
variable {f : Feed} {position : Nat}

theorem first_publish (e : RegistryEvent) {n : Nat} (hn : n ≤ f.sent) :
    (f.publish e).first n = f.first n := by
  have hlen : n ≤ f.published.reverse.length := by simpa [sent] using hn
  rw [first, first, publish, List.reverse_cons, List.take_append_of_le_length hlen]

theorem advance_events (events : List RegistryEvent) :
    (events.map Delivery.event).foldl advance position = position + events.length := by
  induction events generalizing position with
  | nil => rfl
  | cons e events ih =>
    rw [List.map_cons, List.foldl_cons, ih, advance, List.length_cons]
    omega

/-- A subscriber that misses nothing is given the events that follow its position. -/
theorem pending_events (hp : position ≤ f.sent) (hm : f.missed position = 0) :
    f.pending position = (f.published.reverse.drop position).map .event := by
  have hfit : f.sent - position ≤ capacity := by
    have : f.sent - capacity - position = 0 := hm
    omega
  have hskip : f.published.length - (f.sent - position) = position := by
    rw [sent] at hp ⊢
    omega
  rw [pending, hm, if_neg (Nat.lt_irrefl 0), recent, List.take_take, Nat.min_eq_left hfit,
    List.reverse_take, hskip]

/-- One read of a subscriber that has been given the first events, without a gap. -/
theorem read_first (hp : position ≤ f.sent) {limit : Nat}
    (hlag : ∀ n, .missed n ∉ (f.read position limit).1) :
    (f.read position limit).2 ≤ f.sent ∧
      (f.first position).map Delivery.event ++ (f.read position limit).1 =
        (f.first (f.read position limit).2).map .event := by
  by_cases hm : f.missed position = 0
  · have hlength : f.published.reverse.length = f.sent := by rw [List.length_reverse, sent]
    rw [read, pending_events hp hm, ← List.map_take, advance_events, List.length_take,
      List.length_drop, hlength]
    constructor
    · omega
    · rw [← List.map_append, first, first, List.take_add, List.take_eq_take_min (i := limit),
        List.length_drop, hlength]
  · -- the count of what was missed comes first, so that only an empty read is without it
    cases limit with
    | zero => exact ⟨hp, List.append_nil _⟩
    | succ limit =>
      have hpos : 0 < f.missed position := Nat.pos_of_ne_zero hm
      refine absurd ?_ (hlag (f.missed position))
      rw [read, pending, if_pos hpos, List.take_succ_cons]
      exact List.mem_cons_self

theorem first_length (hp : position ≤ f.sent) : (f.first position).length = position := by
  rw [first, List.length_take, List.length_reverse]
  exact Nat.min_eq_left hp

theorem read_all (hp : position ≤ f.sent) (hm : f.missed position = 0) {limit : Nat}
    (hl : f.sent ≤ position + limit) :
    (∀ n, .missed n ∉ (f.read position limit).1) ∧
      (f.read position limit).1.length = f.sent - position := by
  rw [read, pending_events hp hm, ← List.map_take]
  constructor
  · intro n hn
    obtain ⟨e, -, he⟩ := List.mem_map.mp hn
    cases he
  · rw [List.length_map, List.length_take, List.length_drop, List.length_reverse, ← sent]
    omega

end

end Feed

structure Follower where
  recorder : Recorder
  position : Nat

namespace Follower
open Registry (Call)

inductive Turn where
  | call (c : Call)
  | read (limit : Nat)

def start : Follower := ⟨.empty, Feed.empty.sent⟩

def step (f : Follower) : Turn → Option (Follower × List Delivery)
  | .call c => some ({ f with recorder := (f.recorder.apply c.operation).2 }, [])
  | .read limit =>
    let (given, position) := f.recorder.feed.read f.position limit
    some ({ f with position }, given)

/-- The events tell all that the registry holds, and the first of them were received. -/
structure Following (f : Follower) (received : List Delivery) : Prop where
  tidy : Registry.Tidy f.recorder.registry
  told : Sketch.replay f.recorder.feed.published.reverse = f.recorder.registry.sketches
  received : (∀ n, .missed n ∉ received) → f.position ≤ f.recorder.feed.sent ∧
    received = (f.recorder.feed.first f.position).map .event

structure Publishes (r : Recorder) (call : Call) : Prop where
  -- A call that finds nothing to do leaves every entry as it was and is not published.
  idle : call.Idle r.registry →
    (r.apply call.operation).2.registry = r.registry ∧ (r.apply call.operation).2.feed = r.feed
  -- Any other call is published as one event, that of its kind.
  busy : ¬call.Idle r.registry → (r.apply call.operation).2.feed = r.feed.publish call.event
  -- Apart from a clearing, the calls that change nothing are those that find nothing to do.
  changed : call ≠ .clear →
    ((r.apply call.operation).2.registry = r.registry ↔ call.Idle r.registry)

section
variable {f g : Follower} {received later : List Delivery} {turns : List Turn}

theorem apply_idle {r : Recorder} {call : Call} (hi : call.Idle r.registry) :
    (r.apply call.operation).2.registry = r.registry ∧
      (r.apply call.operation).2.feed = r.feed := by
  obtain ⟨hevent, hregistry⟩ := Registry.idle_call hi
  simp [Recorder.apply, hevent, hregistry]

theorem apply_busy {r : Recorder} {call : Call} (h : Registry.Tidy r.registry)
    (hi : ¬call.Idle r.registry) : (r.apply call.operation).2.feed = r.feed.publish call.event ∧
      (r.apply call.operation).2.registry.sketches =
        Sketch.hear r.registry.sketches call.event := by
  obtain ⟨hevent, hsketches⟩ := Registry.busy_call h hi
  exact ⟨by simp [Recorder.apply, hevent], hsketches⟩

theorem publishes (h : Registry.Tidy f.recorder.registry) (call : Call) :
    Publishes f.recorder call := by
  constructor
  · exact apply_idle
  · exact fun hi => (apply_busy h hi).1
  · intro hc
    constructor
    · intro hsame
      by_contra hi
      exact Registry.busy_changes h hi hc hsame
    · exact fun hi => (apply_idle hi).1

theorem start_following : Following start [] :=
  ⟨Registry.tidy_empty, rfl, fun _ => ⟨Nat.le_refl _, rfl⟩⟩

theorem call_following (h : Following f received) (call : Call) :
    Following { f with recorder := (f.recorder.apply call.operation).2 } received := by
  have ht : Registry.Tidy (f.recorder.apply call.operation).2.registry :=
    Registry.tidy_call h.tidy call
  by_cases hi : call.Idle f.recorder.registry
  · obtain ⟨hregistry, hfeed⟩ := apply_idle hi
    constructor
    · exact ht
    · rw [hregistry, hfeed]
      exact h.told
    · rw [hfeed]
      exact h.received
  · obtain ⟨hfeed, hsketches⟩ := apply_busy h.tidy hi
    constructor
    · exact ht
    · rw [hsketches, hfeed, Feed.publish, List.reverse_cons, Sketch.replay, List.foldl_concat,
        ← h.told]
      rfl
    · intro hlag
      obtain ⟨hreached, heq⟩ := h.received hlag
      rw [hfeed, Feed.first_publish _ hreached]
      exact ⟨Nat.le_succ_of_le hreached, heq⟩

theorem step_following {turn : Turn} (h : Following f received)
    (hs : step f turn = some (g, later)) : Following g (received ++ later) := by
  cases turn with
  | call c =>
    cases hs
    rw [List.append_nil]
    exact call_following h c
  | read limit =>
    cases hs
    refine ⟨h.tidy, h.told, fun hlag => ?_⟩
    have hbefore : ∀ n, .missed n ∉ received := fun n hm => hlag n (List.mem_append_left _ hm)
    have hnow : ∀ n, .missed n ∉ (f.recorder.feed.read f.position limit).1 :=
      fun n hm => hlag n (List.mem_append_right _ hm)
    obtain ⟨hreached, heq⟩ := h.received hbefore
    obtain ⟨hnext, hgiven⟩ := Feed.read_first hreached hnow
    rw [← heq] at hgiven
    exact ⟨hnext, hgiven⟩

theorem run_following (h : runAll step turns start = some (f, received)) :
    Following f received :=
  run_invariant (P := fun _ f received => Following f received)
    (fun _ _ _ _ _ _ => step_following) start_following h

/-- What was published once stays the beginning of all that is. -/
theorem run_published (h : runAll step turns f = some (g, later)) :
    f.recorder.feed.published <:+ g.recorder.feed.published := by
  refine run_invariant (P := fun _ g _ => f.recorder.feed.published <:+ g.recorder.feed.published)
    ?_ List.suffix_rfl h
  intro _ g _ turn t more hpub hs
  cases turn with
  | call c =>
    cases hs
    refine hpub.trans ?_
    cases hevent : (g.recorder.registry.apply c.operation).event with
    | none => simp [Recorder.apply, hevent]
    | some e => simp [Recorder.apply, hevent, Feed.publish]
  | read limit =>
    cases hs
    exact hpub

theorem first_published (hp : f.recorder.feed.published <:+ g.recorder.feed.published) :
    g.recorder.feed.first f.recorder.feed.sent = f.recorder.feed.published.reverse := by
  obtain ⟨newer, hnewer⟩ := hp
  rw [Feed.first, ← hnewer, List.reverse_append, Feed.sent, ← List.length_reverse,
    List.take_left]

end

/-- Whatever the callers of the registry do, and whenever a subscriber reads that was there
from the start: unless it ever lags, it is given the published events from the first on. Once
it has those of the calls up to any moment, replaying them gives the snapshot of that moment,
and as long as it misses nothing it can read them at once. Every call but an idle one
publishes one event; an idle one leaves all as it was. A clearing is never idle, and any other
call is if it changes nothing. -/
theorem received_replays (before after : List Turn) (f g : Follower)
    (received later : List Delivery) (hb : runAll step before start = some (f, received))
    (ha : runAll step after f = some (g, later)) :
    ((∀ n, .missed n ∉ received ++ later) → ∃ events : List RegistryEvent,
      received ++ later = events.map .event ∧ events <+: g.recorder.feed.published.reverse ∧
      (f.recorder.feed.sent ≤ events.length →
        Sketch.replay (events.take f.recorder.feed.sent) = f.recorder.registry.sketches)) ∧
    ((∀ n, .missed n ∉ received) → f.recorder.feed.missed f.position = 0 →
      ∀ limit, f.recorder.feed.sent ≤ f.position + limit → ∃ h given,
        step f (.read limit) = some (h, given) ∧ (∀ n, .missed n ∉ given) ∧
        (received ++ given).length = f.recorder.feed.sent) ∧
    ∀ call, Publishes f.recorder call := by
  have hf := run_following hb
  have hg := run_following (run_append hb ha)
  refine ⟨fun hlag => ?_, fun hlag hm limit hl => ?_, publishes hf.tidy⟩
  · obtain ⟨hreached, heq⟩ := hg.received hlag
    refine ⟨_, heq, List.take_prefix _ _, fun hlength => ?_⟩
    have hsent : f.recorder.feed.sent ≤ g.position := by
      rwa [Feed.first_length hreached] at hlength
    -- What was published by then is the beginning of what has been received by now.
    have htake : (g.recorder.feed.first g.position).take f.recorder.feed.sent =
        g.recorder.feed.first f.recorder.feed.sent := by
      rw [Feed.first, List.take_take, Nat.min_eq_left hsent, Feed.first]
    rw [htake, first_published (run_published ha)]
    exact hf.told
  · obtain ⟨hreached, heq⟩ := hf.received hlag
    obtain ⟨hnone, hlength⟩ := Feed.read_all hreached hm hl
    refine ⟨{ f with position := (f.recorder.feed.read f.position limit).2 },
      (f.recorder.feed.read f.position limit).1, rfl, hnone, ?_⟩
    rw [List.length_append, hlength, heq, List.length_map, Feed.first_length hreached]
    exact Nat.add_sub_cancel' hreached

def reusedTurns : List Turn := [.call (.register (.ofNat 1) "10.0.0.7" 9 default),
  .call (.addPacket (.ofNat 1) default), .call (.register (.ofNat 1) "10.0.0.8" 9 default), .read 1,
  .call (.close (.ofNat 1) default), .call (.close (.ofNat 1) default), .call .clear,
  .call (.registerClient ⟨.ofNat 1, default, default⟩)]

def reusedEvents : List RegistryEvent := [.registered (.ofNat 1), .packetAdded (.ofNat 1) default,
  .closed (.ofNat 1), .cleared, .registered (.ofNat 1)]

theorem received_replays_reused : ∃ f g received later,
    runAll step reusedTurns start = some (f, received) ∧ runAll step [.read 9] f = some (g, later) ∧
    received ++ later = reusedEvents.map .event ∧ (∀ n, .missed n ∉ received ++ later) ∧
    Sketch.replay reusedEvents = f.recorder.registry.sketches := by
  have hrun : ∃ f g received later, runAll step reusedTurns start = some (f, received) ∧
      runAll step [.read 9] f = some (g, later) ∧
      received ++ later = reusedEvents.map .event ∧ f.recorder.feed.sent = reusedEvents.length :=
    ⟨_, _, _, _, rfl, rfl, rfl, rfl⟩
  obtain ⟨f, g, received, later, hb, ha, heq, hsent⟩ := hrun
  have hnone : ∀ n, .missed n ∉ received ++ later := by
    rw [heq]
    exact fun n hn => by simp at hn
  obtain ⟨events, hevents, -, hreplay⟩ :=
    (received_replays reusedTurns [.read 9] f g received later hb ha).1 hnone
  have hsame : reusedEvents = events := by
    have hmap := heq.symm.trans hevents
    exact List.map_injective_iff.mpr (fun _ _ he => Delivery.event.inj he) hmap
  subst hsame
  refine ⟨f, g, received, later, hb, ha, heq, hnone, ?_⟩
  rw [← hreplay (Nat.le_of_eq hsent), hsent, List.take_length]

/-- A clearing of an empty registry changes nothing, and yet a subscriber hears of it. -/
theorem clear_empty_heard : ∃ f received,
    runAll step [.call .clear, .read 1] start = some (f, received) ∧
    f.recorder.registry = start.recorder.registry ∧ received = [.event .cleared] :=
  ⟨_, _, rfl, rfl, rfl⟩

end Follower

end Wiretap
