import Wiretap.Proofs.Registry.Chapters
import Wiretap.Registry.Recorder

/-! The registry with the events that it has published. At any time the events
about a connection tell whether the registry holds it, and whether it is active
there. -/

set_option autoImplicit false

namespace Wiretap

namespace Registry

def activity (r : Registry) (id : ConnectionId) : Option Bool := (r.get? id).map (·.active)

def Keyed (r : Registry) : Prop := ∀ id c, r.get? id = some c → c.id = id

section
variable {r : Registry} {id : ConnectionId} {c : Connection}

theorem get_put (r : Registry) (c : Connection) (id : ConnectionId) :
    (r.put c).get? id = if id = c.id then (r.get? id).map (fun _ => c) else r.get? id := by
  simp only [get?, put]
  induction r.entries with
  | nil => simp
  | cons entry entries ih =>
    obtain ⟨key, value⟩ := entry
    by_cases hk : id = key
    · subst hk
      by_cases hc : id = c.id <;> simp [hc]
    · have hne : (id == key) = false := by simpa using hk
      have hskip : ((key, value) :: entries).lookup id = entries.lookup id := by
        rw [List.lookup_cons, hne]
      rw [List.map_cons, hskip, ← ih]
      split <;> rw [List.lookup_cons, hne]

theorem get_register (hn : r.get? c.id = none) (id : ConnectionId) :
    (r.register c).registry.get? id = if id = c.id then some c else r.get? id := by
  simp only [register, hn]
  simp only [get?] at hn ⊢
  rw [List.lookup_append]
  by_cases hc : id = c.id
  · rw [if_pos hc, hc, hn]
    simp
  · have hne : (id == c.id) = false := by simpa using hc
    simp [List.lookup_cons, hne, hc]

theorem activity_put (hk : r.get? id = some c) {next : Connection} (hid : next.id = id)
    (other : ConnectionId) : (r.put next).activity other =
      if other = id then some next.active else r.activity other := by
  rw [activity, get_put, hid]
  by_cases ho : other = id
  · simp [ho, hk]
  · simp [ho, activity]

theorem keyed_put (h : Keyed r) (next : Connection) : Keyed (r.put next) := by
  intro id c hc
  rw [get_put] at hc
  split at hc
  · rename_i hid
    obtain ⟨_, -, rfl⟩ := Option.map_eq_some_iff.mp hc
    exact hid.symm
  · exact h id c hc

end

end Registry

structure Book where
  registry : Registry
  published : List RegistryEvent

namespace Book

def empty : Book := ⟨.empty, []⟩

def apply (b : Book) (op : Registry.Operation) : Book :=
  ⟨(b.registry.apply op).registry, (b.registry.apply op).event.toList ++ b.published⟩

structure Sound (b : Book) : Prop where
  keyed : b.registry.Keyed
  told : ∀ id, ∃ ch, chapter id b.published = some ch ∧ b.registry.activity id = ch.activity

structure Changes (b after : Book) (activity : ConnectionId → Option Bool) : Prop where
  sound : after.Sound
  activity_eq : ∀ id, after.registry.activity id = activity id
  registered : ∀ id, .registered id ∈ after.published ↔ .registered id ∈ b.published

section
variable {b : Book} {id : ConnectionId} {c : Connection}

theorem changes_none (h : b.Sound) : Changes b b b.registry.activity :=
  ⟨h, fun _ => rfl, fun _ => Iff.rfl⟩

/-- A change that is about one connection, with its event. -/
theorem sound_event {r : Registry} {e : RegistryEvent} {ch after : Chapter} (h : b.Sound)
    (hk : r.Keyed) (hc : e ≠ .cleared) (he : ∀ other, other ≠ id → e.concerns other = false)
    (hr : ∀ other, other ≠ id → r.activity other = b.registry.activity other)
    (hch : chapter id b.published = some ch) (hnext : Chapter.next id ch e = some after)
    (ha : r.activity id = after.activity) : Sound ⟨r, e :: b.published⟩ := by
  refine ⟨hk, fun other => ?_⟩
  by_cases ho : other = id
  · subst ho
    exact ⟨after, by rw [chapter, hch]; exact hnext, ha⟩
  · obtain ⟨old, hold, hact⟩ := h.told other
    refine ⟨old, ?_, by rw [hr other ho, hact]⟩
    rw [chapter, hold]
    exact Chapter.next_other old (he other ho) hc

theorem unheard (h : b.Sound) (hn : .registered id ∉ b.published) :
    chapter id b.published = some .unheard ∧ b.registry.get? id = none := by
  obtain ⟨ch, hch, hact⟩ := h.told id
  have hu : ch = .unheard := by
    by_cases hu : ch = .unheard
    · exact hu
    · exact absurd ((chapter_registered hch).mpr hu) hn
  subst hu
  exact ⟨hch, by simpa [Registry.activity, Chapter.activity] using hact⟩

theorem concerns_other {e : RegistryEvent} (he : e.concerns id = true) {other : ConnectionId}
    (ho : other ≠ id) : e.concerns other = false := by
  cases e <;> simp_all [RegistryEvent.concerns] <;> exact fun h => ho h.symm

/-- A connection that was never heard of is registered as active. -/
theorem register_sound (h : b.Sound) (ha : c.active = true)
    (hn : .registered c.id ∉ b.published) :
    (b.apply (.register c)).Sound ∧
      (b.apply (.register c)).published = .registered c.id :: b.published ∧
      ∀ other, (b.apply (.register c)).registry.activity other =
        if other = c.id then some true else b.registry.activity other := by
  obtain ⟨hch, hget⟩ := unheard h hn
  have hpublished : (b.apply (.register c)).published = .registered c.id :: b.published := by
    simp [apply, Registry.apply, Registry.register, hget]
  have hact : ∀ other, (b.registry.register c).registry.activity other =
      if other = c.id then some true else b.registry.activity other := by
    intro other
    rw [Registry.activity, Registry.get_register hget]
    split
    · simp [ha]
    · rfl
  refine ⟨?_, hpublished, hact⟩
  have hkeyed : (b.registry.register c).registry.Keyed := by
    intro id found hfound
    rw [Registry.get_register hget] at hfound
    split at hfound
    · rename_i hid
      cases hfound
      exact hid.symm
    · exact h.keyed id found hfound
  rw [show b.apply (.register c) = ⟨(b.registry.register c).registry, _⟩ from
    congrArg (Book.mk _) hpublished]
  exact sound_event h hkeyed (by simp)
    (fun other => concerns_other (by simp [RegistryEvent.concerns]))
    (fun other ho => by rw [hact, if_neg ho]) hch
    (show Chapter.next c.id .unheard _ = some .live by simp [Chapter.next])
    (by rw [hact, if_pos rfl]; rfl)

theorem activity_get (hk : b.registry.get? id = some c) :
    b.registry.activity id = some c.active := by
  rw [Registry.activity, hk]
  rfl

/-- A change of an active connection that is held, with its event. -/
theorem put_changes {next : Connection} {e : RegistryEvent} {after : Chapter} (h : b.Sound)
    (hk : b.registry.get? id = some c) (ha : c.active = true) (hid : next.id = id)
    (hc : e.concerns id = true) (hr : ∀ other, e ≠ .registered other)
    (hnext : Chapter.next id .live e = some after) (hact : after.activity = some next.active) :
    Changes b ⟨b.registry.put next, e :: b.published⟩
      (fun other => if other = id then some next.active else b.registry.activity other) := by
  have hput := Registry.activity_put hk hid
  obtain ⟨ch, hch, hheld⟩ := h.told id
  have hlive : ch = .live := by
    rw [activity_get hk, ha] at hheld
    cases ch with
    | live => rfl
    | _ => cases hheld
  subst hlive
  refine ⟨?_, hput, fun other => by simp [(hr other).symm]⟩
  refine sound_event h (Registry.keyed_put h.keyed next) ?_ (fun other => concerns_other hc) ?_
    hch hnext ?_
  · rintro rfl
    cases hc
  · exact fun other ho => by rw [hput, if_neg ho]
  · rw [hput, if_pos rfl, hact]

/-- A packet is added to a connection that is active, or not at all. -/
theorem addPacket_changes (h : b.Sound) (p : Packet) (ha : b.registry.activity id ≠ some false) :
    Changes b (b.apply (.addPacket id p)) b.registry.activity := by
  cases hget : b.registry.get? id with
  | none =>
    have happly : b.apply (.addPacket id p) = b := by
      simp [apply, Registry.apply, Registry.addPacket, hget]
    rw [happly]
    exact changes_none h
  | some c =>
    have hid : c.id = id := h.keyed id c hget
    have hactive : c.active = true := by
      rw [activity_get hget] at ha
      simpa using ha
    have happly : b.apply (.addPacket id p) =
        ⟨b.registry.put { c with packets := c.packets ++ [p] },
          .packetAdded id p :: b.published⟩ := by
      simp [apply, Registry.apply, Registry.addPacket, hget]
    have hput : Changes b ⟨b.registry.put { c with packets := c.packets ++ [p] },
        .packetAdded id p :: b.published⟩
          (fun other => if other = id then some c.active else b.registry.activity other) :=
      put_changes h hget hactive hid (by simp [RegistryEvent.concerns]) (by simp)
        (show Chapter.next id .live _ = some .live by simp [Chapter.next]) (by rw [hactive]; rfl)
    rw [happly]
    refine ⟨hput.sound, fun other => ?_, hput.registered⟩
    rw [hput.activity_eq]
    split
    · rename_i ho
      rw [ho, activity_get hget]
    · rfl

def closedActivity (b : Book) (id other : ConnectionId) : Option Bool :=
  if other = id then (b.registry.activity id).map (fun _ => false) else b.registry.activity other

/-- Closing what is not active changes nothing. -/
theorem close_idle (h : b.Sound) (hclosed : b.registry.activity id ≠ some true) :
    Changes b b (b.closedActivity id) := by
  refine ⟨h, fun other => ?_, fun _ => Iff.rfl⟩
  unfold closedActivity
  split
  · rename_i ho
    subst ho
    cases hact : b.registry.activity other with
    | none => rfl
    | some active =>
      cases active with
      | true => exact absurd hact hclosed
      | false => rfl
  · rfl

/-- A connection that is closed is no longer active, if the registry holds it. -/
theorem close_changes (h : b.Sound) (id : ConnectionId) (time : Timestamp) :
    Changes b (b.apply (.close id time)) (b.closedActivity id) := by
  cases hget : b.registry.get? id with
  | none =>
    have happly : b.apply (.close id time) = b := by
      simp [apply, Registry.apply, Registry.close, hget]
    rw [happly]
    exact close_idle h (by simp [Registry.activity, hget])
  | some c =>
    cases hactive : c.active with
    | false =>
      have happly : b.apply (.close id time) = b := by
        simp [apply, Registry.apply, Registry.close, hget, hactive]
      rw [happly]
      exact close_idle h (by simp [Registry.activity, hget, hactive])
    | true =>
      have hid : c.id = id := h.keyed id c hget
      have happly : b.apply (.close id time) =
          ⟨b.registry.put { c with active := false, closed := some time },
            .closed id :: b.published⟩ := by
        simp [apply, Registry.apply, Registry.close, hget, hactive]
      rw [happly]
      have hput : Changes b ⟨b.registry.put { c with active := false, closed := some time },
          .closed id :: b.published⟩
            (fun other => if other = id then some false else b.registry.activity other) :=
        put_changes h hget hactive hid (by simp [RegistryEvent.concerns]) (by simp)
          (show Chapter.next id .live _ = some .shut by simp [Chapter.next]) rfl
      refine ⟨hput.sound, fun other => ?_, hput.registered⟩
      rw [hput.activity_eq, closedActivity, activity_get hget]
      rfl

/-- After the registry is cleared, it holds nothing. -/
theorem clear_changes (h : b.Sound) : Changes b (b.apply .clear) (fun _ => none) := by
  have hnone : ∀ other, (b.apply .clear).registry.activity other = none := fun _ => rfl
  refine ⟨⟨fun id c hc => (by cases hc), fun other => ?_⟩, hnone, fun other => ?_⟩
  · obtain ⟨ch, hch, -⟩ := h.told other
    refine ⟨if ch = .unheard then .unheard else .past, ?_, ?_⟩
    · show (chapter other b.published).bind (Chapter.next other · .cleared) = _
      rw [hch]
      rfl
    · rw [hnone]
      split <;> rfl
  · show _ ∈ .cleared :: b.published ↔ _
    simp

end

end Book

end Wiretap
