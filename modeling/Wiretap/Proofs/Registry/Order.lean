import Mathlib.Data.List.Basic
import Mathlib.Data.List.Induction
import Wiretap.Registry
import Wiretap.Server

/-! The registry keeps its two containers in step. Whatever it is asked, it holds
one entry for each identifier that was registered since it was last cleared, and
lists the entries in the order in which they were first registered. -/

set_option autoImplicit false

namespace Wiretap.Registry

inductive Call where
  | register (id : ConnectionId) (address : String) (port : UInt16) (time : Timestamp)
  | registerClient (client : Client)
  | addPacket (id : ConnectionId) (packet : Packet)
  | close (id : ConnectionId) (time : Timestamp)
  | clear
  deriving DecidableEq, Repr

def Call.operation : Call → Operation
  | .register id address port time => .register (.fresh id address port time)
  | .registerClient client => .register client.connection
  | .addPacket id packet => .addPacket id packet
  | .close id time => .close id time
  | .clear => .clear

def after (calls : List Call) : Registry :=
  calls.foldl (fun r call => (r.apply call.operation).registry) .empty

def Call.requests (ids : List ConnectionId) : Call → List ConnectionId
  | .register id _ _ _ => ids ++ [id]
  | .registerClient client => ids ++ [client.id]
  | .clear => []
  | _ => ids

def requested (calls : List Call) : List ConnectionId := calls.foldl Call.requests []

def Dated (c : Connection) : Prop := c.active = true ↔ c.closed = none

structure Tidy (r : Registry) : Prop where
  keys : r.entries.map (·.1) = r.order
  nodup : r.order.Nodup
  filed : ∀ e ∈ r.entries, e.2.id = e.1
  dated : ∀ e ∈ r.entries, Dated e.2

section
variable {r : Registry} {id : ConnectionId} {c : Connection}

theorem tidy_get (h : Tidy r) : r.get? id = some c ↔ (id, c) ∈ r.entries := by
  rw [get?, List.lookup_eq_some_iff]
  constructor
  · rintro ⟨front, back, heq, -⟩
    simp [heq]
  · intro hm
    obtain ⟨front, back, heq⟩ := List.append_of_mem hm
    refine ⟨front, back, heq, fun e he => ?_⟩
    have hnodup := h.keys ▸ h.nodup
    rw [heq, List.map_append, List.map_cons] at hnodup
    have hne := (List.nodup_append.mp hnodup).2.2 e.1 (List.mem_map_of_mem he) id
      List.mem_cons_self
    simpa using Ne.symm hne

theorem tidy_mem (h : Tidy r) : id ∈ r.order ↔ ∃ c, r.get? id = some c := by
  rw [← h.keys, List.mem_map]
  constructor
  · rintro ⟨⟨_, c⟩, hc, rfl⟩
    exact ⟨c, (tidy_get h).mpr hc⟩
  · rintro ⟨c, hc⟩
    exact ⟨(id, c), (tidy_get h).mp hc, rfl⟩

theorem tidy_empty : Tidy .empty :=
  ⟨rfl, List.nodup_nil, fun e he => (by cases he), fun e he => (by cases he)⟩

/-- A connection with a new identifier comes last in both containers. -/
theorem tidy_register (h : Tidy r) (hc : Dated c) : Tidy (r.register c).registry := by
  cases hget : r.get? c.id with
  | some existing => simpa [Registry.register, hget] using h
  | none =>
    have hnew : c.id ∉ r.order := by simp [tidy_mem h, hget]
    simp only [Registry.register, hget]
    constructor
    · simp [h.keys]
    · refine List.nodup_append.mpr ⟨h.nodup, by simp, ?_⟩
      intro a ha b hb heq
      rw [List.mem_singleton.mp hb] at heq
      exact hnew (heq ▸ ha)
    · intro e he
      rcases List.mem_append.mp he with he | he
      · exact h.filed e he
      · rw [List.mem_singleton.mp he]
    · intro e he
      rcases List.mem_append.mp he with he | he
      · exact h.dated e he
      · rw [List.mem_singleton.mp he]
        exact hc

/-- An entry is changed in its place. -/
theorem tidy_put (h : Tidy r) (hc : Dated c) : Tidy (r.put c) := by
  constructor
  · rw [put, List.map_map]
    refine Eq.trans (List.map_congr_left fun e _ => ?_) h.keys
    show (if e.1 = c.id then (e.1, c) else e).1 = e.1
    split <;> rfl
  · exact h.nodup
  · intro e he
    obtain ⟨old, hold, rfl⟩ := List.mem_map.mp he
    split
    · rename_i heq
      exact heq.symm
    · exact h.filed old hold
  · intro e he
    obtain ⟨old, hold, rfl⟩ := List.mem_map.mp he
    split
    · exact hc
    · exact h.dated old hold

theorem tidy_addPacket (h : Tidy r) (p : Packet) : Tidy (r.addPacket id p).registry := by
  cases hget : r.get? id with
  | none => simpa [addPacket, hget] using h
  | some c =>
    have hdated : Dated { c with packets := c.packets ++ [p] } := h.dated _ ((tidy_get h).mp hget)
    simpa [addPacket, hget] using tidy_put h hdated

theorem tidy_close (h : Tidy r) (time : Timestamp) : Tidy (r.close id time).registry := by
  cases hget : r.get? id with
  | none => simpa [close, hget] using h
  | some c =>
    cases hactive : c.active with
    | false => simpa [close, hget, hactive] using h
    | true =>
      have hdated : Dated { c with active := false, closed := some time } := by simp [Dated]
      simpa [close, hget, hactive] using tidy_put h hdated

theorem tidy_call (h : Tidy r) (call : Call) : Tidy (r.apply call.operation).registry := by
  cases call with
  | register id address port time => exact tidy_register h (by simp [Dated, Connection.fresh])
  | registerClient client =>
    exact tidy_register h (by simp [Dated, Client.connection, Connection.fresh])
  | addPacket id packet => exact tidy_addPacket h packet
  | close id time => exact tidy_close h time
  | clear => exact tidy_empty

theorem order_register (h : Tidy r) (c : Connection) :
    (r.register c).registry.order = if c.id ∈ r.order then r.order else r.order ++ [c.id] := by
  cases hget : r.get? c.id with
  | some existing => simp [Registry.register, tidy_mem h, hget]
  | none => simp [Registry.register, tidy_mem h, hget]

theorem order_addPacket (p : Packet) : (r.addPacket id p).registry.order = r.order := by
  cases hget : r.get? id <;> simp [addPacket, hget, put]

theorem order_close (time : Timestamp) : (r.close id time).registry.order = r.order := by
  cases hget : r.get? id with
  | none => simp [close, hget]
  | some c => cases hactive : c.active <;> simp [close, hget, hactive, put]

end

theorem eraseDups_concat (ids : List ConnectionId) (id : ConnectionId) :
    (ids ++ [id]).eraseDups =
      if id ∈ ids.eraseDups then ids.eraseDups else ids.eraseDups ++ [id] := by
  rw [List.eraseDups_append]
  by_cases hin : id ∈ ids <;> simp [hin, List.removeAll, List.eraseDups_cons]

/-- The order is that of the first requests since the registry was last cleared. -/
theorem order_call {r : Registry} {ids : List ConnectionId} (h : Tidy r)
    (ho : r.order = ids.eraseDups) (call : Call) :
    (r.apply call.operation).registry.order = (call.requests ids).eraseDups := by
  cases call with
  | register id address port time =>
    rw [Call.requests, eraseDups_concat, ← ho]
    exact order_register h _
  | registerClient client =>
    rw [Call.requests, eraseDups_concat, ← ho]
    exact order_register h _
  | addPacket id packet => exact (order_addPacket packet).trans ho
  | close id time => exact (order_close time).trans ho
  | clear => rfl

theorem after_tidy (calls : List Call) :
    Tidy (after calls) ∧ (after calls).order = (requested calls).eraseDups := by
  induction calls using List.reverseRecOn with
  | nil => exact ⟨tidy_empty, rfl⟩
  | append_singleton calls call ih =>
    rw [after, requested, List.foldl_concat, List.foldl_concat]
    exact ⟨tidy_call ih.1 call, order_call ih.1 ih.2 call⟩

theorem snapshot_entries {r : Registry} (h : Tidy r) : r.snapshot = r.entries.map (·.2) := by
  rw [snapshot, ← h.keys, List.filterMap_map]
  exact List.filterMap_eq_map_iff_forall_eq_some.mpr fun e he => (tidy_get h).mpr he

/-- After any calls the two containers hold the same identifiers, each once, every entry is
filed under its own and active as long as it has no time of its close. So a snapshot shows each
registered connection once, in the order of the first registrations since the registry was last
cleared, and the counts are those of the snapshot. -/
theorem containers_in_step (calls : List Call) :
    (after calls).order.Nodup ∧ ((after calls).entries.map (·.1)).Nodup ∧
    (∀ id, id ∈ (after calls).order ↔ ∃ c, (after calls).get? id = some c) ∧
    (∀ id c, (after calls).get? id = some c → c.id = id ∧ (c.active = true ↔ c.closed = none)) ∧
    (after calls).snapshot.map (·.id) = (requested calls).eraseDups ∧
    (∀ c, c ∈ (after calls).snapshot ↔ (after calls).get? c.id = some c) ∧
    (after calls).total = (after calls).snapshot.length ∧
    (after calls).activeCount = (after calls).snapshot.countP (·.active) := by
  obtain ⟨h, horder⟩ := after_tidy calls
  have hids : (after calls).snapshot.map (·.id) = (after calls).order := by
    rw [snapshot_entries h, List.map_map, ← h.keys]
    exact List.map_congr_left h.filed
  refine ⟨h.nodup, h.keys ▸ h.nodup, fun id => tidy_mem h, fun id c hget => ?_, hids.trans horder,
    fun c => ?_, ?_, ?_⟩
  · have hentry := (tidy_get h).mp hget
    exact ⟨h.filed _ hentry, h.dated _ hentry⟩
  · rw [snapshot_entries h, tidy_get h, List.mem_map]
    constructor
    · rintro ⟨e, he, rfl⟩
      rw [h.filed e he]
      exact he
    · exact fun he => ⟨_, he, rfl⟩
  · rw [snapshot_entries h, List.length_map, total]
  · rw [snapshot_entries h, List.countP_map, activeCount]
    rfl

end Wiretap.Registry
