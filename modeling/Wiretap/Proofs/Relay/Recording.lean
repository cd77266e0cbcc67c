import Wiretap.Proofs.Packet.History
import Wiretap.Proofs.Registry.Book
import Wiretap.Proofs.Registry.Order
import Wiretap.Proofs.Relay.Polls
import Wiretap.Registry.Recorder

/-! The two pumps of a registered connection with the recorder as their sink. To
record what was captured takes two turns at the registry: the connection is
looked up, and the packet is added later. Anything may happen to the registry
in between, except that it is cleared. -/

set_option autoImplicit false

namespace Wiretap

namespace Recorder

def added (r : Recorder) (time : Timestamp) (id : ConnectionId) (d : Direction) (bytes : Bytes) :
    Recorder :=
  (r.apply (.addPacket id (Packet.capture time d bytes))).2.note .trace
    s!"Data captured for connection {id.text}: {bytes.length} bytes, direction: {d.label}"

def missed (r : Recorder) (id : ConnectionId) : Recorder :=
  r.note .warn s!"Received data for unregistered connection: {id.text}"

theorem captured_turns (r : Recorder) (time : Timestamp) (id : ConnectionId) (d : Direction)
    (bytes : Bytes) : r.captured time id d bytes =
      if r.registry.contains id then r.added time id d bytes else r.missed id := rfl

end Recorder

inductive Recording where
  | asked (bytes : Bytes)
  | found (bytes : Bytes)

def Recording.bytes : Recording → Bytes
  | .asked bytes => bytes
  | .found bytes => bytes

structure Tap where
  relay : Relay
  recorder : Recorder
  pending : Direction → List Recording

namespace Tap
open Pump (Action Event)
open Relay (done)

inductive Input where
  | poll (d : Direction) (poll : Poll Event)
  | find (d : Direction)
  | add (d : Direction) (time : Timestamp)
  | other (call : Registry.Call)

def foreign (id : ConnectionId) : Registry.Call → Bool
  | .addPacket other _ => other != id
  | .clear => false
  | _ => true

def step (s : Handler.Setup) (x : Tap) : Input → Option (Tap × List (Direction × Action))
  | .poll d poll =>
    if (x.pending d).isEmpty then
      (x.relay.step (Handler.pumpSetup s) (d, poll)).map fun (relay, acts) =>
        ({ x with
            relay
            pending := Function.update x.pending d ((Pump.captures (done d acts)).map .asked) },
          acts)
    else none
  | .find d =>
    match x.pending d with
    | .asked bytes :: rest =>
      if x.recorder.registry.contains s.client.id then
        some ({ x with pending := Function.update x.pending d (.found bytes :: rest) }, [])
      else
        some ({ x with
            recorder := x.recorder.missed s.client.id
            pending := Function.update x.pending d rest }, [])
    | _ => none
  | .add d time =>
    match x.pending d with
    | .found bytes :: rest =>
      some ({ x with
          recorder := x.recorder.added time s.client.id d bytes
          pending := Function.update x.pending d rest }, [])
    | _ => none
  | .other call =>
    if foreign s.client.id call then
      some ({ x with recorder := (x.recorder.apply call.operation).2 }, [])
    else none

def start (s : Handler.Setup) (past : List Registry.Call) (feed : Feed) (log : List LogLine) :
    Tap :=
  ⟨.start (Handler.pumpSetup s), Recorder.accepted ⟨Registry.after past, feed, log⟩
    s.client.connection, fun _ => []⟩

def waiting (x : Tap) (d : Direction) : List Bytes := (x.pending d).map Recording.bytes

end Tap

namespace Registry

section
variable {r : Registry} {id : ConnectionId} {c : Connection}

theorem tidy_keyed (h : Tidy r) : Keyed r := by
  intro id c hget
  exact h.filed _ ((tidy_get h).mp hget)

theorem get_put_other {next : Connection} (hn : next.id ≠ id) :
    (r.put next).get? id = r.get? id := by
  rw [get_put, if_neg fun he => hn he.symm]

theorem get_put_self (hget : r.get? id = some c) {next : Connection} (hn : next.id = id) :
    (r.put next).get? id = some next := by
  rw [get_put, if_pos hn.symm, hget]
  rfl

theorem get_addPacket (h : Tidy r) (hget : r.get? id = some c) (p : Packet) :
    (r.addPacket id p).registry.get? id = some { c with packets := c.packets ++ [p] } := by
  simp only [addPacket, hget]
  exact get_put_self hget (tidy_keyed h id c hget)

/-- Foreign calls leave the packets of a connection as they are. -/
theorem get_foreign (h : Tidy r) (hget : r.get? id = some c) {call : Call}
    (hf : Tap.foreign id call = true) :
    ∃ next, (r.apply call.operation).registry.get? id = some next ∧
      next.packets = c.packets := by
  have hregister : ∀ new, ∃ next, (r.register new).registry.get? id = some next ∧
      next.packets = c.packets := by
    intro new
    cases hnew : r.get? new.id with
    | some existing => exact ⟨c, by simpa [Registry.register, hnew] using hget, rfl⟩
    | none =>
      have hne : id ≠ new.id := by
        rintro rfl
        rw [hget] at hnew
        cases hnew
      exact ⟨c, by rw [get_register hnew, if_neg hne, hget], rfl⟩
  cases call with
  | register other address port time => exact hregister _
  | registerClient client => exact hregister _
  | clear => cases hf
  | addPacket other packet =>
    have hne : other ≠ id := by simpa [Tap.foreign] using hf
    show ∃ next, (r.addPacket other packet).registry.get? id = some next ∧ _
    cases hother : r.get? other with
    | none => exact ⟨c, by simpa [addPacket, hother] using hget, rfl⟩
    | some found =>
      have hid : found.id ≠ id := fun he => hne ((tidy_keyed h other found hother).symm.trans he)
      simp only [addPacket, hother]
      refine ⟨c, (get_put_other ?_).trans hget, rfl⟩
      exact hid
  | close other time =>
    show ∃ next, (r.close other time).registry.get? id = some next ∧ _
    cases hother : r.get? other with
    | none => exact ⟨c, by simpa [close, hother] using hget, rfl⟩
    | some found =>
      have hid := tidy_keyed h other found hother
      by_cases ha : found.active = true
      · simp only [close, hother, ha, if_true]
        by_cases ho : other = id
        · subst ho
          rw [hother] at hget
          cases hget
          exact ⟨_, get_put_self hother hid, rfl⟩
        · refine ⟨c, (get_put_other ?_).trans hget, rfl⟩
          exact fun he => ho (hid.symm.trans he)
      · exact ⟨c, by simpa [close, hother, ha] using hget, rfl⟩

end

end Registry

namespace Tap
open Pump (Action Event)
open Relay (done)

structure Holds (s : Handler.Setup) (x : Tap) (acts : List (Direction × Action)) : Prop where
  tidy : Registry.Tidy x.recorder.registry
  entry : ∃ c, x.recorder.registry.get? s.client.id = some c ∧
    (∀ d, Packet.carried d c.packets ++ x.waiting d = Pump.captures (done d acts)) ∧
    ∀ p ∈ c.packets, p.Rendered

section
variable {s : Handler.Setup} {x y : Tap} {acts more : List (Direction × Action)}

theorem start_holds {past : List Registry.Call} {feed : Feed} {log : List LogLine}
    (hnew : (Registry.after past).get? s.client.id = none) :
    (start s past feed log).Holds s [] := by
  have htidy := (Registry.after_tidy past).1
  constructor
  · exact Registry.tidy_call htidy (.registerClient s.client)
  · refine ⟨s.client.connection, ?_, ?_, ?_⟩
    · show ((Registry.after past).register s.client.connection).registry.get? s.client.id = _
      rw [Registry.get_register hnew]
      exact if_pos rfl
    · exact fun d => rfl
    · exact fun p hp => by cases hp

theorem poll_holds {d : Direction} {poll : Poll Event} (h : x.Holds s acts)
    (hx : step s x (.poll d poll) = some (y, more)) : y.Holds s (acts ++ more) := by
  obtain ⟨idle, hx⟩ := Option.ite_none_right_eq_some.mp hx
  obtain ⟨⟨relay, told⟩, hr, hx⟩ := Option.map_eq_some_iff.mp hx
  cases hx
  obtain ⟨z, said, -, -, rfl⟩ := Relay.step_does hr
  obtain ⟨c, hget, hall, hshown⟩ := h.entry
  refine ⟨h.tidy, c, hget, fun other => ?_, hshown⟩
  have hbefore := hall other
  rw [Relay.done_append, Pump.captures_append, ← hbefore]
  by_cases ho : other = d
  · subst ho
    have hnone : x.waiting other = [] := by
      rw [waiting, List.isEmpty_iff.mp idle]
      rfl
    rw [hnone, List.append_nil]
    simp [waiting, Recording.bytes, Function.comp_def]
  · have hne : d ≠ other := fun he => ho he.symm
    simp [waiting, ho, Relay.done_other hne, Pump.captures]

theorem find_holds {d : Direction} (h : x.Holds s acts)
    (hx : step s x (.find d) = some (y, more)) : y.Holds s (acts ++ more) := by
  obtain ⟨c, hget, hall, hshown⟩ := h.entry
  -- the connection is there, so the recording goes on
  have hthere : x.recorder.registry.contains s.client.id = true := by
    rw [Registry.contains, hget]
    rfl
  simp only [step, hthere, if_true] at hx
  split at hx
  · rename_i bytes rest hp
    cases hx
    refine ⟨h.tidy, c, hget, fun other => ?_, hshown⟩
    rw [List.append_nil, ← hall other]
    by_cases ho : other = d
    · subst ho
      simp [waiting, hp, Recording.bytes]
    · simp [waiting, ho]
  · cases hx

theorem add_holds {d : Direction} {time : Timestamp} (h : x.Holds s acts)
    (hx : step s x (.add d time) = some (y, more)) : y.Holds s (acts ++ more) := by
  obtain ⟨c, hget, hall, hshown⟩ := h.entry
  simp only [step] at hx
  split at hx
  · rename_i bytes rest hp
    cases hx
    refine ⟨Registry.tidy_addPacket h.tidy _, _, Registry.get_addPacket h.tidy hget _, ?_, ?_⟩
    · intro other
      rw [List.append_nil, ← hall other, Packet.carried_concat]
      by_cases ho : other = d
      · subst ho
        simp [waiting, hp, Recording.bytes, Packet.capture]
      · have hne : d ≠ other := fun he => ho he.symm
        simp [waiting, ho, hne, Packet.capture]
    · intro p hin
      rcases List.mem_append.mp hin with hin | hin
      · exact hshown p hin
      · rw [List.mem_singleton.mp hin]
        exact Packet.capture_rendered time d bytes
  · cases hx

theorem other_holds {call : Registry.Call} (h : x.Holds s acts)
    (hx : step s x (.other call) = some (y, more)) : y.Holds s (acts ++ more) := by
  obtain ⟨hf, hx⟩ := Option.ite_none_right_eq_some.mp hx
  cases hx
  obtain ⟨c, hget, hall, hshown⟩ := h.entry
  obtain ⟨next, hnext, hpackets⟩ := Registry.get_foreign h.tidy hget hf
  refine ⟨Registry.tidy_call h.tidy call, next, hnext, fun d => ?_, ?_⟩
  · rw [List.append_nil, hpackets]
    exact hall d
  · rw [hpackets]
    exact hshown

theorem step_holds {i : Input} (h : x.Holds s acts) (hx : step s x i = some (y, more)) :
    y.Holds s (acts ++ more) := by
  cases i with
  | poll d poll => exact poll_holds h hx
  | find d => exact find_holds h hx
  | add d time => exact add_holds h hx
  | other call => exact other_holds h hx

end

/-- However the polls of the two pumps, their recordings and the calls of others come between
each other, as long as the registry is not cleared: what was captured one way is what the
packets of that direction carry, in order, followed by what is still being recorded. Every
packet shows its bytes, the sizes add up, and once no recording is under way the history is an
interleaving of what was captured in the two directions. -/
theorem recorded_exactly (s : Handler.Setup) (past : List Registry.Call) (feed : Feed)
    (log : List LogLine) (hnew : (Registry.after past).get? s.client.id = none)
    (inputs : List Input) (x : Tap) (acts : List (Direction × Action))
    (h : runAll (step s) inputs (start s past feed log) = some (x, acts)) :
    ∃ c, x.recorder.registry.get? s.client.id = some c ∧
      (∀ d, Packet.carried d c.packets ++ x.waiting d = Pump.captures (done d acts)) ∧
      (∀ p ∈ c.packets, p.content = Packet.contentOf p.bytes ∧
        p.display = Packet.displayText p.bytes) ∧
      (∀ d, c.bytesIn d + (x.waiting d).flatten.length =
        (Pump.captured (done d acts)).length) ∧
      c.totalBytes = c.bytesIn .toTarget + c.bytesIn .toClient ∧
      ((∀ d, x.pending d = []) → Interleaved (Pump.captures (done .toTarget acts))
        (Pump.captures (done .toClient acts)) (c.packets.map (·.bytes))) := by
  have hx : x.Holds s acts := run_invariant (P := fun _ x acts => x.Holds s acts)
    (fun _ _ _ _ _ _ hx hi => step_holds hx hi) (start_holds hnew) h
  obtain ⟨c, hget, hall, hshown⟩ := hx.entry
  refine ⟨c, hget, hall, hshown, fun d => ?_, Packet.totalSize_split c.packets, fun idle => ?_⟩
  · rw [Pump.captured, ← hall d, List.flatten_append, List.length_append]
    exact congrArg (· + _) (Packet.sizeIn_carried d c.packets)
  · have hdone : ∀ d, Packet.carried d c.packets = Pump.captures (done d acts) := by
      intro d
      have hd := hall d
      rwa [waiting, idle d, List.map_nil, List.append_nil] at hd
    rw [← hdone, ← hdone]
    exact Packet.carried_interleaved c.packets

def busySetup : Handler.Setup := { (default : Handler.Setup) with sink := some .quiet }

def busyPolls (d : Direction) (byte : UInt8) (now : Nat) : List Input :=
  [.poll d .look, .poll d (.meet now (.chunk [byte])), .poll d .look,
    .poll d (.meet now (.took 1)), .poll d (.meet now .flushed), .poll d .look,
    .poll d (.meet (now + 60) .quiet)]

def busyInputs : List Input :=
  busyPolls .toTarget 80 0 ++ busyPolls .toClient 81 61 ++
    [.find .toTarget, .find .toClient, .other (.close busySetup.client.id default),
      .add .toClient default, .add .toTarget default]

/-- Both pumps capture one byte. The later recording overtakes the earlier one between its two
turns, and the connection is closed before either of them ends. -/
theorem recorded_exactly_busy : ∃ x acts c,
    runAll (step busySetup) busyInputs (start busySetup [] .empty []) = some (x, acts) ∧
    x.recorder.registry.get? busySetup.client.id = some c ∧
    Interleaved [[80]] [[81]] (c.packets.map (·.bytes)) := by
  obtain ⟨x, acts, hrun, hidle, htarget, hclient⟩ : ∃ x acts,
      runAll (step busySetup) busyInputs (start busySetup [] .empty []) = some (x, acts) ∧
      (∀ d, x.pending d = []) ∧ Pump.captures (done .toTarget acts) = [[80]] ∧
      Pump.captures (done .toClient acts) = [[81]] := by
    refine ⟨_, _, rfl, ?_, rfl, rfl⟩
    intro d
    cases d <;> rfl
  obtain ⟨c, hget, -, -, -, -, hmixed⟩ := recorded_exactly busySetup [] .empty [] rfl busyInputs
    x acts hrun
  rw [htarget, hclient] at hmixed
  exact ⟨x, acts, c, hrun, hget, hmixed hidle⟩

end Tap
end Wiretap
