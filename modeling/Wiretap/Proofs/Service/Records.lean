import Wiretap.Proofs.Engine.Moves
import Wiretap.Proofs.Registry.Book
import Wiretap.Service

/-! What reaches the registry of a service. Of all that an engine does, a client
that is asked about is registered, captured bytes are added as packets, and the
close of a handler closes its connection; the rest leaves the registry alone. -/

set_option autoImplicit false

namespace Wiretap

namespace Recorder

def book (r : Recorder) : Book := ⟨r.registry, r.feed.published⟩

theorem apply_book (r : Recorder) (op : Registry.Operation) :
    (r.apply op).2.book = r.book.apply op := by
  simp only [apply, book, Book.apply]
  cases (r.registry.apply op).event <;> rfl

theorem accepted_book (r : Recorder) (c : Connection) :
    (r.accepted c).book = r.book.apply (.register c) := apply_book r _

theorem closed_book (r : Recorder) (time : Timestamp) (id : ConnectionId) :
    (r.closed time id).book = r.book.apply (.close id time) := apply_book r _

/-- A packet for a connection that is not held changes nothing either way. -/
theorem captured_book (r : Recorder) (time : Timestamp) (id : ConnectionId) (d : Direction)
    (bytes : Bytes) : (r.captured time id d bytes).book =
      r.book.apply (.addPacket id (Packet.capture time d bytes)) := by
  unfold captured
  split
  · exact apply_book r _
  · rename_i hn
    have hget : r.registry.get? id = none := by simpa [Registry.contains] using hn
    show r.book = _
    simp [book, Book.apply, Registry.apply, Registry.addPacket, hget]

end Recorder

namespace Service
open Engine (Mark marks)

def handled? (time : Timestamp) (id : ConnectionId) : Handler.Action → Option Registry.Operation
  | .relayed d (.captured bytes) => some (.addPacket id (Packet.capture time d bytes))
  | .closed => some (.close id time)
  | _ => none

def operation? (time : Timestamp) (client? : Nat → Option Client) :
    Mark → Option Registry.Operation
  | .asked c => some (.register c.connection)
  | .handler i a => (client? i).bind fun c => handled? time c.id a

section
variable (time : Timestamp)

theorem record_handler (s : Service) (number i : Nat) (a : Handler.Action) :
    (s.record time number (.handler i a)).book =
      ((s.client? number i).bind fun c => handled? time c.id a).elim s.recorder.book
        s.recorder.book.apply := by
  cases hc : s.client? number i with
  | none =>
    cases a with
    | relayed d b => cases b <;> simp [record, hc]
    | _ => simp [record, hc]
  | some c =>
    cases a with
    | relayed d b =>
      cases b with
      | captured bytes => simp [record, hc, handled?, Recorder.captured_book]
      | _ => simp [record, handled?]
    | closed => simp [record, hc, handled?, Recorder.closed_book]
    | _ => simp [record, handled?]

theorem record_book (s : Service) (number : Nat) (a : Engine.Action) :
    (s.record time number a).book =
      (a.mark?.bind (operation? time (s.client? number))).elim s.recorder.book
        s.recorder.book.apply := by
  cases a with
  | handler i a => exact record_handler time s number i a
  | logged line => rfl
  | server b =>
    cases b with
    | asked c => exact Recorder.accepted_book _ _
    | _ => rfl

theorem logged_book (s : Service) (line : Option LogLine) :
    (line.elim s s.log).manager = s.manager ∧
      (line.elim s s.log).recorder.book = s.recorder.book := by
  cases line <;> exact ⟨rfl, rfl⟩

theorem absorb_engine (s : Service) (number : Nat) (a : Engine.Action) :
    (absorb time s (.engine number a)).manager = s.manager ∧
      (absorb time s (.engine number a)).recorder.book =
        (a.mark?.bind (operation? time (s.client? number))).elim s.recorder.book
          s.recorder.book.apply := by
  obtain ⟨hm, hb⟩ := logged_book s (Manager.Action.engine number a).line?
  refine ⟨hm, ?_⟩
  have hrecord := record_book time
    ((Manager.Action.engine number a).line?.elim s s.log) number a
  have hclient : ((Manager.Action.engine number a).line?.elim s s.log).client? number =
      s.client? number := by
    unfold client?
    rw [hm]
  rw [hclient, hb] at hrecord
  exact hrecord

/-- All that an engine did, as far as the registry is concerned. -/
theorem absorbAll_engine (s : Service) (number : Nat) (acts : List Engine.Action) :
    (absorbAll time s (acts.map (.engine number))).manager = s.manager ∧
      (absorbAll time s (acts.map (.engine number))).recorder.book =
        ((marks acts).filterMap (operation? time (s.client? number))).foldl Book.apply
          s.recorder.book := by
  induction acts generalizing s with
  | nil => exact ⟨rfl, rfl⟩
  | cons a acts ih =>
    obtain ⟨hm, hb⟩ := absorb_engine time s number a
    obtain ⟨hm', hb'⟩ := ih (absorb time s (.engine number a))
    have hclient : (absorb time s (.engine number a)).client? number = s.client? number := by
      unfold client?
      rw [hm]
    refine ⟨hm'.trans hm, hb'.trans ?_⟩
    rw [hclient, hb]
    cases ha : a.mark? with
    | none => rw [marks, marks, List.filterMap_cons_none ha]; rfl
    | some m =>
      rw [marks, marks, List.filterMap_cons_some ha]
      cases ho : operation? time (s.client? number) m with
      | none => rw [List.filterMap_cons_none ho, Option.bind_some, ho]; rfl
      | some op => rw [List.filterMap_cons_some ho, Option.bind_some, ho]; rfl

/-- What a manager says about itself leaves the registry alone. -/
theorem absorbAll_quiet (s : Service) (acts : List Manager.Action)
    (h : ∀ a ∈ acts, ∀ number b, a ≠ .engine number b) :
    (absorbAll time s acts).manager = s.manager ∧
      (absorbAll time s acts).recorder.book = s.recorder.book := by
  induction acts generalizing s with
  | nil => exact ⟨rfl, rfl⟩
  | cons a acts ih =>
    obtain ⟨hm, hb⟩ := ih (absorb time s a) fun b hin => h b (List.mem_cons_of_mem _ hin)
    have ha : (absorb time s a).manager = s.manager ∧
        (absorb time s a).recorder.book = s.recorder.book := by
      cases a with
      | engine number b => exact absurd rfl (h _ List.mem_cons_self number b)
      | logged line => exact ⟨rfl, rfl⟩
      | reported e c => exact ⟨rfl, rfl⟩
    exact ⟨hm.trans ha.1, hb.trans ha.2⟩

end

end Service
end Wiretap
