import Wiretap.Proofs.Pump.Course
import Wiretap.Proofs.Pump.Endings

/-! What a pump passes on, whether or not anything is captured. The bytes of a
source are those that were written, those that were read and not yet written,
and those that were not yet read. Only a chunk on its way is unwritten, and
after the end of the source nothing is. -/

set_option autoImplicit false

namespace Wiretap.Pump

structure Unsent (acts : List Action) (bytes : Bytes) : Prop where
  received_eq : received acts = written acts ++ bytes
  rest : bytes ≠ [] → ∃ chunk, (reads acts).getLast? = some chunk ∧ bytes <:+ chunk

structure Delivered (all : Bytes) (acts : List Action) (outcome : Outcome) (unsent unread : Bytes) :
    Prop where
  held : Unsent acts unsent
  total : received acts ++ unread = all
  complete : outcome = .sourceClosed → unsent = [] ∧ unread = []

/-- Where the bytes `all` of a source are, of which `left` can still be read. -/
def Flow (all left : Bytes) (acts : List Action) : Phase → Prop
  | .reading _ => Unsent acts [] ∧ received acts ++ left = all
  | .writing _ rest => Unsent acts rest ∧ received acts ++ left = all
  | .flushing _ => Unsent acts [] ∧ received acts ++ left = all
  | .closing outcome _ => ∃ unsent unread, Delivered all acts outcome unsent unread
  | .ended outcome => ∃ unsent unread, Delivered all acts outcome unsent unread

section
variable {s : Setup} {torn : Bool} {now : Nat} {p q : Pump} {e : Event} {acts more : List Action}
  {all left bytes : Bytes} {outcome : Outcome}

theorem idle_reads (hm : ∀ a ∈ more, a.isTransfer = false) :
    reads more = [] ∧ written more = [] := by
  induction more with
  | nil => exact ⟨rfl, rfl⟩
  | cons a more ih =>
    have ha := hm a List.mem_cons_self
    have hrest := ih fun b hb => hm b (List.mem_cons_of_mem _ hb)
    cases a with
    | read => cases ha
    | wrote => cases ha
    | _ => exact hrest

theorem idle_received (hm : ∀ a ∈ more, a.isTransfer = false) :
    received (acts ++ more) = received acts := by
  rw [received_append, received, received, (idle_reads hm).1, List.flatten_nil, List.append_nil]

theorem idle_written (hm : ∀ a ∈ more, a.isTransfer = false) :
    written (acts ++ more) = written acts := by
  rw [written_append, (idle_reads hm).2, List.append_nil]

theorem unsent_idle (hm : ∀ a ∈ more, a.isTransfer = false) (h : Unsent acts bytes) :
    Unsent (acts ++ more) bytes := by
  constructor
  · rw [idle_received hm, idle_written hm, h.received_eq]
  · rw [reads_append, (idle_reads hm).1, List.append_nil]
    exact h.rest

theorem delivered_idle {unsent unread : Bytes} (hm : ∀ a ∈ more, a.isTransfer = false)
    (h : Delivered all acts outcome unsent unread) :
    Delivered all (acts ++ more) outcome unsent unread := by
  constructor
  · exact unsent_idle hm h.held
  · rw [idle_received hm, h.total]
  · exact h.complete

theorem still_idle (h : ∀ a ∈ more, a.isStill = true) : ∀ a ∈ more, a.isTransfer = false :=
  fun a ha => (still_calm (h a ha)).2.1

theorem ends_idle {said : List Action} (h : Ends s torn now p.phase e outcome said) :
    ∀ a ∈ said ++ (p.finish s now outcome).2, a.isTransfer = false := by
  intro a ha
  rw [finish_parting] at ha
  rcases List.mem_append.mp ha with ha | ha
  · exact (ends_said h a ha).2
  · rcases List.mem_append.mp ha with ha | ha
    · exact still_idle (parting_still s p outcome) a ha
    · simp only [lastActions, List.mem_cons, List.not_mem_nil, or_false] at ha
      rcases ha with rfl | rfl <;> rfl

theorem forwarded_idle (s : Setup) (p : Pump) (now : Nat) (chunk : Bytes) :
    ∀ a ∈ (p.forwarded s now chunk).2, a.isTransfer = false := by
  intro a ha
  unfold forwarded at ha
  dsimp only at ha
  split at ha
  · rw [List.mem_singleton.mp ha]
    rfl
  · rcases List.mem_cons.mp ha with rfl | ha
    · rfl
    · exact still_idle (emit_still _ _) a ha

theorem unsent_read {chunk : Bytes} (h : Unsent acts []) :
    Unsent (acts ++ [.read chunk]) chunk := by
  have hm := read_adds chunk
  constructor
  · rw [received_append, written_append, hm.received_eq, hm.written_eq, h.received_eq]
    simp
  · intro _
    refine ⟨chunk, ?_, List.suffix_refl _⟩
    rw [reads_append, hm.reads_eq, List.getLast?_concat]

theorem unsent_wrote {rest : Bytes} (count : Nat) (h : Unsent acts rest) :
    Unsent (acts ++ [.wrote (rest.take count)]) (rest.drop count) := by
  have hm := wrote_adds (rest.take count)
  have hsplit : rest.take count ++ rest.drop count = rest := List.take_append_drop count rest
  constructor
  · rw [received_append, written_append, hm.received_eq, hm.written_eq, h.received_eq,
      List.flatten_nil, List.append_nil, List.append_assoc, hsplit]
  · intro hleft
    have hrest : rest ≠ [] := fun hn => hleft (by rw [hn, List.drop_nil])
    obtain ⟨chunk, hlast, hs⟩ := h.rest hrest
    refine ⟨chunk, ?_, (List.drop_suffix count rest).trans hs⟩
    rw [reads_append, hm.reads_eq, List.append_nil, hlast]

theorem flow_relaying {phase : Phase} (hp : Relaying phase) (h : Flow all left acts phase) :
    ∃ unsent, Unsent acts unsent ∧ received acts ++ left = all := by
  cases hp with
  | reading => exact ⟨_, h⟩
  | writing => exact ⟨_, h⟩
  | flushing => exact ⟨_, h⟩

theorem flow_ends {source rest : List Piece} {cue : Cue} {said : List Action}
    (hs : served s now source cue = some (e, rest))
    (why : Ends s torn now p.phase e outcome said) (h : Flow all (stream source) acts p.phase) :
    ∃ unsent unread, Delivered all (acts ++ (said ++ (p.finish s now outcome).2)) outcome
      unsent unread := by
  have hm := ends_idle why
  obtain ⟨unsent, hu, hall⟩ := flow_relaying (ends_relaying why) h
  have hopen : outcome ≠ .sourceClosed →
      ∃ unsent unread, Delivered all (acts ++ (said ++ (p.finish s now outcome).2)) outcome
        unsent unread := fun ho =>
    ⟨unsent, stream source, delivered_idle hm ⟨hu, hall, fun he => absurd he ho⟩⟩
  generalize p.phase = phase at h why
  cases why with
  | sourceEnd =>
    refine ⟨[], [], delivered_idle hm ⟨h.1, ?_, fun _ => ⟨rfl, rfl⟩⟩⟩
    rw [← h.2, served_last hs (.inl rfl)]
  | readError => exact hopen (by simp)
  | tornDown => exact hopen (by simp)
  | writeError => exact hopen (by simp)
  | lateError => exact hopen (by simp)

theorem flow_move {source rest : List Piece} {cue : Cue}
    (hs : served s now source cue = some (e, rest)) (m : Move s torn now p e q more)
    (h : Flow all (stream source) acts p.phase) :
    Flow all (stream rest) (acts ++ more) q.phase := by
  -- only a read takes anything from the source
  have hsame : (¬e = .sourceEnd ∧ ∀ error, ¬e = .readError error) → e.chunk? = none →
      stream source = stream rest := by
    intro he hc
    rw [served_stream hs he, hc]
    rfl
  cases m with
  | @chunk deadline bytes here =>
    rw [here] at h
    refine ⟨unsent_read h.1, ?_⟩
    rw [received_append, (read_adds bytes).received_eq, ← h.2, served_stream hs (by simp)]
    simp [Event.chunk?]
  | quiet here =>
    rw [here] at h
    have hm := still_idle (emit_still s p)
    refine ⟨unsent_idle hm h.1, ?_⟩
    rw [idle_received hm, ← hsame (by simp) rfl, h.2]
  | @took chunk left count here =>
    rw [here] at h
    have hu := unsent_wrote count h.1
    have ht : received (acts ++ [.wrote (left.take count)]) ++ stream rest = all := by
      rw [received_append, (wrote_adds _).received_eq, ← hsame (by simp) rfl, ← h.2]
      simp
    show Flow all _ _ (afterWrite chunk (left.drop count))
    unfold afterWrite
    split
    · rename_i hdone
      rw [List.isEmpty_iff.mp hdone] at hu
      exact ⟨hu, ht⟩
    · exact ⟨hu, ht⟩
  | @forwarded chunk here =>
    rw [here] at h
    obtain ⟨deadline, hd⟩ := forwarded_phase s p now chunk
    have hm := forwarded_idle s p now chunk
    rw [hd]
    refine ⟨unsent_idle hm h.1, ?_⟩
    rw [idle_received hm, ← hsame (by simp) rfl, h.2]
  | ends why => exact flow_ends hs why h
  | closes here how =>
    rw [here] at h
    obtain ⟨unsent, unread, hd⟩ := h
    exact ⟨unsent, unread, delivered_idle (still_idle (closes_still how)) hd⟩

end

end Wiretap.Pump
