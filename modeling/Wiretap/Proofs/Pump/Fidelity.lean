import Wiretap.Proofs.Pump.Course
import Wiretap.Proofs.Pump.Ledger

/-! A pump forwards and captures exactly what it reads, in order. Only the
chunk that is on its way when relaying ends can be lost, and nothing is
captured before it was written and flushed. -/

set_option autoImplicit false

namespace Wiretap.Pump

def InFlight (held chunk : Bytes) (acts : List Action) : Prop :=
  chunk ≠ [] ∧ (reads acts).getLast? = some chunk ∧
    received acts = captured acts ++ held ++ chunk

/-- What the ledger shows once relaying has ended. -/
structure Settled (outcome : Outcome) (acts : List Action) : Prop where
  captured_written : captured acts <+: written acts
  written_received : written acts <+: received acts
  lost : ∃ x, received acts = captured acts ++ x ∧
    (x = [] ∨ (reads acts).getLast? = some x) ∧
    (x ≠ [] → outcome = .writeFailed ∨ outcome = .tornDown)

def Balance (held : Bytes) (acts : List Action) : Phase → Prop
  | .reading _ => received acts = captured acts ++ held ∧ written acts = received acts
  | .writing chunk rest => InFlight held chunk acts ∧
      ∃ sent, chunk = sent ++ rest ∧ written acts = captured acts ++ held ++ sent
  | .flushing chunk => InFlight held chunk acts ∧ written acts = received acts
  | .closing outcome _ => held = [] ∧ Settled outcome acts
  | .ended outcome => held = [] ∧ Settled outcome acts

def Flushed (acts : List Action) (bytes : Bytes) : Prop :=
  bytes ≠ [] → ∃ before after, acts = before ++ .flushed :: after ∧ bytes <+: written before

def Ordered (acts : List Action) : Prop :=
  ∀ before bytes after, acts = before ++ .captured bytes :: after →
    Flushed before (captured before ++ bytes)

def Whole (all left : Bytes) (acts : List Action) : Phase → Prop
  | .closing outcome _ =>
    outcome = .sourceClosed ∨ outcome = .readFailed → received acts = all
  | .ended outcome => outcome = .sourceClosed ∨ outcome = .readFailed → received acts = all
  | _ => received acts ++ left = all

structure Sound (p : Pump) (acts : List Action) : Prop where
  balance : Balance p.bytes acts p.phase
  burst : ∀ b ∈ p.burst, b ≠ []
  packets : ∀ b ∈ captures acts, b ≠ []
  flushed : Flushed acts (captured acts ++ p.bytes)
  ordered : Ordered acts

section
variable {s : Setup} {torn : Bool} {now : Nat} {p q : Pump} {e : Event}
  {acts more : List Action} {outcome : Outcome} {sink : Sink}

theorem prefix_of_eq {xs ys : Bytes} (h : xs = ys) : xs <+: ys := h ▸ List.prefix_refl xs

/-- Relaying that ends captures what is held back and may lose the chunk on its way. -/
theorem balance_ends {said : List Action} (hm : Adds more [] [] 0 p.packet)
    (he : Ends s torn now p.phase e outcome said) (h : Balance p.bytes acts p.phase) :
    Settled outcome (acts ++ more) := by
  have hr : reads (acts ++ more) = reads acts := by simp [hm.reads_eq]
  have hi : received (acts ++ more) = received acts := by simp [hm.received_eq]
  have hw : written (acts ++ more) = written acts := by simp [hm.written_eq]
  have hc : captured (acts ++ more) = captured acts ++ p.bytes := by simp [hm.captured_eq]
  have hp := ends_relaying he
  generalize p.phase = phase at h he hp
  cases hp with
  | reading deadline =>
    refine ⟨?_, ?_, [], ?_, .inl rfl, fun hx => absurd rfl hx⟩
    · exact prefix_of_eq (by rw [hc, hw, h.2, h.1])
    · exact prefix_of_eq (by rw [hw, hi, h.2])
    · rw [hi, hc, h.1, List.append_nil]
  | writing chunk rest =>
    obtain ⟨⟨-, hlast, hin⟩, sent, hsent, hout⟩ := h
    refine ⟨?_, ?_, chunk, ?_, .inr (hr ▸ hlast), fun _ => ?_⟩
    · rw [hc, hw, hout]
      exact List.prefix_append _ _
    · rw [hw, hi, hout, hin, hsent, ← List.append_assoc]
      exact List.prefix_append _ _
    · rw [hi, hc, hin]
    · cases he <;> simp
  | flushing chunk =>
    obtain ⟨⟨-, hlast, hin⟩, hout⟩ := h
    refine ⟨?_, ?_, chunk, ?_, .inr (hr ▸ hlast), fun _ => ?_⟩
    · rw [hc, hw, hout, hin]
      exact List.prefix_append _ _
    · exact prefix_of_eq (by rw [hw, hi, hout])
    · rw [hi, hc, hin]
    · cases he <;> simp

theorem balance_reading {packets : List Bytes} {deadline : Option Nat} {held : Bytes}
    {flushed : Nat} (hm : Adds more [] [] flushed packets)
    (hr : received acts = captured acts ++ packets.flatten ++ held)
    (hw : written acts = received acts) : Balance held (acts ++ more) (.reading deadline) := by
  constructor
  · simp [hm.received_eq, hm.captured_eq, hr]
  · simp [hm.received_eq, hm.written_eq, hw]

theorem settled_append (hm : Silent more) (h : Settled outcome acts) :
    Settled outcome (acts ++ more) := by
  constructor
  · simpa [hm.written_eq, hm.captured_eq] using h.captured_written
  · simpa [hm.written_eq, hm.received_eq] using h.written_received
  · simpa [hm.reads_eq, hm.received_eq, hm.captured_eq] using h.lost

theorem flushed_append {bytes : Bytes} (h : Flushed acts bytes) : Flushed (acts ++ more) bytes := by
  intro hb
  obtain ⟨before, after, rfl, hw⟩ := h hb
  exact ⟨before, after ++ more, by simp, hw⟩

theorem flushed_flush {bytes : Bytes} (h : bytes <+: written acts) :
    Flushed (acts ++ .flushed :: more) bytes := fun _ => ⟨acts, more, rfl, h⟩

theorem ordered_append (h : Ordered acts)
    (hm : ∀ before bytes after, more = before ++ .captured bytes :: after →
      Flushed (acts ++ before) (captured (acts ++ before) ++ bytes)) : Ordered (acts ++ more) := by
  intro before bytes after he
  rcases List.append_eq_append_iff.mp he with ⟨front, rfl, hfront⟩ | ⟨front, hacts, hfront⟩
  · exact hm front bytes after hfront
  · cases front with
    | nil =>
      rw [List.append_nil] at hacts
      have := hm [] bytes after (by simpa using hfront.symm)
      simpa [hacts] using this
    | cons a front =>
      cases hfront
      exact h before bytes front hacts

theorem ordered_silent (h : Ordered acts) (hm : captures more = []) : Ordered (acts ++ more) := by
  refine ordered_append h fun before bytes after he => ?_
  rw [he, captures_append] at hm
  cases (List.append_eq_nil_iff.mp hm).2

/-- A burst that has been flushed may be captured. -/
theorem ordered_packet (h : Ordered acts) (hf : Flushed acts (captured acts ++ p.bytes))
    (hm : captures more = p.packet) : Ordered (acts ++ more) := by
  refine ordered_append h fun before bytes after he => ?_
  have hsplit : captures before ++ bytes :: captures after = p.packet := by
    rw [← hm, he, captures_append]
    rfl
  have hnone : captures before = [] ∧ bytes = p.bytes := by
    unfold packet at hsplit
    split at hsplit
    · cases (List.append_eq_nil_iff.mp hsplit).2
    · rcases List.append_eq_singleton_iff.mp hsplit with ⟨hb, hc⟩ | ⟨-, hc⟩
      · exact ⟨hb, (List.cons.inj hc).1⟩
      · cases hc
  have hcaptured : captured (acts ++ before) = captured acts := by simp [captured, hnone.1]
  rw [hcaptured, hnone.2]
  exact flushed_append hf

theorem packet_ne_nil (h : ∀ b ∈ p.burst, b ≠ []) : ∀ b ∈ p.packet, b ≠ [] := by
  intro b hb
  unfold packet at hb
  split at hb
  · cases hb
  · rename_i hburst
    obtain ⟨x, xs, hx⟩ := List.exists_cons_of_ne_nil hburst
    rw [List.mem_singleton.mp hb]
    have : x ≠ [] := h x (by simp [hx])
    simp [bytes, hx, this]

/-- Capturing the burst of a pump that reads. -/
theorem sound_emit {deadline : Option Nat} (hk : s.sink = some sink)
    (h : Sound { p with phase := .reading deadline } acts) :
    Sound { (p.emit s).1 with phase := .reading none } (acts ++ (p.emit s).2) := by
  have hm := emit_adds s p hk
  have hb : bytes { (p.emit s).1 with phase := .reading none } = [] := by simp [bytes]
  obtain ⟨hr, hw⟩ := h.balance
  constructor
  · rw [hb]
    refine balance_reading hm ?_ hw
    rw [hr, packet_flatten, List.append_nil]
    rfl
  · intro b hin
    rw [show ({ (p.emit s).1 with phase := .reading none } : Pump).burst = [] from
      emit_burst s p] at hin
    cases hin
  · intro b hin
    rw [captures_append, hm.captures_eq, List.mem_append] at hin
    exact hin.elim (h.packets b) (packet_ne_nil h.burst b)
  · rw [hb, captured_append, hm.captured_eq, packet_flatten, List.append_nil]
    exact flushed_append h.flushed
  · exact ordered_packet h.ordered h.flushed hm.captures_eq

/-- A chunk that was written and flushed joins what is held back. -/
theorem sound_joined {chunk : Bytes} (here : p.phase = .flushing chunk) (h : Sound p acts)
    (deadline : Option Nat) :
    Sound { p.joined chunk with phase := .reading deadline } (acts ++ [.flushed]) := by
  have hm := flushed_adds
  have hb : bytes { p.joined chunk with phase := .reading deadline } = p.bytes ++ chunk :=
    joined_bytes p chunk
  obtain ⟨⟨hsome, -, hin⟩, hout⟩ := here ▸ h.balance
  constructor
  · rw [hb]
    exact balance_reading hm (by simp [hin]) hout
  · intro b hb
    rcases List.mem_cons.mp hb with rfl | hb
    · exact hsome
    · exact h.burst b hb
  · simpa [hm.captures_eq] using h.packets
  · rw [hb, captured_append, hm.captured_eq, List.flatten_nil, List.append_nil]
    exact flushed_flush (prefix_of_eq (by rw [hout, hin, List.append_assoc]))
  · exact ordered_silent h.ordered hm.captures_eq

theorem sound_forwarded {chunk : Bytes} (hk : s.sink = some sink)
    (here : p.phase = .flushing chunk) (h : Sound p acts) :
    Sound (p.forwarded s now chunk).1 (acts ++ (p.forwarded s now chunk).2) := by
  rw [forwarded_eq]
  split
  · exact sound_joined here h _
  · rw [List.append_cons]
    exact sound_emit hk (sound_joined here h none)

theorem sound_ends {said : List Action} (hk : s.sink = some sink)
    (he : Ends s torn now p.phase e outcome said) (h : Sound p acts) :
    Sound (p.finish s now outcome).1 (acts ++ (said ++ (p.finish s now outcome).2)) := by
  have hm := ends_adds s p now hk he
  have hb : (p.finish s now outcome).1.burst = [] := emit_burst s p
  have hbytes : (p.finish s now outcome).1.bytes = [] := by simp [bytes, hb]
  constructor
  · exact ⟨hbytes, balance_ends hm he h.balance⟩
  · rw [hb]
    exact fun b hin => by cases hin
  · intro b hin
    rw [captures_append, hm.captures_eq, List.mem_append] at hin
    exact hin.elim (h.packets b) (packet_ne_nil h.burst b)
  · rw [hbytes, captured_append, hm.captured_eq, packet_flatten, List.append_nil]
    exact flushed_append h.flushed
  · exact ordered_packet h.ordered h.flushed hm.captures_eq

/-- A move that neither changes the burst nor captures anything keeps the balance of the
phase it leads to. -/
theorem sound_phase {phase : Phase} {chunks : List Bytes} {wrote : Bytes}
    (hm : Adds more chunks wrote 0 []) (h : Sound p acts)
    (hb : Balance p.bytes (acts ++ more) phase) : Sound { p with phase } (acts ++ more) := by
  have hc : captured (acts ++ more) = captured acts := by simp [hm.captured_eq]
  constructor
  · exact hb
  · exact h.burst
  · rw [captures_append, hm.captures_eq, List.append_nil]
    exact h.packets
  · rw [hc]
    exact flushed_append h.flushed
  · exact ordered_silent h.ordered hm.captures_eq

theorem balance_chunk {chunk : Bytes} {deadline : Option Nat} (hn : chunk ≠ [])
    (h : Balance p.bytes acts (.reading deadline)) :
    Balance p.bytes (acts ++ [.read chunk]) (.writing chunk chunk) := by
  obtain ⟨hr, hw⟩ := h
  have hm := read_adds chunk
  refine ⟨⟨hn, ?_, ?_⟩, [], rfl, ?_⟩
  · rw [reads_append, hm.reads_eq, List.getLast?_concat]
  · simp [hm.received_eq, hm.captured_eq, hr]
  · simp [hm.written_eq, hm.captured_eq, hw, hr]

/-- A write moves a first part of what is left. -/
theorem balance_took {chunk rest : Bytes} {count : Nat}
    (h : Balance p.bytes acts (.writing chunk rest)) :
    Balance p.bytes (acts ++ [.wrote (rest.take count)]) (afterWrite chunk (rest.drop count)) := by
  obtain ⟨⟨hn, hlast, hin⟩, sent, hsent, hout⟩ := h
  have hm := wrote_adds (rest.take count)
  have hsplit : rest.take count ++ rest.drop count = rest := List.take_append_drop count rest
  have hflight : InFlight p.bytes chunk (acts ++ [.wrote (rest.take count)]) := by
    refine ⟨hn, ?_, ?_⟩
    · rw [reads_append, hm.reads_eq, List.append_nil, hlast]
    · simp [hm.received_eq, hm.captured_eq, hin]
  unfold afterWrite
  split
  · rename_i hdone
    rw [List.isEmpty_iff.mp hdone, List.append_nil] at hsplit
    refine ⟨hflight, ?_⟩
    rw [written_append, received_append, hm.written_eq, hm.received_eq, hout, hin, hsent, hsplit]
    simp
  · refine ⟨hflight, sent ++ rest.take count, ?_, ?_⟩
    · rw [List.append_assoc, hsplit, hsent]
    · simp [hm.written_eq, hm.captured_eq, hout]

theorem sound_move (hk : s.sink = some sink) (m : Move s torn now p e q more)
    (h : Sound p acts) : Sound q (acts ++ more) := by
  have hb := h.balance
  cases m with
  | chunk here calm due fit =>
    rw [here] at hb
    exact sound_phase (read_adds _) h (balance_chunk (fits_ne_nil fit) hb)
  | quiet here calm past => exact sound_emit hk (by rwa [phase_eta here])
  | took here calm taken most =>
    rw [here] at hb
    exact sound_phase (wrote_adds _) h (balance_took hb)
  | forwarded here calm => exact sound_forwarded hk here h
  | ends why => exact sound_ends hk why h
  | closes here how =>
    rw [here] at hb
    have hm := closes_silent s now how
    exact sound_phase hm h ⟨hb.1, settled_append hm hb.2⟩

/-- A move reads the chunk of its event and nothing else. -/
theorem move_reads (hk : s.sink = some sink) (m : Move s torn now p e q more) :
    reads more = e.chunk?.toList := by
  cases m with
  | chunk => rfl
  | quiet => exact (emit_adds s p hk).reads_eq
  | took => rfl
  | forwarded =>
    rw [forwarded_eq]
    split
    · rfl
    · exact (emit_adds s _ hk).reads_eq
  | ends why =>
    rw [(ends_adds s p now hk why).reads_eq, ends_chunk why]
    rfl
  | closes _ how =>
    rw [(closes_silent s now how).reads_eq]
    cases how <;> rfl

theorem whole_relaying {all : Bytes} {source left : List Piece} {cue : Cue}
    (hk : s.sink = some sink) (hs : served s now source cue = some (e, left))
    (m : Move s torn now p e q more)
    (he : ¬e = .sourceEnd ∧ ∀ error, ¬e = .readError error)
    (h : received acts ++ stream source = all) : received (acts ++ more) ++ stream left = all := by
  have hm : received more = e.chunk?.getD [] := by
    rw [received, move_reads hk m]
    cases e.chunk? <;> simp
  rw [received_append, hm, List.append_assoc, ← served_stream hs he, h]

/-- A pump that ends by itself has read the whole source. -/
theorem whole_ends {all : Bytes} {source left : List Piece} {cue : Cue} {said : List Action}
    (hk : s.sink = some sink) (hs : served s now source cue = some (e, left))
    (why : Ends s torn now p.phase e outcome said)
    (h : Whole all (stream source) acts p.phase) :
    Whole all (stream left) (acts ++ (said ++ (p.finish s now outcome).2))
      (p.finish s now outcome).1.phase := by
  have hm := ends_adds s p now hk why
  have hp : received (acts ++ (said ++ (p.finish s now outcome).2)) = received acts := by
    rw [received_append, hm.received_eq, List.flatten_nil, List.append_nil]
  show _ → received (acts ++ (said ++ (p.finish s now outcome).2)) = all
  rw [hp]
  generalize p.phase = phase at h why
  cases why with
  | sourceEnd =>
    intro _
    rw [← h, served_last hs (.inl rfl), List.append_nil]
  | readError =>
    intro _
    rw [← h, served_last hs (.inr ⟨_, rfl⟩), List.append_nil]
  | tornDown => rintro (ho | ho) <;> cases ho
  | writeError => rintro (ho | ho) <;> cases ho
  | lateError => rintro (ho | ho) <;> cases ho

theorem whole_move {all : Bytes} {source left : List Piece} {cue : Cue}
    (hk : s.sink = some sink) (hs : served s now source cue = some (e, left))
    (m : Move s torn now p e q more) (h : Whole all (stream source) acts p.phase) :
    Whole all (stream left) (acts ++ more) q.phase := by
  have hr : (¬e = .sourceEnd ∧ ∀ error, ¬e = .readError error) →
      received acts ++ stream source = all → received (acts ++ more) ++ stream left = all :=
    whole_relaying hk hs m
  cases m with
  | chunk here =>
    rw [here] at h
    exact hr (by simp) h
  | quiet here =>
    rw [here] at h
    exact hr (by simp) h
  | took here =>
    rw [here] at h
    show Whole all _ _ (afterWrite _ _)
    unfold afterWrite
    split <;> exact hr (by simp) h
  | forwarded here =>
    rw [here] at h
    obtain ⟨deadline, hd⟩ := forwarded_phase s p now _
    rw [hd]
    exact hr (by simp) h
  | ends why => exact whole_ends hk hs why h
  | closes here how =>
    rw [here] at h
    intro ho
    rw [received_append, (closes_silent s now how).received_eq, List.flatten_nil, List.append_nil]
    exact h ho

structure Course.Faithful (source : List Piece) (c : Course) : Prop where
  sound : Sound c.pump c.actions
  whole : Whole (stream source) (stream c.source) c.actions c.pump.phase

theorem begin_faithful (s : Setup) (source : List Piece) :
    (Course.begin s source).Faithful source := by
  refine ⟨⟨⟨rfl, rfl⟩, ?_, ?_, fun h => absurd rfl h, ?_⟩, rfl⟩
  · exact fun b hb => by cases hb
  · exact fun b hb => by cases hb
  · intro before bytes after h
    cases before with
    | nil => cases h
    | cons a before =>
      have : before ++ .captured bytes :: after = [] := (List.cons.inj h).2.symm
      simp at this

theorem step_faithful {source : List Piece} (hk : s.sink = some sink) (c : Course) (b : Beat)
    (d : Course) (h : c.Faithful source) (hd : c.step s b = some d) : d.Faithful source := by
  obtain ⟨e, acts, hs, m, -, ht⟩ := Course.step_move hd
  constructor
  · rw [Course.actions_step ht]
    exact sound_move hk m h.sound
  · rw [Course.actions_step ht]
    exact whole_move hk hs m h.whole

theorem balance_prefix {held : Bytes} {phase : Phase} (h : Balance held acts phase) :
    captured acts <+: written acts ∧ written acts <+: received acts := by
  cases phase with
  | reading deadline =>
    obtain ⟨hr, hw⟩ := h
    rw [hw, hr]
    exact ⟨List.prefix_append _ _, List.prefix_refl _⟩
  | writing chunk rest =>
    obtain ⟨⟨-, -, hin⟩, sent, hsent, hout⟩ := h
    rw [hin, hout, hsent]
    simp only [← List.append_assoc]
    exact ⟨⟨held ++ sent, by simp⟩, List.prefix_append _ _⟩
  | flushing chunk =>
    obtain ⟨⟨-, -, hin⟩, hout⟩ := h
    rw [hout, hin, List.append_assoc]
    exact ⟨List.prefix_append _ _, List.prefix_refl _⟩
  | closing o d => exact ⟨h.2.captured_written, h.2.written_received⟩
  | ended o => exact ⟨h.2.captured_written, h.2.written_received⟩

/-- Relaying that ends by itself loses nothing. -/
theorem settled_whole (h : Settled outcome acts)
    (ho : outcome = .sourceClosed ∨ outcome = .readFailed) :
    captured acts = received acts ∧ written acts = received acts := by
  obtain ⟨x, hx, -, hlost⟩ := h.lost
  have hnil : x = [] := by
    by_cases hn : x = []
    · exact hn
    · rcases ho with rfl | rfl <;> rcases hlost hn with hl | hl <;> cases hl
  have hc : captured acts = received acts := by rw [hx, hnil, List.append_nil]
  refine ⟨hc, h.written_received.eq_of_length_le ?_⟩
  rw [← hc]
  exact h.captured_written.length_le

end

/-- Whatever the source, the destination and the teardown flag do: what is captured was
written and flushed before, what is written was read, in order, and no packet is empty.
Once the pump has ended at most the last chunk it read is not captured, and that only
after a failed write or a teardown; a source that ended or failed by itself was
captured and written as a whole. -/
theorem course_faithful (s : Setup) (sink : Sink) (hk : s.sink = some sink)
    (source : List Piece) (beats : List Beat) (c : Course)
    (h : Course.run s beats (.begin s source) = some c) :
    captured c.actions <+: written c.actions ∧ written c.actions <+: received c.actions ∧
    (∀ packet ∈ captures c.actions, packet ≠ []) ∧
    (∀ before packet after, c.actions = before ++ .captured packet :: after →
      ∃ earlier later, before = earlier ++ .flushed :: later ∧
        captured before ++ packet <+: written earlier) ∧
    ∀ outcome, c.pump.outcome? = some outcome →
      (∃ lost, received c.actions = captured c.actions ++ lost ∧
        (lost = [] ∨ (reads c.actions).getLast? = some lost) ∧
        (lost ≠ [] → outcome = .writeFailed ∨ outcome = .tornDown)) ∧
      (outcome = .sourceClosed ∨ outcome = .readFailed →
        received c.actions = stream source ∧ written c.actions = stream source ∧
          captured c.actions = stream source) := by
  obtain ⟨hsound, hwhole⟩ :=
    Course.run_invariant (step_faithful hk) beats _ c (begin_faithful s source) h
  obtain ⟨hcw, hwr⟩ := balance_prefix hsound.balance
  refine ⟨hcw, hwr, hsound.packets, ?_, ?_⟩
  · intro before packet after he
    have hn : packet ≠ [] := hsound.packets packet (by
      rw [he, captures_append]
      exact List.mem_append_right _ List.mem_cons_self)
    exact hsound.ordered before packet after he (by simp [hn])
  · intro outcome ho
    have hbalance := hsound.balance
    rw [outcome_ended ho] at hbalance hwhole
    refine ⟨hbalance.2.lost, fun hself => ?_⟩
    obtain ⟨hc, hw⟩ := settled_whole hbalance.2 hself
    exact ⟨hwhole hself, hw.trans (hwhole hself), hc.trans (hwhole hself)⟩

def tornSetup : Setup := ⟨.ofNat 1, .toTarget, ⟨2, 50, 1024⟩, some .quiet, true⟩

def tornSource : List Piece := [⟨some 0, .data [1, 2, 3]⟩, ⟨some 9, .data [4, 5]⟩]

def tornBeats : List Beat :=
  [⟨0, false, .poll⟩, ⟨0, false, .answer (.took 1)⟩, ⟨1, false, .answer (.took 1)⟩,
    ⟨2, false, .answer .flushed⟩, ⟨2, false, .poll⟩, ⟨2, false, .answer (.took 1)⟩,
    ⟨2, false, .answer .flushed⟩, ⟨9, false, .poll⟩, ⟨9, false, .answer (.took 1)⟩,
    ⟨9, true, .answer .tornDown⟩, ⟨9, true, .answer .closed⟩]

/-- The chunk on its way is lost, of which one byte had been written. -/
theorem course_faithful_torn : ∃ c, Course.run tornSetup tornBeats (.begin tornSetup tornSource) =
      some c ∧ c.pump.outcome? = some .tornDown ∧ captures c.actions = [[1, 2, 3]] ∧
    written c.actions = [1, 2, 3, 4] ∧ received c.actions = [1, 2, 3, 4, 5] ∧
    captured c.actions <+: written c.actions ∧ written c.actions <+: received c.actions := by
  refine ⟨_, rfl, rfl, rfl, rfl, rfl, ?_⟩
  have h := course_faithful tornSetup .quiet rfl tornSource tornBeats _ rfl
  exact ⟨h.1, h.2.1⟩

end Wiretap.Pump
