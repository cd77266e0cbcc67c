import Wiretap.Proofs.Pump.Course
import Wiretap.Proofs.Pump.Groups
import Wiretap.Proofs.Pump.Ledger

/-! Captured packets are the groups of the chunks that were passed on. A burst
is at all times the newest group as long as that is open, and what a pump waits
for says whether the next chunk will join it. -/

set_option autoImplicit false

namespace Wiretap.Pump

def flushTimes (trace : List (Nat × Action)) : List Nat :=
  (trace.filter (·.2.isFlush)).map (·.1)

def passedOn (chunks : List (Nat × Bytes)) (times : List Nat) : List Passed :=
  List.zipWith (fun chunk done => ⟨chunk.1, done, chunk.2⟩) chunks times

def Course.passed (c : Course) : List Passed := passedOn c.chunks (flushTimes c.trace)

structure Tallied (d : DrainSettings) (p : Pump) (cs : List Passed) (caught : List Bytes) :
    Prop where
  packets_eq : packets d cs = caught ++ p.packet
  newest : p.burst ≠ [] → ∃ g gs, groups d cs = g :: gs ∧ p.burst = g.map (·.bytes)
  held_eq : p.held = p.burst.flatten.length

structure Expects (d : DrainSettings) (p : Pump) (source : List Piece) (cs : List Passed)
    (deadline : Option Nat) : Prop where
  held : p.burst ≠ [] → p.held < d.maxPacket ∧
    ∃ last, cs.getLast? = some last ∧ deadline = some (last.done + d.quiescence)
  free : p.burst = [] → deadline = none ∧
    ∀ time, source.head?.bind (·.time) = some time → starts d cs time = true

def Carries (d : DrainSettings) (p : Pump) (chunks : List (Nat × Bytes)) (times : List Nat)
    (chunk : Bytes) : Prop :=
  ∃ older ready, chunks = older ++ [(ready, chunk)] ∧ older.length = times.length ∧
    starts d (passedOn older times) ready = p.burst.isEmpty

def Awaits (d : DrainSettings) (p : Pump) (source : List Piece) (chunks : List (Nat × Bytes))
    (times : List Nat) : Phase → Prop
  | .reading deadline =>
    chunks.length = times.length ∧ Expects d p source (passedOn chunks times) deadline
  | .writing chunk _ => Carries d p chunks times chunk
  | .flushing chunk => Carries d p chunks times chunk
  | .closing _ _ => p.burst = []
  | .ended _ => p.burst = []

structure Grouped (s : Setup) (p : Pump) (source : List Piece) (chunks : List (Nat × Bytes))
    (times : List Nat) (caught : List Bytes) : Prop where
  tally : Tallied s.settings p (passedOn chunks times) caught
  fit : ∀ chunk ∈ chunks, chunk.2.length ≤ capacity s
  awaits : Awaits s.settings p source chunks times p.phase

section
variable {s : Setup} {torn : Bool} {now : Nat} {p q : Pump} {e : Event}
  {more : List Action} {outcome : Outcome} {chunks : List (Nat × Bytes)} {times : List Nat}

theorem passedOn_short {older : List (Nat × Bytes)} {chunk : Nat × Bytes}
    (h : older.length = times.length) :
    passedOn (older ++ [chunk]) times = passedOn older times := by
  calc passedOn (older ++ [chunk]) times
      = passedOn (older ++ [chunk]) (times ++ []) := by rw [List.append_nil]
    _ = passedOn older times ++ [] := List.zipWith_append h
    _ = passedOn older times := List.append_nil _

theorem passedOn_concat {older : List (Nat × Bytes)} {ready : Nat} {bytes : Bytes}
    (h : older.length = times.length) (done : Nat) :
    passedOn (older ++ [(ready, bytes)]) (times ++ [done]) =
      passedOn older times ++ [⟨ready, done, bytes⟩] := List.zipWith_append h

theorem passedOn_mem {c : Passed} (h : c ∈ passedOn chunks times) :
    (c.ready, c.bytes) ∈ chunks := by
  induction chunks generalizing times with
  | nil => simp [passedOn] at h
  | cons chunk chunks ih =>
    cases times with
    | nil => simp [passedOn] at h
    | cons time times =>
      rcases List.mem_cons.mp h with rfl | h
      · exact List.mem_cons_self
      · exact List.mem_cons_of_mem _ (ih h)

@[simp] theorem flushTimes_append (xs ys : List (Nat × Action)) :
    flushTimes (xs ++ ys) = flushTimes xs ++ flushTimes ys := by
  simp [flushTimes]

theorem flushTimes_map (acts : List Action) (now : Nat) :
    flushTimes (acts.map (now, ·)) = List.replicate (flushes acts) now := by
  induction acts with
  | nil => rfl
  | cons a acts ih =>
    cases ha : a.isFlush <;>
      simp_all [flushTimes, flushes, List.replicate_succ]

theorem tallied_phase {d : DrainSettings} {cs : List Passed} {caught : List Bytes} {phase : Phase}
    (h : Tallied d p cs caught) : Tallied d { p with phase } cs caught :=
  ⟨h.packets_eq, h.newest, h.held_eq⟩

/-- Capturing the burst closes its group. -/
theorem tallied_emit {d : DrainSettings} {cs : List Passed} {caught : List Bytes} {phase : Phase}
    (h : Tallied d p cs caught) :
    Tallied d { (p.emit s).1 with phase } cs (caught ++ p.packet) := by
  have hburst : ({ (p.emit s).1 with phase } : Pump).burst = [] := emit_burst s p
  constructor
  · rw [packet_empty hburst, List.append_nil]
    exact h.packets_eq
  · exact fun hn => absurd hburst hn
  · rw [hburst]
    by_cases hp : p.burst = []
    · have := h.held_eq
      rw [hp] at this
      simpa [emit_empty s p hp] using this
    · simp [emit, hp]

/-- A chunk that was passed on joins the burst as it joins the newest group. -/
theorem tallied_joined {d : DrainSettings} {cs : List Passed} {caught : List Bytes} {c : Passed}
    (hs : starts d cs c.ready = p.burst.isEmpty) (h : Tallied d p cs caught) :
    Tallied d (p.joined c.bytes) (cs ++ [c]) caught := by
  have hheld : (p.joined c.bytes).held = (p.joined c.bytes).burst.flatten.length := by
    simp [joined, h.held_eq, Nat.add_comm]
  have hpacket : (p.joined c.bytes).packet = [p.bytes ++ c.bytes] := by
    rw [packet_held (by simp [joined]), joined_bytes]
  have heq := h.packets_eq
  by_cases hb : p.burst = []
  · rw [hb] at hs
    have hgroups := groups_start d hs
    refine ⟨?_, fun _ => ⟨[c], _, hgroups, by simp [joined, hb]⟩, hheld⟩
    rw [packet_empty hb, List.append_nil] at heq
    rw [hpacket, packets, hgroups, ← heq]
    simp [packets, groupBytes, bytes, hb]
  · have hjoin : starts d cs c.ready = false := by
      rw [hs]
      simpa using hb
    obtain ⟨g, gs, hg, hgroups⟩ := groups_join d hjoin
    obtain ⟨g', gs', hg', hburst⟩ := h.newest hb
    obtain ⟨rfl, rfl⟩ : g = g' ∧ gs = gs' := by simpa [hg] using hg'
    refine ⟨?_, fun _ => ⟨c :: g, gs, hgroups, by simp [joined, hburst]⟩, hheld⟩
    have hbytes : groupBytes g = p.bytes := by
      simp [groupBytes, bytes, hburst, List.flatMap]
    have hcaught : gs.reverse.map groupBytes = caught := by
      rw [packet_held hb, packets, hg, List.reverse_cons, List.map_append] at heq
      exact (List.append_inj' heq rfl).1
    rw [hpacket, packets, hgroups, List.reverse_cons, List.map_append, hcaught, ← hbytes]
    simp [groupBytes]

theorem groups_last {d : DrainSettings} {cs : List Passed} {last : Passed}
    (h : cs.getLast? = some last) : ∃ g gs, groups d cs = (last :: g) :: gs := by
  obtain ⟨front, rfl⟩ := List.getLast?_eq_some_iff.mp h
  exact groups_newest d front last

/-- A chunk that is read within the deadline joins the burst, and without a burst there is
nothing to join. -/
theorem expects_chunk {d : DrainSettings} {cs : List Passed} {caught : List Bytes} {size : Nat}
    {source rest : List Piece} {deadline : Option Nat} {chunk : Bytes}
    (ht : Tallied d p cs caught) (h : Expects d p source cs deadline)
    (hd : draw size now source = some (.chunk chunk, rest))
    (due : deadline.all (now ≤ ·) = true) :
    starts d cs (readyTime source) = p.burst.isEmpty := by
  obtain ⟨hready, hcome⟩ := draw_ready hd
  by_cases hb : p.burst = []
  · rw [hb]
    exact (h.free hb).2 _ hready
  · obtain ⟨hlt, last, hlast, rfl⟩ := h.held hb
    obtain ⟨g, gs, hg⟩ := groups_last (d := d) hlast
    obtain ⟨g', gs', hg', hburst⟩ := ht.newest hb
    obtain ⟨rfl, rfl⟩ : last :: g = g' ∧ gs = gs' := by simpa [hg] using hg'
    have hsize : groupSize (last :: g) = p.held := by
      rw [ht.held_eq, hburst, groupSize_flatten]
    have hsoon : now ≤ last.done + d.quiescence := by simpa using due
    have hjoin : starts d cs (readyTime source) = false := by
      rw [starts, hg]
      simp only [Option.all_some, List.head?_cons, parts, hsize, Bool.or_eq_false_iff,
        decide_eq_false_iff_not]
      omega
    rw [hjoin]
    simpa using hb

/-- A burst whose deadline has passed is not joined by what can be read only later. -/
theorem expects_quiet {d : DrainSettings} {cs : List Passed} {size : Nat} {source : List Piece}
    {deadline : Option Nat} {phase : Phase} (h : Expects d p source cs deadline)
    (hd : draw size now source = none) (past : deadline.any (· ≤ now) = true) :
    Expects d { (p.emit s).1 with phase } source cs none := by
  have hb : p.burst ≠ [] := by
    intro hb
    rw [(h.free hb).1] at past
    cases past
  refine ⟨fun hn => absurd (emit_burst s p) hn, fun _ => ⟨rfl, fun time htime => ?_⟩⟩
  obtain ⟨-, last, hlast, rfl⟩ := h.held hb
  obtain ⟨g, gs, hg⟩ := groups_last (d := d) hlast
  obtain ⟨piece, others, rfl, hwait⟩ := draw_none hd
  have hlate : now < time := hwait time htime
  have hpast : last.done + d.quiescence ≤ now := by simpa using past
  rw [starts, hg]
  simp only [Option.all_some, List.head?_cons, parts, Bool.or_eq_true, decide_eq_true_eq]
  omega

/-- A full burst is joined by nothing. -/
theorem expects_full {d : DrainSettings} {cs : List Passed} {caught : List Bytes}
    {source : List Piece} {phase : Phase} (ht : Tallied d p cs caught) (hb : p.burst ≠ [])
    (hfull : d.maxPacket ≤ p.held) : Expects d { (p.emit s).1 with phase } source cs none := by
  refine ⟨fun hn => absurd (emit_burst s p) hn, fun _ => ⟨rfl, fun time _ => ?_⟩⟩
  obtain ⟨g, gs, hg, hburst⟩ := ht.newest hb
  have hsize : groupSize g = p.held := by
    rw [ht.held_eq, hburst, groupSize_flatten]
  rw [starts, hg]
  simp [parts, hsize, hfull]

theorem grouped_forwarded {source left : List Piece} {caught : List Bytes} {chunk : Bytes}
    {sink : Sink} (hk : s.sink = some sink) (here : p.phase = .flushing chunk)
    (h : Grouped s p source chunks times caught) :
    Grouped s (p.forwarded s now chunk).1 left chunks
      (times ++ List.replicate (flushes (p.forwarded s now chunk).2) now)
      (caught ++ captures (p.forwarded s now chunk).2) := by
  obtain ⟨older, ready, rfl, hlen, hstart⟩ : Carries s.settings p chunks times chunk := by
    simpa only [Awaits, here] using h.awaits
  have htally := h.tally
  rw [passedOn_short hlen] at htally
  have hjoined := tallied_joined (c := ⟨ready, now, chunk⟩) hstart htally
  rw [← passedOn_concat hlen now] at hjoined
  have hcount : (older ++ [(ready, chunk)]).length = (times ++ [now]).length := by simp [hlen]
  rw [forwarded_eq]
  split
  · rename_i hless
    rw [flushed_adds.flushes_eq, flushed_adds.captures_eq, List.append_nil]
    refine ⟨tallied_phase hjoined, h.fit, hcount, ⟨fun _ => ⟨hless, ⟨ready, now, chunk⟩, ?_, rfl⟩,
      fun hn => by simp [joined] at hn⟩⟩
    rw [List.replicate_one, passedOn_concat hlen, List.getLast?_concat]
  · rename_i hfull
    have hm := adds_append flushed_adds (emit_adds s (p.joined chunk) hk)
    rw [← List.singleton_append, hm.flushes_eq, hm.captures_eq]
    exact ⟨tallied_emit hjoined, h.fit, hcount,
      expects_full hjoined (by simp [joined]) (Nat.le_of_not_lt hfull)⟩

/-- A move that passes nothing on and captures nothing keeps the groups. -/
theorem grouped_phase {source left : List Piece} {caught : List Bytes} {phase : Phase}
    {reads : List Bytes} {wrote : Bytes} (hm : Adds more reads wrote 0 [])
    (ha : arrived source e = []) (h : Grouped s p source chunks times caught)
    (hp : Awaits s.settings { p with phase } left chunks times phase) :
    Grouped s { p with phase } left (chunks ++ arrived source e)
      (times ++ List.replicate (flushes more) now) (caught ++ captures more) := by
  rw [ha, hm.flushes_eq, hm.captures_eq]
  simp only [List.replicate_zero, List.append_nil]
  exact ⟨tallied_phase h.tally, h.fit, hp⟩

/-- The chunk that was read is the next one to be passed on. -/
theorem grouped_chunk {source left : List Piece} {caught : List Bytes} {chunk : Bytes}
    {deadline : Option Nat} (here : p.phase = .reading deadline)
    (hd : draw (capacity s) now source = some (.chunk chunk, left))
    (due : deadline.all (now ≤ ·) = true) (fit : fits s chunk = true)
    (h : Grouped s p source chunks times caught) :
    Grouped s { p with phase := .writing chunk chunk } left
      (chunks ++ [(readyTime source, chunk)]) times caught := by
  obtain ⟨hlen, hexp⟩ : chunks.length = times.length ∧
      Expects s.settings p source (passedOn chunks times) deadline := by
    simpa only [Awaits, here] using h.awaits
  have hstart := expects_chunk h.tally hexp hd due
  constructor
  · rw [passedOn_short hlen]
    exact tallied_phase h.tally
  · intro c hc
    rcases List.mem_append.mp hc with hc | hc
    · exact h.fit c hc
    · rw [List.mem_singleton.mp hc]
      exact fits_length fit
  · exact ⟨chunks, readyTime source, rfl, hlen, hstart⟩

theorem grouped_ends {source left : List Piece} {caught : List Bytes} {said : List Action}
    {sink : Sink} (hk : s.sink = some sink) (he : Ends s torn now p.phase e outcome said)
    (h : Grouped s p source chunks times caught) :
    Grouped s (p.finish s now outcome).1 left (chunks ++ arrived source e)
      (times ++ List.replicate (flushes (said ++ (p.finish s now outcome).2)) now)
      (caught ++ captures (said ++ (p.finish s now outcome).2)) := by
  have hm := ends_adds s p now hk he
  rw [arrived, ends_chunk he, hm.flushes_eq, hm.captures_eq]
  simp only [Option.toList_none, List.map_nil, List.replicate_zero, List.append_nil]
  exact ⟨tallied_emit h.tally, h.fit, emit_burst s p⟩

theorem grouped_move {source left : List Piece} {caught : List Bytes} {cue : Cue} {sink : Sink}
    (hk : s.sink = some sink) (hs : served s now source cue = some (e, left))
    (m : Move s torn now p e q more) (h : Grouped s p source chunks times caught) :
    Grouped s q left (chunks ++ arrived source e)
      (times ++ List.replicate (flushes more) now) (caught ++ captures more) := by
  cases m with
  | chunk here calm due fit =>
    rcases served_cases hs with ⟨hd, -, -⟩ | ⟨-, hq, -⟩ | ⟨hof, -⟩
    · rw [(read_adds _).flushes_eq, (read_adds _).captures_eq]
      simpa [arrived, Event.chunk?] using grouped_chunk here hd due fit h
    · cases hq
    · cases hof
  | quiet here calm past =>
    rcases served_cases hs with ⟨-, -, hq⟩ | ⟨hd, -, rfl⟩ | ⟨hof, -⟩
    · exact absurd rfl hq
    · have hm := emit_adds s p hk
      obtain ⟨hlen, hexp⟩ := here ▸ h.awaits
      rw [hm.flushes_eq, hm.captures_eq, arrived]
      simp only [Event.chunk?, Option.toList_none, List.map_nil, List.replicate_zero,
        List.append_nil]
      exact ⟨tallied_emit h.tally, h.fit, hlen, expects_quiet hexp hd past⟩
    · cases hof
  | took here calm taken most =>
    refine grouped_phase (wrote_adds _) rfl h ?_
    have hcarries := here ▸ h.awaits
    unfold afterWrite
    split <;> exact hcarries
  | forwarded here calm =>
    rw [show arrived source .flushed = [] from rfl, List.append_nil]
    exact grouped_forwarded hk here h
  | ends why => exact grouped_ends hk why h
  | closes here how =>
    have hburst := here ▸ h.awaits
    exact grouped_phase (closes_silent s now how) (by cases how <;> rfl) h hburst

end

def Course.Grouped (s : Setup) (c : Course) : Prop :=
  Pump.Grouped s c.pump c.source c.chunks (flushTimes c.trace) (captures c.actions)

theorem begin_grouped (s : Setup) (source : List Piece) :
    (Course.begin s source).Grouped s := by
  refine ⟨⟨rfl, fun hn => absurd rfl hn, rfl⟩, ?_, rfl, ?_⟩
  · exact fun c hc => by cases hc
  · exact ⟨fun hn => absurd rfl hn, fun _ => ⟨rfl, fun _ _ => rfl⟩⟩

theorem step_grouped {s : Setup} {sink : Sink} (hk : s.sink = some sink) (c : Course) (b : Beat)
    (d : Course) (h : c.Grouped s) (hd : c.step s b = some d) : d.Grouped s := by
  obtain ⟨e, acts, hs, m, hchunks, ht⟩ := Course.step_move hd
  unfold Course.Grouped
  rw [Course.actions_step ht, ht, hchunks, flushTimes_append, flushTimes_map, captures_append]
  exact grouped_move hk hs m h

/-- Chunks with no long wait between them are one packet, as long as all but the last stay
below the limit. -/
theorem packets_chain (d : DrainSettings) (before burst after : List Passed) (hn : burst ≠ [])
    (hfirst : ∀ c ∈ burst.head?, starts d before c.ready = true)
    (hnext : ∀ c ∈ after.head?, starts d burst c.ready = true)
    (hchain : burst.IsChain (fun a b => b.ready - a.done ≤ d.quiescence))
    (hsize : groupSize burst.dropLast < d.maxPacket ∨ burst.dropLast = []) :
    packets d (before ++ burst ++ after) =
      packets d before ++ [burst.flatMap (·.bytes)] ++ packets d after := by
  have hone : packets d burst = [burst.flatMap (·.bytes)] := by
    simp [packets, groups_chain d burst hn hchain hsize, groupBytes]
  have hhead : ∀ c ∈ (burst ++ after).head?, starts d before c.ready = true := by
    obtain ⟨c, cs, rfl⟩ := List.exists_cons_of_ne_nil hn
    exact hfirst
  rw [List.append_assoc, packets_append d _ _ hhead, packets_append d _ _ hnext, hone]
  simp

/-- Captured packets are the groups of the chunks that were passed on, as they come from the
waits between them and the size limit, however the pump ends; the burst that a pump still
holds back is the newest of them. Chunks with no long wait between them that stay below the
limit are one packet, and no packet exceeds the limit by more than the last chunk does. -/
theorem course_grouped (s : Setup) (sink : Sink) (hk : s.sink = some sink)
    (source : List Piece) (beats : List Beat) (c : Course)
    (h : Course.run s beats (.begin s source) = some c) :
    packets s.settings c.passed = captures c.actions ++ c.pump.packet ∧
    (∀ packet ∈ captures c.actions,
      packet.length ≤ max s.settings.maxPacket 1 - 1 + max s.settings.bufferSize 1) ∧
    ∀ outcome, c.pump.outcome? = some outcome →
      captures c.actions = packets s.settings c.passed ∧
      ∀ before burst after, c.passed = before ++ burst ++ after → burst ≠ [] →
        (∀ c ∈ burst.head?, starts s.settings before c.ready = true) →
        (∀ c ∈ after.head?, starts s.settings burst c.ready = true) →
        burst.IsChain (fun a b => b.ready - a.done ≤ s.settings.quiescence) →
        groupSize burst.dropLast < s.settings.maxPacket ∨ burst.dropLast = [] →
        captures c.actions =
          packets s.settings before ++ [burst.flatMap (·.bytes)] ++ packets s.settings after := by
  obtain ⟨htally, hfit, hawaits⟩ := Course.run_invariant (step_grouped hk) beats _ c
    (begin_grouped s source) h
  have heq : packets s.settings c.passed = captures c.actions ++ c.pump.packet :=
    htally.packets_eq
  refine ⟨heq, ?_, fun outcome ho => ?_⟩
  · intro packet hpacket
    have hmem : packet ∈ packets s.settings c.passed := by
      rw [heq]
      exact List.mem_append_left _ hpacket
    obtain ⟨g, hg, rfl⟩ := List.mem_map.mp hmem
    rw [groupSize_bytes]
    have hlimit : ∀ a ∈ c.passed, a.bytes.length ≤ capacity s :=
      fun a ha => hfit _ (passedOn_mem ha)
    exact groups_fit s.settings c.passed hlimit g (List.mem_reverse.mp hg)
  · rw [outcome_ended ho] at hawaits
    have hall : captures c.actions = packets s.settings c.passed := by
      rw [heq, packet_empty hawaits, List.append_nil]
    refine ⟨hall, fun before burst after hsplit hn hfirst hnext hchain hsize => ?_⟩
    rw [hall, hsplit]
    exact packets_chain s.settings before burst after hn hfirst hnext hchain hsize

def pausedSetup : Setup := ⟨.ofNat 2, .toClient, ⟨4, 10, 5⟩, some .quiet, false⟩

def pausedSource : List Piece :=
  [⟨some 0, .data [1, 2]⟩, ⟨some 12, .data [3]⟩, ⟨some 30, .data [4, 5, 6, 7, 8, 9]⟩,
    ⟨some 31, .data [10]⟩, ⟨some 32, .ending⟩]

def pausedBeats : List Beat :=
  [⟨0, false, .poll⟩, ⟨1, false, .answer (.took 2)⟩, ⟨2, false, .answer .flushed⟩,
    ⟨12, false, .poll⟩, ⟨12, false, .answer (.took 1)⟩, ⟨13, false, .answer .flushed⟩,
    ⟨23, false, .poll⟩, ⟨30, false, .poll⟩, ⟨30, false, .answer (.took 4)⟩,
    ⟨30, false, .answer .flushed⟩, ⟨30, false, .poll⟩, ⟨30, false, .answer (.took 2)⟩,
    ⟨30, false, .answer .flushed⟩, ⟨31, false, .poll⟩, ⟨31, false, .answer (.took 1)⟩,
    ⟨31, false, .answer .flushed⟩, ⟨32, false, .poll⟩, ⟨32, false, .answer .closed⟩]

/-- A chunk that comes at the deadline itself still joins, a full burst is captured at once,
and the end captures the last one. -/
theorem course_grouped_paused : ∃ c, Course.run pausedSetup pausedBeats
      (.begin pausedSetup pausedSource) = some c ∧
    c.pump.outcome? = some .sourceClosed ∧
    captures c.actions = [[1, 2, 3], [4, 5, 6, 7, 8, 9], [10]] ∧
    packets pausedSetup.settings c.passed = [[1, 2, 3], [4, 5, 6, 7, 8, 9], [10]] := by
  refine ⟨_, rfl, rfl, rfl, ?_⟩
  have h := course_grouped pausedSetup .quiet rfl pausedSource pausedBeats _ rfl
  rw [← (h.2.2 .sourceClosed rfl).1]
  rfl

end Wiretap.Pump
