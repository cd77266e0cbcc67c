import Wiretap.Proofs.Pump.Moves

/-! What a list of actions read, wrote, flushed and captured, and what each part
of a move adds to that. A burst is held back until it is captured as a whole, so
capturing moves its bytes from the pump to the ledger and loses none. -/

set_option autoImplicit false

namespace Wiretap.Pump

@[simp] def Action.read? : Action → Option Bytes
  | .read bytes => some bytes
  | _ => none

@[simp] def Action.wrote? : Action → Option Bytes
  | .wrote bytes => some bytes
  | _ => none

@[simp] def Action.captured? : Action → Option Bytes
  | .captured bytes => some bytes
  | _ => none

def Action.isFlush : Action → Bool
  | .flushed => true
  | _ => false

def Action.isPlain : Action → Bool
  | .reported _ => true
  | .raised => true
  | .shutdown => true
  | .logged _ => true
  | _ => false

def reads (acts : List Action) : List Bytes := acts.filterMap Action.read?

def captures (acts : List Action) : List Bytes := acts.filterMap Action.captured?

def flushes (acts : List Action) : Nat := acts.countP Action.isFlush

def received (acts : List Action) : Bytes := (reads acts).flatten

def written (acts : List Action) : Bytes := (acts.filterMap Action.wrote?).flatten

def captured (acts : List Action) : Bytes := (captures acts).flatten

def bytes (p : Pump) : Bytes := p.burst.reverse.flatten

def packet (p : Pump) : List Bytes := if p.burst = [] then [] else [p.bytes]

theorem packet_empty {p : Pump} (h : p.burst = []) : p.packet = [] := if_pos h

theorem packet_held {p : Pump} (h : p.burst ≠ []) : p.packet = [p.bytes] := if_neg h

structure Adds (acts : List Action) (chunks : List Bytes) (wrote : Bytes) (flushed : Nat)
    (packets : List Bytes) : Prop where
  reads_eq : reads acts = chunks
  written_eq : written acts = wrote
  flushes_eq : flushes acts = flushed
  captures_eq : captures acts = packets

abbrev Silent (acts : List Action) : Prop := Adds acts [] [] 0 []

section
variable (xs ys : List Action)

@[simp] theorem reads_append : reads (xs ++ ys) = reads xs ++ reads ys := List.filterMap_append

@[simp] theorem captures_append : captures (xs ++ ys) = captures xs ++ captures ys :=
  List.filterMap_append

@[simp] theorem received_append : received (xs ++ ys) = received xs ++ received ys := by
  simp [received]

@[simp] theorem written_append : written (xs ++ ys) = written xs ++ written ys := by
  simp [written]

@[simp] theorem captured_append : captured (xs ++ ys) = captured xs ++ captured ys := by
  simp [captured]

@[simp] theorem flushes_append : flushes (xs ++ ys) = flushes xs + flushes ys :=
  List.countP_append

@[simp] theorem packet_flatten (p : Pump) : p.packet.flatten = p.bytes := by
  unfold packet
  split
  · rename_i h
    simp [bytes, h]
  · simp

end

section
variable {xs ys : List Action} {r r' c c' : List Bytes} {w w' : Bytes} {n n' : Nat}

theorem adds_append (hx : Adds xs r w n c) (hy : Adds ys r' w' n' c') :
    Adds (xs ++ ys) (r ++ r') (w ++ w') (n + n') (c ++ c') := by
  constructor
  · rw [reads_append, hx.reads_eq, hy.reads_eq]
  · rw [written_append, hx.written_eq, hy.written_eq]
  · rw [flushes_append, hx.flushes_eq, hy.flushes_eq]
  · rw [captures_append, hx.captures_eq, hy.captures_eq]

theorem Adds.received_eq (h : Adds xs r w n c) : received xs = r.flatten := by
  rw [received, h.reads_eq]

theorem Adds.captured_eq (h : Adds xs r w n c) : captured xs = c.flatten := by
  rw [captured, h.captures_eq]

theorem adds_cons {a : Action} (ha : a.isPlain = true) (hx : Adds xs r w n c) :
    Adds (a :: xs) r w n c := by
  obtain ⟨rfl, rfl, rfl, rfl⟩ := hx
  cases a with
  | read => cases ha
  | wrote => cases ha
  | flushed => cases ha
  | captured => cases ha
  | _ => exact ⟨rfl, rfl, rfl, rfl⟩

theorem silent_of_plain (h : ∀ a ∈ xs, a.isPlain = true) : Silent xs := by
  induction xs with
  | nil => exact ⟨rfl, rfl, rfl, rfl⟩
  | cons a xs ih => exact adds_cons (h a (by simp)) (ih fun b hb => h b (by simp [hb]))

theorem read_adds (chunk : Bytes) : Adds [.read chunk] [chunk] [] 0 [] := ⟨rfl, rfl, rfl, rfl⟩

theorem wrote_adds (bytes : Bytes) : Adds [.wrote bytes] [] bytes 0 [] := by
  refine ⟨rfl, ?_, rfl, rfl⟩
  simp [written]

theorem flushed_adds : Adds [.flushed] [] [] 1 [] := ⟨rfl, rfl, rfl, rfl⟩

theorem captured_cons_adds (bytes : Bytes) (hx : Silent xs) :
    Adds (.captured bytes :: xs) [] [] 0 [bytes] := by
  constructor
  · exact hx.reads_eq
  · exact hx.written_eq
  · exact hx.flushes_eq
  · show bytes :: captures xs = [bytes]
    rw [hx.captures_eq]

end

section
variable (s : Setup) (p : Pump) (now : Nat) {outcome : Outcome}

theorem mem_failure {operation : String} {error : IoFailure} {a : Action}
    (ha : a ∈ failure s operation error) : (∃ line, a = .logged line) ∨ a = .reported error := by
  rcases List.mem_cons.mp ha with rfl | ha
  · exact .inl ⟨_, rfl⟩
  · split at ha
    · exact .inr (List.mem_singleton.mp ha)
    · cases ha

theorem failure_silent (operation : String) (error : IoFailure) :
    Silent (failure s operation error) := by
  refine silent_of_plain fun a ha => ?_
  rcases mem_failure s ha with ⟨line, rfl⟩ | rfl <;> rfl

theorem ends_silent {torn : Bool} {phase : Phase} {e : Event} {said : List Action}
    (h : Ends s torn now phase e outcome said) : Silent said := by
  cases h with
  | readError => exact failure_silent s _ _
  | writeError => exact failure_silent s _ _
  | sourceEnd => exact ⟨rfl, rfl, rfl, rfl⟩
  | tornDown => exact ⟨rfl, rfl, rfl, rfl⟩
  | lateError => exact ⟨rfl, rfl, rfl, rfl⟩

theorem closes_silent {deadline : Nat} {e : Event} {said : List Action}
    (h : Closes s now deadline e said) : Silent said := by
  cases h <;> exact ⟨rfl, rfl, rfl, rfl⟩

theorem offer_eq {sink : Sink} (hk : s.sink = some sink) (turn : Nat) (bytes : Bytes) :
    ∃ rest, offer s turn bytes = .captured bytes :: rest ∧ Silent rest := by
  refine ⟨_, by rw [offer, hk], silent_of_plain fun a ha => ?_⟩
  obtain ⟨c, -, rfl⟩ := List.mem_map.mp ha
  rfl

theorem emit_empty (h : p.burst = []) : p.emit s = (p, []) := by simp [emit, h]

theorem emit_held {sink : Sink} (hk : s.sink = some sink) (h : p.burst ≠ []) :
    ∃ rest, (p.emit s).2 = capturedLine s p.bytes :: .captured p.bytes :: rest ∧ Silent rest := by
  obtain ⟨rest, hrest, hsilent⟩ := offer_eq s hk p.offered p.bytes
  refine ⟨rest, ?_, hsilent⟩
  rw [← hrest]
  simp [emit, h, bytes]

theorem emit_adds {sink : Sink} (hk : s.sink = some sink) : Adds (p.emit s).2 [] [] 0 p.packet := by
  by_cases h : p.burst = []
  · rw [emit_empty s p h, packet_empty h]
    exact ⟨rfl, rfl, rfl, rfl⟩
  · obtain ⟨rest, hrest, hsilent⟩ := emit_held s p hk h
    rw [hrest, packet_held h]
    exact adds_cons rfl (captured_cons_adds p.bytes hsilent)

@[simp] theorem emit_burst : (p.emit s).1.burst = [] := by
  by_cases h : p.burst = []
  · rw [emit_empty s p h, h]
  · simp [emit, h]

theorem finish_eq (outcome : Outcome) :
    ∃ last, (p.finish s now outcome).2 = (p.emit s).2 ++ last ∧ Silent last := by
  refine ⟨_, rfl, silent_of_plain fun a ha => ?_⟩
  simp only [List.mem_cons, List.not_mem_nil, or_false] at ha
  rcases ha with rfl | rfl | rfl <;> rfl

theorem ends_adds {torn : Bool} {e : Event} {said : List Action} {sink : Sink}
    (hk : s.sink = some sink) (h : Ends s torn now p.phase e outcome said) :
    Adds (said ++ (p.finish s now outcome).2) [] [] 0 p.packet := by
  obtain ⟨last, hlast, hsilent⟩ := finish_eq s p now outcome
  rw [hlast]
  have he := adds_append (emit_adds s p hk) hsilent
  simpa using adds_append (ends_silent s now h) he

def joined (p : Pump) (chunk : Bytes) : Pump :=
  { p with burst := chunk :: p.burst, held := p.held + chunk.length }

theorem joined_bytes (chunk : Bytes) : (p.joined chunk).bytes = p.bytes ++ chunk := by
  simp [joined, bytes]

theorem forwarded_eq (chunk : Bytes) : p.forwarded s now chunk =
    if p.held + chunk.length < s.settings.maxPacket then
      ({ p.joined chunk with phase := .reading (some (now + s.settings.quiescence)) }, [.flushed])
    else
      ({ ((p.joined chunk).emit s).1 with phase := .reading none },
        .flushed :: ((p.joined chunk).emit s).2) := rfl

theorem forwarded_phase (chunk : Bytes) :
    ∃ deadline, (p.forwarded s now chunk).1.phase = .reading deadline := by
  rw [forwarded_eq]
  split <;> exact ⟨_, rfl⟩

end

end Wiretap.Pump
