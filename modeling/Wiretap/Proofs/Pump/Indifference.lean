import Wiretap.Proofs.Pump.Ledger
import Wiretap.Proofs.Pump.Surroundings

/-! A pump relays the same with any sink and with none. Two pumps that differ in
their sinks only make the same moves at the same times: what they do apart from
capturing is the same, and so is what two sinks are given, whatever they make of
it. -/

set_option autoImplicit false

namespace Wiretap.Pump

def Setup.withSink (s : Setup) (k : Option Sink) : Setup := { s with sink := k }

def Course.offers (c : Course) : List (Nat × Bytes) :=
  c.trace.filterMap fun x => x.2.captured?.map (x.1, ·)

structure Alike (s : Setup) (k : Option Sink) (c d : Course) : Prop where
  pump : c.pump = d.pump
  source : c.source = d.source
  chunks : c.chunks = d.chunks
  outer : c.outer = d.outer
  offers : s.sink.isSome = k.isSome → c.offers = d.offers

structure Agrees (s : Setup) (k : Option Sink) (xs ys : List Action) : Prop where
  outer : xs.filter Action.isOuter = ys.filter Action.isOuter
  captures : s.sink.isSome = k.isSome → captures xs = captures ys

structure Same (s : Setup) (k : Option Sink) (x y : Pump × List Action) : Prop where
  pump : x.1 = y.1
  actions : Agrees s k x.2 y.2

section
variable {s : Setup} {k : Option Sink} {xs ys xs' ys' : List Action}

theorem agrees_refl (xs : List Action) : Agrees s k xs xs := ⟨rfl, fun _ => rfl⟩

theorem agrees_append (h : Agrees s k xs ys) (h' : Agrees s k xs' ys') :
    Agrees s k (xs ++ xs') (ys ++ ys') := by
  constructor
  · rw [List.filter_append, List.filter_append, h.outer, h'.outer]
  · intro hk
    rw [captures_append, captures_append, h.captures hk, h'.captures hk]

theorem agrees_cons (a : Action) (h : Agrees s k xs ys) : Agrees s k (a :: xs) (a :: ys) :=
  agrees_append (agrees_refl [a]) h

theorem offer_outer (s : Setup) (turn : Nat) (bytes : Bytes) :
    (offer s turn bytes).filter Action.isOuter = [] := by
  refine List.filter_eq_nil_iff.mpr fun a ha => ?_
  unfold offer at ha
  split at ha
  · cases ha
  · rcases List.mem_cons.mp ha with rfl | ha
    · simp [Action.isOuter]
    · obtain ⟨c, -, rfl⟩ := List.mem_map.mp ha
      simp [Action.isOuter, note]

theorem offer_captures (s : Setup) (turn : Nat) (bytes : Bytes) :
    captures (offer s turn bytes) = if s.sink.isSome then [bytes] else [] := by
  cases hs : s.sink with
  | none => simp [offer, hs, captures]
  | some sink =>
    obtain ⟨rest, hrest, hsilent⟩ := offer_eq s hs turn bytes
    simpa [hrest] using (captured_cons_adds bytes hsilent).captures_eq

theorem offer_agrees (turn : Nat) (bytes : Bytes) :
    Agrees s k (offer s turn bytes) (offer (s.withSink k) turn bytes) := by
  constructor
  · rw [offer_outer, offer_outer]
  · intro hk
    rw [offer_captures, offer_captures, hk, Setup.withSink]

end

theorem same_refl {s : Setup} {k : Option Sink} (x : Pump × List Action) : Same s k x x :=
  ⟨rfl, agrees_refl x.2⟩

theorem same_phase {s : Setup} {k : Option Sink} {x y : Pump × List Action} (phase : Phase)
    (h : Same s k x y) : Same s k ({ x.1 with phase }, x.2) ({ y.1 with phase }, y.2) :=
  ⟨congrArg (fun p : Pump => { p with phase }) h.pump, h.actions⟩

theorem same_after {s : Setup} {k : Option Sink} {x y : Pump × List Action}
    (said : List Action) (h : Same s k x y) : Same s k (x.1, said ++ x.2) (y.1, said ++ y.2) :=
  ⟨h.pump, agrees_append (agrees_refl said) h.actions⟩

section
variable (s : Setup) (k : Option Sink) (torn : Bool) (now : Nat) (p : Pump)

theorem emit_same : Same s k (p.emit s) (p.emit (s.withSink k)) := by
  unfold emit
  split
  · exact ⟨rfl, agrees_refl []⟩
  · exact ⟨rfl, agrees_cons _ (offer_agrees _ _)⟩

theorem finish_same (outcome : Outcome) :
    Same s k (p.finish s now outcome) (p.finish (s.withSink k) now outcome) := by
  have h := same_phase (.closing outcome (now + closeMillis)) (emit_same s k p)
  exact ⟨h.pump, agrees_append h.actions (agrees_refl _)⟩

theorem readFailed_same (error : IoFailure) :
    Same s k (p.readFailed s now error) (p.readFailed (s.withSink k) now error) :=
  same_after (failure s "read" error) (finish_same s k now p .readFailed)

theorem writeFailed_same (error : IoFailure) :
    Same s k (p.writeFailed s torn now error) (p.writeFailed (s.withSink k) torn now error) := by
  cases torn with
  | true => exact finish_same s k now p .tornDown
  | false => exact same_after (failure s "write" error) (finish_same s k now p .writeFailed)

theorem forwarded_same (chunk : Bytes) :
    Same s k (p.forwarded s now chunk) (p.forwarded (s.withSink k) now chunk) := by
  have h := emit_same s k (p.joined chunk)
  rw [forwarded_eq, forwarded_eq]
  by_cases hroom : p.held + chunk.length < s.settings.maxPacket
  · rw [if_pos hroom, if_pos (by exact hroom)]
    exact ⟨rfl, agrees_refl _⟩
  · rw [if_neg hroom, if_neg (by exact hroom)]
    exact same_after [.flushed] (same_phase (.reading none) h)

end

section
variable {s : Setup} {k : Option Sink} {torn : Bool} {now : Nat}

theorem rel_guard {c : Prop} [Decidable c] {x y : Pump × List Action} (h : Same s k x y) :
    Option.Rel (Same s k) (if c then some x else none) (if c then some y else none) := by
  split
  · exact .some h
  · exact .none

variable (s k torn now)

theorem readStep_same (deadline : Option Nat) (p : Pump) (e : Event) :
    Option.Rel (Same s k) (p.readStep s torn now deadline e)
      (p.readStep (s.withSink k) torn now deadline e) := by
  cases e with
  | chunk bytes => exact rel_guard (same_refl _)
  | sourceEnd => exact rel_guard (finish_same s k now p .sourceClosed)
  | readError error => exact rel_guard (readFailed_same s k now p error)
  | quiet => exact rel_guard (same_phase (.reading none) (emit_same s k p))
  | tornDown => exact rel_guard (finish_same s k now p .tornDown)
  | _ => exact .none

theorem writeStep_same (chunk rest : Bytes) (p : Pump) (e : Event) :
    Option.Rel (Same s k) (p.writeStep s torn now chunk rest e)
      (p.writeStep (s.withSink k) torn now chunk rest e) := by
  cases e with
  | tornDown => exact rel_guard (finish_same s k now p .tornDown)
  | took count =>
    cases count with
    | zero => exact .some (writeFailed_same s k torn now p _)
    | succ count =>
      simp only [writeStep]
      split
      · exact .none
      · exact .some (same_refl _)
  | writeError error => exact .some (writeFailed_same s k torn now p error)
  | _ => exact .none

theorem flushStep_same (chunk : Bytes) (p : Pump) (e : Event) :
    Option.Rel (Same s k) (p.flushStep s torn now chunk e)
      (p.flushStep (s.withSink k) torn now chunk e) := by
  cases e with
  | tornDown => exact rel_guard (finish_same s k now p .tornDown)
  | flushed =>
    simp only [flushStep]
    split
    · exact .none
    · exact .some (forwarded_same s k now p chunk)
  | flushError error => exact .some (writeFailed_same s k torn now p error)
  | _ => exact .none

theorem closeStep_same (outcome : Outcome) (deadline : Nat) (p : Pump) (e : Event) :
    Option.Rel (Same s k) (p.closeStep s now outcome deadline e)
      (p.closeStep (s.withSink k) now outcome deadline e) := by
  cases e with
  | closed => exact .some (same_refl _)
  | closeError error => exact .some (same_refl _)
  | closeTimeout => exact rel_guard (same_refl _)
  | _ => exact .none

/-- One step, with one case for each phase. -/
theorem step_same (p : Pump) (e : Event) :
    Option.Rel (Same s k) (p.step s torn now e) (p.step (s.withSink k) torn now e) := by
  unfold step
  cases p.phase with
  | reading deadline => exact readStep_same s k torn now deadline p e
  | writing chunk rest => exact writeStep_same s k torn now chunk rest p e
  | flushing chunk => exact flushStep_same s k torn now chunk p e
  | closing outcome deadline => exact closeStep_same s k now outcome deadline p e
  | ended outcome => exact .none

end

section
variable {s : Setup} {k : Option Sink} {c d : Course}

theorem rel_bind {α β : Type} {R : α → α → Prop} {T : β → β → Prop} {x y : Option α}
    {f g : α → Option β} (h : Option.Rel R x y)
    (hfg : ∀ a b, R a b → Option.Rel T (f a) (g b)) : Option.Rel T (x.bind f) (y.bind g) := by
  cases h with
  | some h => exact hfg _ _ h
  | none => exact .none

theorem outer_concat (trace : List (Nat × Action)) (acts : List Action) (now : Nat) :
    (trace ++ acts.map (now, ·)).filter (·.2.isOuter) =
      trace.filter (·.2.isOuter) ++ (acts.filter Action.isOuter).map (now, ·) := by
  rw [List.filter_append, List.filter_map]
  rfl

theorem offers_concat (trace : List (Nat × Action)) (acts : List Action) (now : Nat) :
    (trace ++ acts.map (now, ·)).filterMap (fun x => x.2.captured?.map (x.1, ·)) =
      trace.filterMap (fun x => x.2.captured?.map (x.1, ·)) ++
        (captures acts).map (now, ·) := by
  rw [List.filterMap_append, List.filterMap_map, captures, List.map_filterMap]
  rfl

/-- Alike courses take the same beats, and stay alike. -/
theorem step_alike (h : Alike s k c d) (b : Beat) :
    Option.Rel (Alike s k) (c.step s b) (d.step (s.withSink k) b) := by
  have hserved : served (s.withSink k) b.time d.source b.cue = served s b.time c.source b.cue := by
    rw [← h.source]
    rfl
  unfold Course.step
  rw [hserved, ← h.pump]
  cases hs : served s b.time c.source b.cue with
  | none => exact .none
  | some given =>
    obtain ⟨e, rest⟩ := given
    simp only [Option.bind_eq_bind, Option.bind_some]
    refine rel_bind (step_same s k b.torn b.time c.pump e) fun x y hxy => .some ?_
    constructor
    · exact hxy.pump
    · rfl
    · rw [h.chunks, h.source]
    · rw [Course.outer, Course.outer, outer_concat, outer_concat, hxy.actions.outer]
      exact congrArg (· ++ _) h.outer
    · intro hk
      rw [Course.offers, Course.offers, offers_concat, offers_concat, hxy.actions.captures hk]
      exact congrArg (· ++ _) (h.offers hk)

theorem begin_alike (s : Setup) (k : Option Sink) (source : List Piece) :
    Alike s k (.begin s source) (.begin (s.withSink k) source) :=
  ⟨rfl, rfl, rfl, rfl, fun _ => rfl⟩

theorem run_alike (h : Alike s k c d) (beats : List Beat) :
    Option.Rel (Alike s k) (Course.run s beats c) (Course.run (s.withSink k) beats d) := by
  induction beats generalizing c d with
  | nil => exact .some h
  | cons b bs ih => exact rel_bind (step_alike h b) fun _ _ hm => ih hm

/-- Surroundings see the same of both, and so they do the same to both. -/
theorem conduct_alike (w : Surroundings) (h : Alike s k c d) (n : Nat) :
    Alike s k (c.conduct s w n) (d.conduct (s.withSink k) w n) := by
  induction n with
  | zero => exact h
  | succ n ih =>
    have hbeat : d.beat (s.withSink k) w n = c.beat s w n := by
      rw [Course.beat, Course.beat, Course.outlook, Course.outlook, ih.pump, ih.source, ih.outer]
    have hstep := step_alike ih (c.beat s w n)
    cases hc : (c.conduct s w n).step s (c.beat s w n) with
    | none =>
      cases hd : (d.conduct (s.withSink k) w n).step (s.withSink k) (c.beat s w n) with
      | none => rwa [Course.conduct_of_none hc, Course.conduct_of_none (hbeat ▸ hd)]
      | some d' =>
        rw [hc, hd] at hstep
        cases hstep
    | some c' =>
      cases hd : (d.conduct (s.withSink k) w n).step (s.withSink k) (c.beat s w n) with
      | none =>
        rw [hc, hd] at hstep
        cases hstep
      | some d' =>
        rw [hc, hd] at hstep
        cases hstep with
        | some halike => rwa [Course.conduct_of_step hc, Course.conduct_of_step (hbeat ▸ hd)]

end

/-- A pump and the same pump with any other sink, or none, can be dealt with in the same ways,
and surroundings that know nothing of sinks deal with both in the same way. Up to their
captures they do the same at the same times, and two sinks are given the same. -/
theorem capturing_indifferent (s : Setup) (k : Option Sink) (source : List Piece) :
    (∀ beats, Option.Rel (Alike s k) (Course.run s beats (.begin s source))
      (Course.run (s.withSink k) beats (.begin (s.withSink k) source))) ∧
    ∀ w n, Alike s k ((Course.begin s source).conduct s w n)
      ((Course.begin (s.withSink k) source).conduct (s.withSink k) w n) :=
  ⟨fun beats => run_alike (begin_alike s k source) beats,
    fun w n => conduct_alike w (begin_alike s k source) n⟩

end Wiretap.Pump
