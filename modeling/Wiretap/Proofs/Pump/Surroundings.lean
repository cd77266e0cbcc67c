import Wiretap.Proofs.Pump.Course

/-! The surroundings of a pump are its source, its destination, the teardown flag
and the clock. They know all that the pump has done, except what it gave to its
sink, and they decide which of its calls returns what and when. -/

set_option autoImplicit false

namespace Wiretap.Pump

def Action.isOuter : Action → Bool
  | .captured _ => false
  | .logged line => line.level != .error
  | _ => true

structure Outlook where
  phase : Phase
  source : List Piece
  trace : List (Nat × Action)

abbrev Surroundings := Nat → Outlook → Beat

namespace Course

def outer (c : Course) : List (Nat × Action) := c.trace.filter (·.2.isOuter)

def outlook (c : Course) : Outlook := ⟨c.pump.phase, c.source, c.outer⟩

def conduct (s : Setup) (w : Surroundings) (c : Course) : Nat → Course
  | 0 => c
  | n + 1 =>
    let now := c.conduct s w n
    (now.step s (w n now.outlook)).getD now

def beat (s : Setup) (w : Surroundings) (c : Course) (n : Nat) : Beat :=
  w n (c.conduct s w n).outlook

section
variable {s : Setup} {w : Surroundings} {c : Course}

theorem conduct_of_step {n : Nat} {d : Course}
    (h : (c.conduct s w n).step s (c.beat s w n) = some d) : c.conduct s w (n + 1) = d := by
  rw [beat] at h
  rw [conduct, h, Option.getD_some]

theorem conduct_of_none {n : Nat} (h : (c.conduct s w n).step s (c.beat s w n) = none) :
    c.conduct s w (n + 1) = c.conduct s w n := by
  rw [beat] at h
  rw [conduct, h, Option.getD_none]

/-- Surroundings lead a course along beats. -/
theorem conduct_run (n : Nat) : ∃ beats, run s beats c = some (c.conduct s w n) := by
  induction n with
  | zero => exact ⟨[], rfl⟩
  | succ n ih =>
    obtain ⟨beats, hrun⟩ := ih
    cases hs : (c.conduct s w n).step s (c.beat s w n) with
    | none => exact ⟨beats, by rw [conduct_of_none hs, hrun]⟩
    | some d => exact ⟨_, conduct_of_step hs ▸ run_concat hrun hs⟩

end
end Course

/-- What surroundings can answer to a pump that waits for a call. A source that is polled has
something to give in time, or nothing until the deadline is over; a destination may answer
what it wants; and a flag that is raised is found by a pump that relays. -/
inductive Answers (s : Setup) (source : List Piece) : Phase → Beat → Prop where
  | raised {phase : Phase} {time : Nat} (busy : Relaying phase) :
    Answers s source phase ⟨time, true, .answer .tornDown⟩
  | ready {deadline : Option Nat} {time : Nat}
    (given : (draw (capacity s) time source).isSome = true) (due : deadline.all (time ≤ ·)) :
    Answers s source (.reading deadline) ⟨time, false, .poll⟩
  | quiet {deadline time : Nat} (nothing : draw (capacity s) time source = none)
    (past : deadline ≤ time) : Answers s source (.reading (some deadline)) ⟨time, false, .poll⟩
  | took {chunk rest : Bytes} {time count : Nat} (most : count ≤ rest.length) :
    Answers s source (.writing chunk rest) ⟨time, false, .answer (.took count)⟩
  | writeError {chunk rest : Bytes} {time : Nat} {torn : Bool} {error : IoFailure} :
    Answers s source (.writing chunk rest) ⟨time, torn, .answer (.writeError error)⟩
  | flushed {chunk : Bytes} {time : Nat} :
    Answers s source (.flushing chunk) ⟨time, false, .answer .flushed⟩
  | flushError {chunk : Bytes} {time : Nat} {torn : Bool} {error : IoFailure} :
    Answers s source (.flushing chunk) ⟨time, torn, .answer (.flushError error)⟩
  | closed {outcome : Outcome} {deadline time : Nat} {torn : Bool} :
    Answers s source (.closing outcome deadline) ⟨time, torn, .answer .closed⟩
  | closeError {outcome : Outcome} {deadline time : Nat} {torn : Bool} {error : IoFailure} :
    Answers s source (.closing outcome deadline) ⟨time, torn, .answer (.closeError error)⟩
  | closeTimeout {outcome : Outcome} {deadline time : Nat} {torn : Bool} (late : deadline ≤ time) :
    Answers s source (.closing outcome deadline) ⟨time, torn, .answer .closeTimeout⟩

def Timed (source : List Piece) : Prop := ∀ piece ∈ source, piece.time.isSome = true

section
variable {s : Setup} {source rest : List Piece} {size now : Nat} {e : Event} {c d : Course}
  {b : Beat}

/-- A chunk is not empty and fits into the buffer that was read into. -/
theorem draw_fits {bytes : Bytes} (hs : 0 < size)
    (h : draw size now source = some (.chunk bytes, rest)) :
    bytes ≠ [] ∧ bytes.length ≤ size := by
  cases source with
  | nil => cases h
  | cons piece others =>
    obtain ⟨time, arrival⟩ := piece
    simp only [draw, Option.ite_none_right_eq_some] at h
    obtain ⟨-, h⟩ := h
    cases arrival with
    | failure error => cases h
    | ending => cases h
    | data bs =>
      cases bs with
      | nil => cases h
      | cons b bs =>
        cases h
        exact ⟨by simp [Nat.pos_iff_ne_zero.mp hs], List.length_take_le _ _⟩

theorem draw_timed (ht : Timed source) (h : draw size now source = some (e, rest)) :
    Timed rest := by
  cases source with
  | nil =>
    cases h
    exact ht
  | cons piece others =>
    have hothers : Timed others := fun p hp => ht p (List.mem_cons_of_mem _ hp)
    simp only [draw, Option.ite_none_right_eq_some] at h
    obtain ⟨-, h⟩ := h
    split at h
    case h_2 =>
      cases h
      intro p hp
      split at hp
      · exact hothers p hp
      · rcases List.mem_cons.mp hp with rfl | hp
        · exact ht piece List.mem_cons_self
        · exact hothers p hp
    all_goals
      cases h
      exact hothers

theorem draw_later (ht : Timed source) (hn : readyTime source ≤ now) :
    (draw size now source).isSome = true := by
  cases source with
  | nil => rfl
  | cons piece others =>
    obtain ⟨t, hp⟩ := Option.isSome_iff_exists.mp (ht piece List.mem_cons_self)
    have hdue : t ≤ now := by simpa [readyTime, hp] using hn
    simp only [draw, hp, Option.any_some, decide_eq_true hdue, if_true]
    split <;> rfl

theorem draw_earlier (ht : Timed source) (hn : now < readyTime source) :
    draw size now source = none := by
  cases source with
  | nil => cases hn
  | cons piece others =>
    obtain ⟨t, hp⟩ := Option.isSome_iff_exists.mp (ht piece List.mem_cons_self)
    have hwait : ¬t ≤ now := by simpa [readyTime, hp] using hn
    simp [draw, hp, hwait]

/-- What a source gives to a poll in time, a pump takes. -/
theorem ready_step {deadline : Option Nat} (here : c.pump.phase = .reading deadline)
    (given : (draw (capacity s) now c.source).isSome = true) (due : deadline.all (now ≤ ·)) :
    ∃ d, c.step s ⟨now, false, .poll⟩ = some d := by
  obtain ⟨⟨e, rest⟩, hd⟩ := Option.isSome_iff_exists.mp given
  have hserved : served s now c.source .poll = some (e, rest) := by simp [served, hd]
  have hfits : ∀ bytes, e = .chunk bytes → fits s bytes = true := by
    rintro bytes rfl
    have hsize : 0 < capacity s := Nat.le_max_right _ _
    obtain ⟨hne, hle⟩ := draw_fits hsize hd
    simp [fits, hne, hle]
  obtain ⟨hsource, hquiet⟩ := draw_ofSource hd
  cases e with
  | chunk bytes => simp [Course.step, hserved, Pump.step, here, readStep, due, hfits bytes rfl]
  | sourceEnd => simp [Course.step, hserved, Pump.step, here, readStep, due]
  | readError error => simp [Course.step, hserved, Pump.step, here, readStep, due]
  | quiet => exact absurd rfl hquiet
  | _ => cases hsource

/-- Whatever a call that a pump waits for is answered, the pump goes on. -/
theorem answers_step (h : Answers s c.source c.pump.phase b) : ∃ d, c.step s b = some d := by
  generalize hp : c.pump.phase = phase at h
  cases h with
  | raised busy =>
    cases busy <;>
      simp [Course.step, served, Event.ofSource, Pump.step, hp, readStep, writeStep, flushStep]
  | ready given due => exact ready_step hp given due
  | quiet nothing past =>
    simp [Course.step, served, nothing, Pump.step, hp, readStep, past]
  | @took chunk rest time count most =>
    cases count with
    | zero => simp [Course.step, served, Event.ofSource, Pump.step, hp, writeStep]
    | succ count =>
      have hnot : ¬rest.length < count + 1 := by omega
      simp [Course.step, served, Event.ofSource, Pump.step, hp, writeStep, hnot]
  | closeTimeout late =>
    simp [Course.step, served, Event.ofSource, Pump.step, hp, closeStep, late]
  | _ => simp [Course.step, served, Event.ofSource, Pump.step, hp, writeStep, flushStep, closeStep]

end

end Wiretap.Pump
