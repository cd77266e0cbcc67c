import Wiretap.Proofs.Pump.Moves
import Wiretap.Pump.Script

/-! A course is a pump on a source whose pieces can be read from given times
on. Everything else that happens to it is free: how much each write takes,
whether and when a call on the destination fails, when the teardown flag is
found raised, and the time of each beat. -/

set_option autoImplicit false

namespace Wiretap.Pump

inductive Cue where
  | poll
  | answer (event : Event)

structure Beat where
  time : Nat
  torn : Bool
  cue : Cue

def Event.ofSource : Event → Bool
  | .chunk _ => true
  | .sourceEnd => true
  | .readError _ => true
  | .quiet => true
  | _ => false

def Event.chunk? : Event → Option Bytes
  | .chunk bytes => some bytes
  | _ => none

def stream : List Piece → Bytes
  | ⟨_, .data (b :: bs)⟩ :: rest => (b :: bs) ++ stream rest
  | _ => []

def readyTime (source : List Piece) : Nat := (source.head?.bind (·.time)).getD 0

/-- What a cue gives, and the source after it. A read that finds nothing is left to its
deadline. -/
def served (s : Setup) (time : Nat) (source : List Piece) : Cue → Option (Event × List Piece)
  | .poll => some ((draw (capacity s) time source).getD (.quiet, source))
  | .answer e => if e.ofSource then none else some (e, source)

/-- A pump on its source and what it did, with the times. Each chunk that was read stands
with the time from which it could be read. -/
structure Course where
  pump : Pump
  source : List Piece
  chunks : List (Nat × Bytes)
  trace : List (Nat × Action)

def arrived (source : List Piece) (e : Event) : List (Nat × Bytes) :=
  e.chunk?.toList.map (readyTime source, ·)

namespace Course

def begin (s : Setup) (source : List Piece) : Course :=
  ⟨(start s).1, source, [], (start s).2.map (0, ·)⟩

def step (s : Setup) (c : Course) (b : Beat) : Option Course := do
  let (e, source) ← served s b.time c.source b.cue
  let (pump, actions) ← c.pump.step s b.torn b.time e
  some ⟨pump, source, c.chunks ++ arrived c.source e, c.trace ++ actions.map (b.time, ·)⟩

def run (s : Setup) : List Beat → Course → Option Course
  | [], c => some c
  | b :: bs, c => (c.step s b).bind (run s bs)

def actions (c : Course) : List Action := c.trace.map (·.2)

/-- What is known about the ends of a step: the event, where it came from, and the move. -/
theorem step_move {s : Setup} {c d : Course} {b : Beat} (h : c.step s b = some d) :
    ∃ e acts, served s b.time c.source b.cue = some (e, d.source) ∧
      Move s b.torn b.time c.pump e d.pump acts ∧
      d.chunks = c.chunks ++ arrived c.source e ∧
      d.trace = c.trace ++ acts.map (b.time, ·) := by
  unfold step at h
  obtain ⟨⟨e, source⟩, he, h⟩ := Option.bind_eq_some_iff.mp h
  obtain ⟨⟨q, acts⟩, hq, h⟩ := Option.bind_eq_some_iff.mp h
  cases h
  exact ⟨e, acts, he, move_of_step hq, rfl, rfl⟩

theorem actions_step {c d : Course} {time : Nat} {acts : List Action}
    (h : d.trace = c.trace ++ acts.map (time, ·)) : d.actions = c.actions ++ acts := by
  simp [actions, h, Function.comp_def]

theorem run_concat {s : Setup} {bs : List Beat} {b : Beat} {c d m : Course}
    (h : run s bs c = some m) (hb : m.step s b = some d) : run s (bs ++ [b]) c = some d := by
  induction bs generalizing c with
  | nil =>
    cases h
    simp [run, hb]
  | cons b' bs ih =>
    obtain ⟨n, hn, h⟩ := Option.bind_eq_some_iff.mp h
    rw [List.cons_append, run, hn]
    exact ih h

/-- What holds at the beginning and is kept by each step holds along every course. -/
theorem run_invariant {s : Setup} {P : Course → Prop}
    (hstep : ∀ c b d, P c → c.step s b = some d → P d) (bs : List Beat) (c d : Course)
    (hc : P c) (h : run s bs c = some d) : P d := by
  induction bs generalizing c with
  | nil =>
    cases h
    exact hc
  | cons b bs ih =>
    obtain ⟨m, hm, h⟩ := Option.bind_eq_some_iff.mp h
    exact ih m (hstep c b m hc hm) h

end Course

section
variable {size now : Nat} {source rest : List Piece} {e : Event}

theorem draw_ready {bytes : Bytes} (h : draw size now source = some (.chunk bytes, rest)) :
    source.head?.bind (·.time) = some (readyTime source) ∧ readyTime source ≤ now := by
  cases source with
  | nil => cases h
  | cons piece others =>
    simp only [draw, Option.ite_none_right_eq_some] at h
    obtain ⟨t, ht, hle⟩ := Option.any_eq_true _ _ |>.mp h.1
    simpa [readyTime, ht] using hle

theorem draw_chunk {bytes : Bytes} (h : draw size now source = some (.chunk bytes, rest)) :
    stream source = bytes ++ stream rest := by
  cases source with
  | nil => cases h
  | cons piece others =>
    obtain ⟨time, arrival⟩ := piece
    simp only [draw, Option.ite_none_right_eq_some] at h
    obtain ⟨-, h⟩ := h
    cases arrival with
    | failure error => cases h
    | ending => cases h
    | data bs =>
      cases bs with
      | nil => cases h
      | cons b bs =>
        cases h
        have hsplit : (b :: bs).take size ++ (b :: bs).drop size = b :: bs :=
          List.take_append_drop size (b :: bs)
        by_cases hleft : (b :: bs).drop size = []
        · rw [hleft, List.append_nil] at hsplit
          simp [hleft, stream, hsplit]
        · obtain ⟨x, xs, hx⟩ := List.exists_cons_of_ne_nil hleft
          rw [hx] at hsplit
          rw [hx]
          simp only [List.isEmpty_cons, Bool.false_eq_true, if_false, stream]
          rw [← List.append_assoc, hsplit]

/-- A source that gives its end or an error has nothing more to be read before it. -/
theorem draw_last (he : e = .sourceEnd ∨ ∃ error, e = .readError error)
    (h : draw size now source = some (e, rest)) : stream source = [] := by
  cases source with
  | nil => rfl
  | cons piece others =>
    obtain ⟨time, arrival⟩ := piece
    simp only [draw, Option.ite_none_right_eq_some] at h
    cases arrival with
    | failure error => rfl
    | ending => rfl
    | data bs =>
      cases bs with
      | nil => rfl
      | cons b bs =>
        obtain ⟨-, h⟩ := h
        cases h
        rcases he with he | ⟨error, he⟩ <;> cases he

theorem draw_none (h : draw size now source = none) :
    ∃ piece others, source = piece :: others ∧ ∀ t, piece.time = some t → now < t := by
  cases source with
  | nil => cases h
  | cons piece others =>
    refine ⟨piece, others, rfl, fun t ht => ?_⟩
    simp only [draw] at h
    split at h
    · split at h <;> cases h
    · rename_i hwait
      simpa [ht] using hwait

theorem draw_ofSource (h : draw size now source = some (e, rest)) :
    e.ofSource = true ∧ (e = .quiet → False) := by
  cases source with
  | nil => cases h; simp [Event.ofSource]
  | cons piece others =>
    simp only [draw, Option.ite_none_right_eq_some] at h
    obtain ⟨-, h⟩ := h
    split at h <;> cases h <;> simp [Event.ofSource]

/-- An event of the source is what the source gives, or it gives nothing yet; other events
leave the source as it is. -/
theorem served_cases {s : Setup} {cue : Cue} (h : served s now source cue = some (e, rest)) :
    (draw (capacity s) now source = some (e, rest) ∧ e.ofSource = true ∧ ¬e = .quiet) ∨
      (draw (capacity s) now source = none ∧ e = .quiet ∧ rest = source) ∨
      (e.ofSource = false ∧ rest = source) := by
  cases cue with
  | answer e =>
    simp only [served, Option.ite_none_left_eq_some] at h
    cases h.2
    exact .inr (.inr ⟨by simpa using h.1, rfl⟩)
  | poll =>
    simp only [served, Option.some.injEq] at h
    cases hd : draw (capacity s) now source with
    | none =>
      rw [hd] at h
      cases h
      exact .inr (.inl ⟨rfl, rfl, rfl⟩)
    | some given =>
      rw [hd] at h
      cases h
      exact .inl ⟨rfl, draw_ofSource hd⟩

theorem refuses_chunk {phase : Phase} {error : IoFailure}
    (h : Refuses phase e error) : e.chunk? = none := by
  cases h <;> rfl

theorem ends_chunk {s : Setup} {torn : Bool} {phase : Phase} {outcome : Outcome}
    {said : List Action}
    (h : Ends s torn now phase e outcome said) : e.chunk? = none := by
  cases h with
  | sourceEnd => rfl
  | readError => rfl
  | tornDown => rfl
  | writeError _ refused => exact refuses_chunk refused
  | lateError _ refused => exact refuses_chunk refused

/-- Unless it ends or fails, a source is left without the bytes that it gave. -/
theorem served_stream {s : Setup} {cue : Cue} (h : served s now source cue = some (e, rest))
    (he : ¬e = .sourceEnd ∧ ∀ error, ¬e = .readError error) :
    stream source = e.chunk?.getD [] ++ stream rest := by
  rcases served_cases h with ⟨hd, hof, hq⟩ | ⟨-, rfl, rfl⟩ | ⟨hof, rfl⟩
  · cases e with
    | chunk bytes => exact draw_chunk hd
    | quiet => exact absurd rfl hq
    | sourceEnd => exact absurd rfl he.1
    | readError error => exact absurd rfl (he.2 error)
    | _ => cases hof
  · rfl
  · cases e with
    | chunk bytes => cases hof
    | _ => rfl

theorem served_last {s : Setup} {cue : Cue} (h : served s now source cue = some (e, rest))
    (he : e = .sourceEnd ∨ ∃ error, e = .readError error) : stream source = [] := by
  rcases served_cases h with ⟨hd, -, -⟩ | ⟨-, hq, -⟩ | ⟨hof, -⟩
  · exact draw_last he hd
  · rcases he with rfl | ⟨error, rfl⟩ <;> cases hq
  · rcases he with rfl | ⟨error, rfl⟩ <;> cases hof

end

end Wiretap.Pump
