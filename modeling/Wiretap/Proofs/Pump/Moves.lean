import Wiretap.Pump

/-! What one event can do to a pump, said once with all its guards. Whatever
holds along the life of a pump is derived from these moves and not from the
steps of its phases. -/

set_option autoImplicit false

namespace Wiretap.Pump

theorem fits_ne_nil {s : Setup} {bytes : Bytes} (h : fits s bytes) : bytes ≠ [] := by
  simp only [fits, Bool.and_eq_true, Bool.not_eq_true', List.isEmpty_eq_false_iff] at h
  exact h.1

theorem fits_length {s : Setup} {bytes : Bytes} (h : fits s bytes) :
    bytes.length ≤ capacity s := by
  simp only [fits, Bool.and_eq_true, decide_eq_true_eq] at h
  exact h.2

theorem phase_eta {p : Pump} {phase : Phase} (here : p.phase = phase) :
    { p with phase } = p := by
  cases p
  cases here
  rfl

theorem outcome_ended {p : Pump} {outcome : Outcome} (h : p.outcome? = some outcome) :
    p.phase = .ended outcome := by
  unfold outcome? at h
  split at h
  · rename_i hp
    rw [hp, Option.some.inj h]
  · cases h

inductive Refuses : Phase → Event → IoFailure → Prop where
  | nothingTaken {chunk rest : Bytes} :
    Refuses (.writing chunk rest) (.took 0) (.plain .writeZero)
  | write {chunk rest : Bytes} {error : IoFailure} :
    Refuses (.writing chunk rest) (.writeError error) error
  | flush {chunk : Bytes} {error : IoFailure} :
    Refuses (.flushing chunk) (.flushError error) error

inductive Relaying : Phase → Prop where
  | reading (deadline : Option Nat) : Relaying (.reading deadline)
  | writing (chunk rest : Bytes) : Relaying (.writing chunk rest)
  | flushing (chunk : Bytes) : Relaying (.flushing chunk)

inductive Ends (s : Setup) (torn : Bool) (now : Nat) :
    Phase → Event → Outcome → List Action → Prop where
  | sourceEnd {deadline : Option Nat} (calm : torn = false) (due : deadline.all (now ≤ ·)) :
    Ends s torn now (.reading deadline) .sourceEnd .sourceClosed []
  | readError {deadline : Option Nat} {error : IoFailure} (calm : torn = false)
    (due : deadline.all (now ≤ ·)) :
    Ends s torn now (.reading deadline) (.readError error) .readFailed (failure s "read" error)
  | tornDown {phase : Phase} (raised : torn = true) (busy : Relaying phase) :
    Ends s torn now phase .tornDown .tornDown []
  | writeError {phase : Phase} {event : Event} {error : IoFailure} (calm : torn = false)
    (refused : Refuses phase event error) :
    Ends s torn now phase event .writeFailed (failure s "write" error)
  | lateError {phase : Phase} {event : Event} {error : IoFailure} (raised : torn = true)
    (refused : Refuses phase event error) :
    Ends s torn now phase event .tornDown []

theorem refuses_relaying {phase : Phase} {e : Event} {error : IoFailure}
    (h : Refuses phase e error) : Relaying phase := by
  cases h with
  | nothingTaken => exact .writing _ _
  | write => exact .writing _ _
  | flush => exact .flushing _

theorem ends_relaying {s : Setup} {torn : Bool} {now : Nat} {phase : Phase} {e : Event}
    {outcome : Outcome} {said : List Action} (h : Ends s torn now phase e outcome said) :
    Relaying phase := by
  cases h with
  | sourceEnd => exact .reading _
  | readError => exact .reading _
  | tornDown _ busy => exact busy
  | writeError _ refused => exact refuses_relaying refused
  | lateError _ refused => exact refuses_relaying refused

inductive Closes (s : Setup) (now deadline : Nat) : Event → List Action → Prop where
  | done : Closes s now deadline .closed []
  | error {error : IoFailure} : Closes s now deadline (.closeError error)
    [note s .trace s!"shutdown of destination failed: {error.message}"]
  | timeout (late : deadline ≤ now) : Closes s now deadline .closeTimeout
    [note s .trace "shutdown of destination timed out"]

def afterWrite (chunk left : Bytes) : Phase :=
  if left.isEmpty then .flushing chunk else .writing chunk left

inductive Move (s : Setup) (torn : Bool) (now : Nat) (p : Pump) :
    Event → Pump → List Action → Prop where
  | chunk {deadline : Option Nat} {bytes : Bytes} (here : p.phase = .reading deadline)
    (calm : torn = false) (due : deadline.all (now ≤ ·)) (fit : fits s bytes) :
    Move s torn now p (.chunk bytes) { p with phase := .writing bytes bytes } [.read bytes]
  | quiet {deadline : Option Nat} (here : p.phase = .reading deadline) (calm : torn = false)
    (past : deadline.any (· ≤ now)) :
    Move s torn now p .quiet { (p.emit s).1 with phase := .reading none } (p.emit s).2
  | took {chunk rest : Bytes} {count : Nat} (here : p.phase = .writing chunk rest)
    (calm : torn = false) (taken : count ≠ 0) (most : count ≤ rest.length) :
    Move s torn now p (.took count) { p with phase := afterWrite chunk (rest.drop count) }
      [.wrote (rest.take count)]
  | forwarded {chunk : Bytes} (here : p.phase = .flushing chunk) (calm : torn = false) :
    Move s torn now p .flushed (p.forwarded s now chunk).1 (p.forwarded s now chunk).2
  | ends {event : Event} {outcome : Outcome} {said : List Action}
    (why : Ends s torn now p.phase event outcome said) :
    Move s torn now p event (p.finish s now outcome).1 (said ++ (p.finish s now outcome).2)
  | closes {outcome : Outcome} {deadline : Nat} {event : Event} {said : List Action}
    (here : p.phase = .closing outcome deadline) (how : Closes s now deadline event said) :
    Move s torn now p event { p with phase := .ended outcome } said

section
variable {s : Setup} {torn : Bool} {now : Nat} {p q : Pump} {e : Event} {actions : List Action}

theorem move_reading {deadline : Option Nat} (here : p.phase = .reading deadline)
    (h : p.readStep s torn now deadline e = some (q, actions)) :
    Move s torn now p e q actions := by
  cases e <;> simp only [readStep, Option.ite_none_right_eq_some, Option.some.injEq,
    Bool.and_eq_true, Bool.not_eq_true', reduceCtorEq] at h
  case chunk bytes =>
    obtain ⟨⟨⟨calm, due⟩, fit⟩, h⟩ := h
    cases h
    exact .chunk here calm due fit
  case sourceEnd =>
    obtain ⟨⟨calm, due⟩, h⟩ := h
    have why : Ends s torn now p.phase .sourceEnd .sourceClosed [] := here ▸ .sourceEnd calm due
    simpa [h] using Move.ends why
  case readError error =>
    obtain ⟨⟨calm, due⟩, h⟩ := h
    have why : Ends s torn now p.phase (.readError error) .readFailed
        (failure s "read" error) := here ▸ .readError calm due
    cases h
    exact .ends why
  case quiet =>
    obtain ⟨⟨calm, past⟩, h⟩ := h
    cases h
    exact .quiet here calm past
  case tornDown =>
    have why : Ends s torn now p.phase .tornDown .tornDown [] :=
      here ▸ .tornDown h.1 (.reading deadline)
    simpa [h.2] using Move.ends why

/-- A refused call ends the relaying, and only a flag that is still down makes it a failure. -/
theorem move_refused {error : IoFailure} (refused : Refuses p.phase e error)
    (h : p.writeFailed s torn now error = (q, actions)) : Move s torn now p e q actions := by
  cases torn with
  | true =>
    have why : Ends s true now p.phase e .tornDown [] := .lateError rfl refused
    have := Move.ends why
    simp only [writeFailed, if_true] at h
    simpa [h] using this
  | false =>
    have why : Ends s false now p.phase e .writeFailed _ := .writeError rfl refused
    cases h
    exact .ends why

theorem move_writing {chunk rest : Bytes} (here : p.phase = .writing chunk rest)
    (h : p.writeStep s torn now chunk rest e = some (q, actions)) :
    Move s torn now p e q actions := by
  cases e <;> simp only [writeStep, Option.ite_none_right_eq_some, Option.some.injEq,
    reduceCtorEq] at h
  case tornDown =>
    have why : Ends s torn now p.phase .tornDown .tornDown [] :=
      here ▸ .tornDown h.1 (.writing chunk rest)
    simpa [h.2] using Move.ends why
  case took count =>
    cases count with
    | zero => exact move_refused (here ▸ .nothingTaken) (Option.some.inj h)
    | succ n =>
      simp only [Option.ite_none_left_eq_some, Bool.or_eq_true, decide_eq_true_eq, not_or,
        Option.some.injEq] at h
      obtain ⟨⟨calm, most⟩, h⟩ := h
      cases h
      exact .took here (by simpa using calm) (by simp) (by omega)
  case writeError error => exact move_refused (here ▸ .write) h

theorem move_flushing {chunk : Bytes} (here : p.phase = .flushing chunk)
    (h : p.flushStep s torn now chunk e = some (q, actions)) : Move s torn now p e q actions := by
  cases e <;> simp only [flushStep, Option.ite_none_right_eq_some, Option.ite_none_left_eq_some,
    Option.some.injEq, reduceCtorEq] at h
  case tornDown =>
    have why : Ends s torn now p.phase .tornDown .tornDown [] :=
      here ▸ .tornDown h.1 (.flushing chunk)
    simpa [h.2] using Move.ends why
  case flushed =>
    obtain ⟨calm, h⟩ := h
    have hm : Move s torn now p .flushed (p.forwarded s now chunk).1
        (p.forwarded s now chunk).2 := .forwarded here (by simpa using calm)
    rwa [h] at hm
  case flushError error => exact move_refused (here ▸ .flush) h

theorem move_closing {outcome : Outcome} {deadline : Nat}
    (here : p.phase = .closing outcome deadline)
    (h : p.closeStep s now outcome deadline e = some (q, actions)) :
    Move s torn now p e q actions := by
  cases e <;> simp only [closeStep, Option.ite_none_right_eq_some, Option.some.injEq,
    reduceCtorEq] at h
  case closed => cases h; exact .closes here .done
  case closeError error => cases h; exact .closes here .error
  case closeTimeout =>
    obtain ⟨late, h⟩ := h
    cases h
    exact .closes here (.timeout late)

/-- Every step is one of the moves. -/
theorem move_of_step (h : p.step s torn now e = some (q, actions)) :
    Move s torn now p e q actions := by
  unfold step at h
  split at h
  case h_1 deadline here => exact move_reading here h
  case h_2 chunk rest here => exact move_writing here h
  case h_3 chunk here => exact move_flushing here h
  case h_4 outcome deadline here => exact move_closing here h
  case h_5 => cases h

end

end Wiretap.Pump
