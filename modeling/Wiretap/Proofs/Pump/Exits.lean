import Wiretap.Handler
import Wiretap.Proofs.Pump.Effort

/-! How a pump comes to its end. A failure is reported once and nothing else is, and
the flag is raised and the destination shut down once, after everything that was
relayed or captured. -/

set_option autoImplicit false

namespace Wiretap

def Outcome.isFailure : Outcome → Bool
  | .sourceClosed => false
  | .readFailed => true
  | .writeFailed => true
  | .tornDown => false

namespace Pump

def Action.isLast : Action → Bool
  | .raised => true
  | .shutdown => true
  | _ => false

def Action.isExit : Action → Bool
  | .reported _ => true
  | a => a.isLast

def told (s : Setup) (acts : List Action) : List (Failure × Category) :=
  acts.filterMap fun a => (Handler.Action.relayed s.direction a).report?

def Accounted (s : Setup) (outcome : Outcome) (reports : List (Failure × Category)) : Prop :=
  if s.reporting && outcome.isFailure then ∃ error, reports = [(.io error, .networkIo)]
  else reports = []

def Parted (trace : List (Nat × Action)) (time : Nat) : Prop :=
  ∃ before after, trace = before ++ lastActions.map (time, ·) ++ after ∧
    (∀ x ∈ before, x.2.isLast = false) ∧ ∀ x ∈ after, ∃ line, x.2 = .logged line

structure Exited (s : Setup) (c : Course) (outcome : Outcome) (time : Nat) : Prop where
  parted : Parted c.trace time
  accounted : Accounted s outcome (told s c.actions)

def Limited (p : Pump) : Prop :=
  ∀ deadline, p.phase = .reading deadline → (deadline = none ↔ p.burst = [])

structure Disciplined (s : Setup) (c : Course) : Prop where
  relaying : Relaying c.pump.phase → ∀ a ∈ c.actions, a.isExit = false
  closing : ∀ outcome deadline, c.pump.phase = .closing outcome deadline →
    ∃ time, deadline = time + closeMillis ∧ Exited s c outcome time
  ended : ∀ outcome, c.pump.outcome? = some outcome → ∃ time, Exited s c outcome time
  limited : Limited c.pump

section
variable {s : Setup} {torn : Bool} {now : Nat} {p q : Pump} {e : Event} {acts said : List Action}
  {outcome : Outcome}

theorem told_append (xs ys : List Action) : told s (xs ++ ys) = told s xs ++ told s ys :=
  List.filterMap_append

theorem told_calm (h : ∀ a ∈ acts, a.isExit = false) : told s acts = [] := by
  refine List.filterMap_eq_nil_iff.mpr fun a ha => ?_
  cases a with
  | reported error => cases h _ ha
  | _ => rfl

theorem exit_last {a : Action} (h : a.isExit = false) : a.isLast = false := by
  cases a with
  | reported error => rfl
  | _ => exact h

theorem still_exit {a : Action} (h : a.isStill = true) : a.isExit = false := by
  cases a with
  | captured bytes => rfl
  | logged line => rfl
  | _ => cases h

theorem told_failure (operation : String) (error : IoFailure) :
    told s (failure s operation error) =
      if s.reporting then [(.io error, .networkIo)] else [] := by
  cases hr : s.reporting <;> simp [told, failure, note, hr, Handler.Action.report?]

/-- What is said about the end of relaying accounts for its outcome. -/
theorem ends_accounted {phase : Phase} (h : Ends s torn now phase e outcome said) :
    Accounted s outcome (told s said) := by
  have hfailure : ∀ operation error, outcome.isFailure = true →
      Accounted s outcome (told s (failure s operation error)) := by
    intro operation error hf
    rw [told_failure, Accounted, hf]
    cases s.reporting
    · rfl
    · exact ⟨error, rfl⟩
  cases h with
  | readError => exact hfailure _ _ rfl
  | writeError => exact hfailure _ _ rfl
  | _ => simp [Accounted, Outcome.isFailure, told]

theorem ends_before {phase : Phase} (h : Ends s torn now phase e outcome said) :
    ∀ a ∈ said, a.isLast = false := by
  have hfailure : ∀ operation error, ∀ a ∈ failure s operation error, a.isLast = false := by
    intro operation error a ha
    rcases mem_failure s ha with ⟨line, rfl⟩ | rfl <;> rfl
  cases h with
  | readError => exact hfailure _ _
  | writeError => exact hfailure _ _
  | _ => exact fun a ha => by cases ha

theorem forwarded_exit (chunk : Bytes) :
    ∀ a ∈ (p.forwarded s now chunk).2, a.isExit = false := by
  intro a ha
  rw [forwarded_eq] at ha
  split at ha
  · rw [List.mem_singleton.mp ha]
    rfl
  · rcases List.mem_cons.mp ha with rfl | ha
    · rfl
    · exact still_exit (emit_still _ _ a ha)

theorem closes_logged {deadline : Nat} (h : Closes s now deadline e said) :
    ∀ a ∈ said, ∃ line, a = .logged line := by
  intro a ha
  cases h with
  | done => cases ha
  | error => exact ⟨_, List.mem_singleton.mp ha⟩
  | timeout => exact ⟨_, List.mem_singleton.mp ha⟩

/-- A pump goes on relaying, stops, or has closed. -/
theorem move_exit (m : Move s torn now p e q acts) :
    (Relaying p.phase ∧ Relaying q.phase ∧ ∀ a ∈ acts, a.isExit = false) ∨
      (∃ outcome said, Ends s torn now p.phase e outcome said ∧
        q.phase = .closing outcome (now + closeMillis) ∧
        acts = said ++ parting s p outcome ++ lastActions) ∨
      ∃ outcome deadline, p.phase = .closing outcome deadline ∧ q.phase = .ended outcome ∧
        ∀ a ∈ acts, ∃ line, a = .logged line := by
  cases m with
  | chunk here =>
    refine .inl ⟨here ▸ .reading _, .writing _ _, fun a ha => ?_⟩
    rw [List.mem_singleton.mp ha]
    rfl
  | quiet here =>
    exact .inl ⟨here ▸ .reading _, .reading _, fun a ha => still_exit (emit_still s p a ha)⟩
  | took here =>
    refine .inl ⟨here ▸ .writing _ _, afterWrite_relaying _ _, fun a ha => ?_⟩
    rw [List.mem_singleton.mp ha]
    rfl
  | @forwarded chunk here =>
    obtain ⟨deadline, hd⟩ := forwarded_phase s p now chunk
    exact .inl ⟨here ▸ .flushing _, hd ▸ .reading _, forwarded_exit chunk⟩
  | ends why =>
    exact .inr (.inl ⟨_, _, why, rfl, by rw [finish_parting, List.append_assoc]⟩)
  | closes here how => exact .inr (.inr ⟨_, _, here, rfl, closes_logged how⟩)

theorem move_limited (m : Move s torn now p e q acts) : Limited q := by
  intro deadline hd
  cases m with
  | chunk here => cases hd
  | quiet here =>
    cases hd
    simp
  | took here =>
    dsimp only [afterWrite] at hd
    split at hd <;> cases hd
  | @forwarded chunk here =>
    rw [forwarded_eq] at hd ⊢
    by_cases hroom : p.held + chunk.length < s.settings.maxPacket
    · rw [if_pos hroom] at hd ⊢
      cases hd
      simp [joined]
    · rw [if_neg hroom] at hd ⊢
      cases hd
      simp
  | ends why => cases hd
  | closes here how => cases hd

theorem ends_quiet {phase : Phase} (h : Ends s torn now phase .quiet outcome said) : False := by
  cases h with
  | writeError _ refused => cases refused
  | lateError _ refused => cases refused

theorem quiet_held (h : Limited p) (m : Move s torn now p .quiet q acts) :
    p.burst ≠ [] ∧ ∃ deadline, p.phase = .reading (some deadline) ∧ deadline ≤ now := by
  cases m with
  | @quiet deadline here _ past =>
    cases deadline with
    | none => cases past
    | some deadline =>
      refine ⟨fun hempty => ?_, deadline, here, by simpa using past⟩
      cases (h _ here).mpr hempty
  | ends why => exact (ends_quiet why).elim
  | closes here how => cases how

end

section
variable {s : Setup} {source : List Piece} {c d : Course} {b : Beat} {outcome : Outcome}
  {time now : Nat}

/-- What is logged after an exit leaves it as it is. -/
theorem exited_logged {acts : List Action} (ht : d.trace = c.trace ++ acts.map (now, ·))
    (hlogged : ∀ a ∈ acts, ∃ line, a = .logged line) (h : Exited s c outcome time) :
    Exited s d outcome time := by
  obtain ⟨before, after, htrace, hbefore, hafter⟩ := h.parted
  constructor
  · refine ⟨before, after ++ acts.map (now, ·), by rw [ht, htrace, List.append_assoc], hbefore, ?_⟩
    intro x hx
    rcases List.mem_append.mp hx with hx | hx
    · exact hafter x hx
    · obtain ⟨a, ha, rfl⟩ := List.mem_map.mp hx
      exact hlogged a ha
  · have hcalm : told s acts = [] := by
      refine told_calm fun a ha => ?_
      obtain ⟨line, rfl⟩ := hlogged a ha
      rfl
    rw [Course.actions_step ht, told_append, hcalm, List.append_nil]
    exact h.accounted

/-- The step that stops the relaying makes the exit. -/
theorem exited_ends {torn : Bool} {e : Event} {said : List Action}
    (hcalm : ∀ a ∈ c.actions, a.isExit = false)
    (why : Ends s torn now c.pump.phase e outcome said)
    (ht : d.trace = c.trace ++ (said ++ parting s c.pump outcome ++ lastActions).map (now, ·)) :
    Exited s d outcome now := by
  have hparting : ∀ a ∈ parting s c.pump outcome, a.isExit = false := fun a ha =>
    still_exit (parting_still s c.pump outcome a ha)
  constructor
  · refine ⟨c.trace ++ (said ++ parting s c.pump outcome).map (now, ·), [], ?_, ?_, by simp⟩
    · rw [ht]
      simp
    · intro x hx
      rcases List.mem_append.mp hx with hx | hx
      · exact exit_last (hcalm x.2 (List.mem_map.mpr ⟨x, hx, rfl⟩))
      · obtain ⟨a, ha, rfl⟩ := List.mem_map.mp hx
        rcases List.mem_append.mp ha with ha | ha
        · exact ends_before why a ha
        · exact exit_last (hparting a ha)
  · have hlast : told s lastActions = [] := rfl
    rw [Course.actions_step ht, told_append, told_append, told_append, told_calm hcalm,
      told_calm hparting, hlast, List.append_nil, List.append_nil, List.nil_append]
    exact ends_accounted why

theorem begin_disciplined (s : Setup) (source : List Piece) :
    Disciplined s (.begin s source) := by
  refine ⟨fun _ => ?_, nofun, nofun, fun deadline h => ?_⟩
  · simp [Course.actions, Course.begin, start, note, Action.isExit, Action.isLast]
  · cases h
    simp [Course.begin, start]

theorem step_disciplined (c : Course) (b : Beat) (d : Course) (h : Disciplined s c)
    (hd : c.step s b = some d) : Disciplined s d := by
  obtain ⟨e, acts, -, m, -, ht⟩ := Course.step_move hd
  have hlimited := move_limited m
  rcases move_exit m with ⟨hp, hq, hcalm⟩ | ⟨outcome, said, why, hq, rfl⟩ |
    ⟨outcome, deadline, hp, hq, hlogged⟩
  · refine ⟨fun _ a ha => ?_, fun outcome deadline hc => ?_, fun outcome ho => ?_, hlimited⟩
    · rw [Course.actions_step ht] at ha
      rcases List.mem_append.mp ha with ha | ha
      · exact h.relaying hp a ha
      · exact hcalm a ha
    · rw [hc] at hq
      cases hq
    · rw [outcome_ended ho] at hq
      cases hq
  · have hexit := exited_ends (h.relaying (ends_relaying why)) why ht
    refine ⟨fun hr => ?_, fun outcome' deadline hc => ?_, fun outcome' ho => ?_, hlimited⟩
    · rw [hq] at hr
      cases hr
    · cases hq.symm.trans hc
      exact ⟨b.time, rfl, hexit⟩
    · cases hq.symm.trans (outcome_ended ho)
  · obtain ⟨time, -, hexit⟩ := h.closing outcome deadline hp
    refine ⟨fun hr => ?_, fun outcome' deadline' hc => ?_, fun outcome' ho => ?_, hlimited⟩
    · rw [hq] at hr
      cases hr
    · cases hq.symm.trans hc
    · cases hq.symm.trans (outcome_ended ho)
      exact ⟨time, exited_logged ht hlogged hexit⟩

end

section
variable (s : Setup) (source : List Piece)

/-- Along every course failures are reported once, and the flag is raised and the destination
shut down once, after everything else but log lines. Only a read that holds something back
gives up waiting. A source that gives all it has leaves something to answer at any time, each
answer moves the pump on, and a pump whose calls are all answered comes to its end. -/
theorem exits_disciplined :
    (∀ beats c, Course.run s beats (.begin s source) = some c →
      Disciplined s c ∧ beats.length ≤ 4 * (stream source).length + 2 ∧
      (∀ b d rest, served s b.time c.source b.cue = some (.quiet, rest) →
        c.step s b = some d → c.pump.burst ≠ [] ∧
          ∃ deadline, c.pump.phase = .reading (some deadline) ∧ deadline ≤ b.time) ∧
      (∀ b, Answers s c.source c.pump.phase b → ∃ d, c.step s b = some d) ∧
      (Timed source → c.pump.outcome? = none →
        ∀ now, (∀ deadline, c.pump.phase = .reading (some deadline) → now ≤ deadline) →
          ∃ b, now ≤ b.time ∧ Answers s c.source c.pump.phase b)) ∧
    ∀ w, Answering s w (.begin s source) →
      ∃ n outcome, ((Course.begin s source).conduct s w n).pump.outcome? = some outcome := by
  refine ⟨fun beats c hrun => ?_, fun w ha => conduct_ends ha _ 0 (Nat.lt_succ_self _)⟩
  have hd := Course.run_invariant step_disciplined beats _ c (begin_disciplined s source) hrun
  refine ⟨hd, ?_, ?_, fun b hb => answers_step hb, fun ht ho now hnow => ?_⟩
  · have hspent := run_effort beats _ c hrun
    have hall : (Course.begin s source).effort = 2 + 4 * (stream source).length := rfl
    omega
  · intro b d rest hquiet hstep
    obtain ⟨e, acts, hs, m, -, -⟩ := Course.step_move hstep
    cases hquiet.symm.trans hs
    exact quiet_held hd.limited m
  · refine ⟨_, promptly_later hnow,
      promptly_answers (run_timed ht beats c hrun) fun outcome he => ?_⟩
    rw [outcome?, he] at ho
    cases ho

end

def hangingSetup : Setup := ⟨.ofNat 3, .toTarget, ⟨8, 50, 1024⟩, some .quiet, true⟩

def hangingSource : List Piece :=
  [⟨some 0, .data [1, 2, 3]⟩, ⟨some 20, .data [4]⟩, ⟨some 90, .ending⟩]

def hangingBeats : List Beat :=
  [⟨0, false, .poll⟩, ⟨1, false, .answer (.took 3)⟩, ⟨2, false, .answer .flushed⟩,
    ⟨20, false, .poll⟩, ⟨21, false, .answer (.writeError (.plain .brokenPipe))⟩,
    ⟨1021, false, .answer .closeTimeout⟩]

theorem hanging_timed : Timed hangingSource := by
  simp [Timed, hangingSource]

/-- A destination that breaks and then hangs is given up after a second, and reported once. -/
theorem exits_disciplined_hanging :
    (∃ c, Course.run hangingSetup hangingBeats (.begin hangingSetup hangingSource) = some c ∧
      c.pump.outcome? = some .writeFailed ∧ Disciplined hangingSetup c ∧
      told hangingSetup c.actions = [(.io (.plain .brokenPipe), .networkIo)]) ∧
    ∃ n outcome,
      ((Course.begin hangingSetup hangingSource).conduct hangingSetup prompt n).pump.outcome? =
        some outcome := by
  have h := exits_disciplined hangingSetup hangingSource
  exact ⟨⟨_, rfl, rfl, (h.1 hangingBeats _ rfl).1, rfl⟩,
    h.2 prompt (prompt_answering hangingSetup hanging_timed)⟩

end Pump
end Wiretap
