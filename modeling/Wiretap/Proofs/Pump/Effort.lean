import Wiretap.Proofs.Pump.Endings
import Wiretap.Proofs.Pump.Surroundings

/-! What a pump can still do is bounded by the phase that it is in and by what is
left of its source. Each turn uses some of that up, so a pump whose calls are all
answered comes to its end. -/

set_option autoImplicit false

namespace Wiretap.Pump

def Phase.effort : Phase → Nat
  | .reading none => 2
  | .reading (some _) => 3
  | .writing _ rest => rest.length + 4
  | .flushing _ => 4
  | .closing _ _ => 1
  | .ended _ => 0

def Course.effort (c : Course) : Nat :=
  c.pump.phase.effort + if c.pump.ending?.isNone then 4 * (stream c.source).length else 0

section
variable {s : Setup} {source : List Piece} {c d : Course} {b : Beat} {outcome : Outcome} {now : Nat}

theorem effort_relaying (hp : Relaying c.pump.phase) :
    c.effort = c.pump.phase.effort + 4 * (stream c.source).length := by
  simp [Course.effort, relaying_iff.mp hp]

theorem phase_effort {phase : Phase} (hp : Relaying phase) : 2 ≤ phase.effort := by
  cases hp with
  | reading deadline => cases deadline <;> simp [Phase.effort]
  | writing => simp [Phase.effort]
  | flushing => simp [Phase.effort]

theorem effort_ending (h : c.pump.ending? = some outcome) : c.effort = c.pump.phase.effort := by
  simp [Course.effort, h]

/-- A chunk is worth more as long as it has not been read. -/
theorem chunk_effort {cue : Cue} {bytes : Bytes} {deadline : Option Nat}
    (hs : served s now c.source cue = some (.chunk bytes, d.source)) (hn : bytes ≠ [])
    (hc : c.pump.phase = .reading deadline) (hd : d.pump.phase = .writing bytes bytes) :
    d.effort < c.effort := by
  have hstream := congrArg List.length (served_stream hs (by simp))
  have hpos := List.length_pos_iff.mpr hn
  have hread := phase_effort (.reading deadline)
  have hcr : Relaying c.pump.phase := hc ▸ .reading _
  have hdr : Relaying d.pump.phase := hd ▸ .writing _ _
  rw [effort_relaying hcr, effort_relaying hdr, hc, hd]
  simp only [Event.chunk?, Option.getD_some, List.length_append] at hstream
  simp only [Phase.effort] at hread ⊢
  omega

theorem calm_effort {cue : Cue} {e : Event} (hs : served s now c.source cue = some (e, d.source))
    (he : e.chunk? = none) (hlast : ¬e = .sourceEnd ∧ ∀ error, ¬e = .readError error)
    (hc : Relaying c.pump.phase) (hd : Relaying d.pump.phase)
    (hless : d.pump.phase.effort < c.pump.phase.effort) : d.effort < c.effort := by
  have hstream := served_stream hs hlast
  rw [he, Option.getD_none, List.nil_append] at hstream
  rw [effort_relaying hc, effort_relaying hd, hstream]
  exact Nat.add_lt_add_right hless _

theorem afterWrite_effort (chunk rest : Bytes) {count : Nat} (taken : count ≠ 0)
    (most : count ≤ rest.length) :
    (afterWrite chunk (rest.drop count)).effort < (Phase.writing chunk rest).effort := by
  unfold afterWrite
  split
  · simp only [Phase.effort]
    omega
  · simp only [Phase.effort, List.length_drop]
    omega

theorem forwarded_effort {p : Pump} (chunk : Bytes) :
    (p.forwarded s now chunk).1.phase.effort < (Phase.flushing chunk).effort := by
  rw [forwarded_eq]
  split <;> simp [Phase.effort]

theorem step_effort (hd : c.step s b = some d) : d.effort < c.effort := by
  obtain ⟨e, acts, hs, m, -, -⟩ := Course.step_move hd
  generalize hq : d.pump = q at m
  cases m with
  | chunk here _ _ fit =>
    exact chunk_effort hs (fits_ne_nil fit) here (by rw [hq])
  | @quiet deadline here _ past =>
    refine calm_effort hs rfl (by simp) (here ▸ .reading _) (hq ▸ .reading _) ?_
    cases deadline with
    | none => cases past
    | some deadline => simp [hq, here, Phase.effort]
  | took here _ taken most =>
    refine calm_effort hs rfl (by simp) (here ▸ .writing _ _) (hq ▸ afterWrite_relaying _ _) ?_
    rw [hq, here]
    exact afterWrite_effort _ _ taken most
  | @forwarded chunk here calm =>
    obtain ⟨deadline, hphase⟩ := forwarded_phase s c.pump b.time chunk
    refine calm_effort hs rfl (by simp) (here ▸ .flushing _)
      (by rw [hq, hphase]; exact .reading _) ?_
    rw [hq, here]
    exact forwarded_effort chunk
  | @ends event outcome said why =>
    have hleft : d.effort = 1 := by
      rw [effort_ending (hq ▸ finish_ending s b.time c.pump outcome), hq]
      rfl
    have hmore := phase_effort (ends_relaying why)
    rw [hleft, effort_relaying (ends_relaying why)]
    omega
  | @closes outcome deadline event said here how =>
    have hleft : d.effort = 0 := by
      rw [effort_ending (show d.pump.ending? = some outcome by rw [hq]; rfl), hq]
      rfl
    have hmore : c.effort = 1 := by
      rw [effort_ending (show c.pump.ending? = some outcome by rw [ending?, here]), here]
      rfl
    omega

/-- Every turn uses up some of the effort. -/
theorem run_effort (beats : List Beat) (c d : Course) (h : Course.run s beats c = some d) :
    d.effort + beats.length ≤ c.effort := by
  induction beats generalizing c with
  | nil =>
    cases h
    simp
  | cons b bs ih =>
    obtain ⟨m, hm, h⟩ := Option.bind_eq_some_iff.mp h
    have hrest := ih m h
    have hless := step_effort hm
    rw [List.length_cons]
    omega

theorem step_timed (c : Course) (b : Beat) (d : Course) (h : Timed c.source)
    (hd : c.step s b = some d) : Timed d.source := by
  obtain ⟨e, acts, hs, -, -, -⟩ := Course.step_move hd
  rcases served_cases hs with ⟨hdraw, -, -⟩ | ⟨-, -, heq⟩ | ⟨-, heq⟩
  · exact draw_timed h hdraw
  · rwa [heq]
  · rwa [heq]

def promptly (now : Nat) (phase : Phase) (source : List Piece) : Beat :=
  match phase with
  | .reading deadline =>
    let due := max now (readyTime source)
    ⟨deadline.elim due (min due), false, .poll⟩
  | .writing _ rest => ⟨now, false, .answer (.took rest.length)⟩
  | .flushing _ => ⟨now, false, .answer .flushed⟩
  | .closing _ _ => ⟨now, false, .answer .closed⟩
  | .ended _ => ⟨now, false, .poll⟩

theorem promptly_later {phase : Phase}
    (hd : ∀ deadline, phase = .reading (some deadline) → now ≤ deadline) :
    now ≤ (promptly now phase source).time := by
  cases phase with
  | reading deadline =>
    cases deadline with
    | none => exact Nat.le_max_left _ _
    | some deadline =>
      exact Nat.le_min.mpr ⟨Nat.le_max_left _ _, hd deadline rfl⟩
  | _ => exact Nat.le_refl _

/-- A source that gives all it has can be waited for. -/
theorem promptly_answers {phase : Phase} (ht : Timed source)
    (hp : ∀ outcome, phase ≠ .ended outcome) :
    Answers s source phase (promptly now phase source) := by
  cases phase with
  | reading deadline =>
    have hready : readyTime source ≤ max now (readyTime source) := Nat.le_max_right _ _
    cases deadline with
    | none => exact .ready (draw_later ht hready) rfl
    | some deadline =>
      by_cases hwait : max now (readyTime source) ≤ deadline
      · have htime : min (max now (readyTime source)) deadline = max now (readyTime source) :=
          Nat.min_eq_left hwait
        simp only [promptly, Option.elim_some, htime]
        exact .ready (draw_later ht hready) (by simpa using hwait)
      · have htime : min (max now (readyTime source)) deadline = deadline := by omega
        simp only [promptly, Option.elim_some, htime]
        by_cases hearly : deadline < readyTime source
        · exact .quiet (draw_earlier ht hearly) (Nat.le_refl _)
        · exact .ready (draw_later ht (Nat.not_lt.mp hearly)) (by simp)
  | writing chunk rest => exact .took (Nat.le_refl _)
  | flushing chunk => exact .flushed
  | closing outcome deadline => exact .closed
  | ended outcome => exact absurd rfl (hp outcome)

end

section
variable {s : Setup} {w : Surroundings} {c : Course}

def Answering (s : Setup) (w : Surroundings) (c : Course) : Prop :=
  ∀ n, (c.conduct s w n).pump.outcome? = none →
    Answers s (c.conduct s w n).source (c.conduct s w n).pump.phase (c.beat s w n)

/-- The induction is on the effort that is left, of which the next turn uses some up. -/
theorem conduct_ends (ha : Answering s w c) (k : Nat) :
    ∀ n, (c.conduct s w n).effort < k →
      ∃ n outcome, (c.conduct s w n).pump.outcome? = some outcome := by
  induction k with
  | zero => exact fun n hk => absurd hk (Nat.not_lt_zero _)
  | succ k ih =>
    intro n hk
    cases ho : (c.conduct s w n).pump.outcome? with
    | some outcome => exact ⟨n, outcome, ho⟩
    | none =>
      obtain ⟨d, hd⟩ := answers_step (ha n ho)
      have hless := step_effort hd
      refine ih (n + 1) ?_
      rw [Course.conduct_of_step hd]
      omega

theorem run_timed {source : List Piece} (ht : Timed source) (beats : List Beat) (d : Course)
    (h : Course.run s beats (.begin s source) = some d) : Timed d.source :=
  Course.run_invariant (P := fun c => Timed c.source) step_timed beats _ d ht h

end

def prompt : Surroundings := fun _ o =>
  promptly ((o.trace.getLast?).elim 0 (·.1)) o.phase o.source

theorem prompt_answering (s : Setup) {source : List Piece} (ht : Timed source) :
    Answering s prompt (.begin s source) := by
  intro n ho
  obtain ⟨beats, hrun⟩ := Course.conduct_run (w := prompt) n
  refine promptly_answers (run_timed ht beats _ hrun) fun outcome he => ?_
  rw [outcome?, he] at ho
  cases ho

end Wiretap.Pump
