import Wiretap.Proofs.Pump.Ledger

/-! How a pump stops relaying. It captures what it holds back, and only then
raises the flag and shuts its destination down; from then on its outcome is
settled. A pump that finds the flag raised stops at once and moves no more
bytes. -/

set_option autoImplicit false

namespace Wiretap.Pump

def ending? (p : Pump) : Option Outcome :=
  match p.phase with
  | .closing outcome _ => some outcome
  | .ended outcome => some outcome
  | _ => none

def Action.isRaise : Action → Bool
  | .raised => true
  | _ => false

def Action.isTransfer : Action → Bool
  | .read _ => true
  | .wrote _ => true
  | _ => false

def Action.isStill : Action → Bool
  | .captured _ => true
  | .logged _ => true
  | _ => false

def lastActions : List Action := [.raised, .shutdown]

def parting (s : Setup) (p : Pump) (outcome : Outcome) : List Action :=
  (p.emit s).2 ++ [note s .debug s!"{s.direction.arrow} forwarder finished: {outcome.name}"]

theorem still_calm {a : Action} (h : a.isStill = true) :
    a.isRaise = false ∧ a.isTransfer = false ∧ ∀ error, a ≠ .reported error := by
  cases a with
  | captured => simp [Action.isRaise, Action.isTransfer]
  | logged => simp [Action.isRaise, Action.isTransfer]
  | _ => cases h

section
variable {s : Setup} {torn : Bool} {now : Nat} {p q : Pump} {e : Event} {acts said : List Action}
  {outcome : Outcome}

theorem relaying_iff : Relaying p.phase ↔ p.ending? = none := by
  unfold ending?
  constructor
  · intro h
    generalize p.phase = phase at h
    cases h <;> rfl
  · intro h
    split at h
    · cases h
    · cases h
    · rename_i hc he
      cases hp : p.phase with
      | reading deadline => exact .reading deadline
      | writing chunk rest => exact .writing chunk rest
      | flushing chunk => exact .flushing chunk
      | closing outcome deadline => exact absurd hp (hc outcome deadline)
      | ended outcome => exact absurd hp (he outcome)

theorem afterWrite_relaying (chunk left : Bytes) : Relaying (afterWrite chunk left) := by
  unfold afterWrite
  split
  · exact .flushing chunk
  · exact .writing chunk left

theorem outcome_ending (h : p.outcome? = some outcome) : p.ending? = some outcome := by
  rw [ending?, outcome_ended h]

theorem emit_still (s : Setup) (p : Pump) : ∀ a ∈ (p.emit s).2, a.isStill = true := by
  intro a ha
  unfold emit at ha
  split at ha
  · cases ha
  · rcases List.mem_cons.mp ha with rfl | ha
    · rfl
    · unfold offer at ha
      split at ha
      · cases ha
      · rcases List.mem_cons.mp ha with rfl | ha
        · rfl
        · obtain ⟨c, -, rfl⟩ := List.mem_map.mp ha
          rfl

theorem parting_still (s : Setup) (p : Pump) (outcome : Outcome) :
    ∀ a ∈ parting s p outcome, a.isStill = true := by
  intro a ha
  rcases List.mem_append.mp ha with ha | ha
  · exact emit_still s p a ha
  · rw [List.mem_singleton.mp ha]
    rfl

theorem finish_parting (s : Setup) (now : Nat) (p : Pump) (outcome : Outcome) :
    (p.finish s now outcome).2 = parting s p outcome ++ lastActions := by
  simp [finish, parting, lastActions]

theorem ends_said {phase : Phase} (h : Ends s torn now phase e outcome said) :
    ∀ a ∈ said, a.isRaise = false ∧ a.isTransfer = false := by
  have hfailure : ∀ operation error, ∀ a ∈ failure s operation error,
      a.isRaise = false ∧ a.isTransfer = false := by
    intro operation error a ha
    rcases mem_failure s ha with ⟨line, rfl⟩ | rfl <;> exact ⟨rfl, rfl⟩
  cases h with
  | readError => exact hfailure _ _
  | writeError => exact hfailure _ _
  | _ => exact fun a ha => by cases ha

theorem stops_calm (h : Ends s torn now p.phase e outcome said) :
    ∀ a ∈ said ++ parting s p outcome, a.isRaise = false := by
  intro a ha
  rcases List.mem_append.mp ha with ha | ha
  · exact (ends_said h a ha).1
  · exact (still_calm (parting_still s p outcome a ha)).1

theorem closes_still {deadline : Nat} (h : Closes s now deadline e said) :
    ∀ a ∈ said, a.isStill = true := by
  intro a ha
  cases h with
  | done => cases ha
  | error =>
    rw [List.mem_singleton.mp ha]
    rfl
  | timeout =>
    rw [List.mem_singleton.mp ha]
    rfl

theorem forwarded_calm (chunk : Bytes) :
    ∀ a ∈ (p.forwarded s now chunk).2, a.isRaise = false := by
  intro a ha
  unfold forwarded at ha
  dsimp only at ha
  split at ha
  · rw [List.mem_singleton.mp ha]
    rfl
  · rcases List.mem_cons.mp ha with rfl | ha
    · rfl
    · exact (still_calm (emit_still _ _ a ha)).1

/-- A move that ends the relaying settles the outcome and raises the flag at its end; any other
leaves both as they are. -/
theorem move_ending (m : Move s torn now p e q acts) :
    (q.ending? = p.ending? ∧ ∀ a ∈ acts, a.isRaise = false) ∨
      ∃ outcome said, Ends s torn now p.phase e outcome said ∧ q = (p.finish s now outcome).1 ∧
        acts = said ++ parting s p outcome ++ lastActions := by
  cases m with
  | chunk here => exact .inl ⟨by simp [ending?, here], by simp [Action.isRaise]⟩
  | quiet here =>
    refine .inl ⟨by simp [ending?, here], fun a ha => (still_calm (emit_still s p a ha)).1⟩
  | took here =>
    refine .inl ⟨?_, by simp [Action.isRaise]⟩
    have hp : Relaying p.phase := by
      rw [here]
      exact .writing _ _
    rw [relaying_iff.mp hp]
    exact relaying_iff.mp (afterWrite_relaying _ _)
  | @forwarded chunk here =>
    refine .inl ⟨?_, forwarded_calm chunk⟩
    obtain ⟨deadline, hd⟩ := forwarded_phase s p now chunk
    simp [ending?, here, hd]
  | ends why => exact .inr ⟨_, _, why, rfl, by rw [finish_parting, List.append_assoc]⟩
  | closes here how =>
    exact .inl ⟨by simp [ending?, here], fun a ha => (still_calm (closes_still how a ha)).1⟩

theorem finish_ending (s : Setup) (now : Nat) (p : Pump) (outcome : Outcome) :
    (p.finish s now outcome).1.ending? = some outcome := rfl

theorem ends_torn {phase : Phase} (h : Ends s true now phase e outcome said) :
    outcome = .tornDown ∧ said = [] := by
  cases h with
  | sourceEnd calm => cases calm
  | readError calm => cases calm
  | writeError calm => cases calm
  | tornDown => exact ⟨rfl, rfl⟩
  | lateError => exact ⟨rfl, rfl⟩

theorem ends_untorn {phase : Phase} (h : Ends s false now phase e outcome said) :
    outcome ≠ .tornDown := by
  cases h with
  | tornDown raised => cases raised
  | lateError raised => cases raised
  | _ => simp

/-- A pump that finds the flag raised stops relaying at its next move. -/
theorem move_torn (m : Move s true now p e q acts) (hp : Relaying p.phase) :
    q = (p.finish s now .tornDown).1 ∧ acts = parting s p .tornDown ++ lastActions := by
  cases m with
  | chunk _ calm => cases calm
  | quiet _ calm => cases calm
  | took _ calm => cases calm
  | forwarded _ calm => cases calm
  | ends why =>
    obtain ⟨rfl, rfl⟩ := ends_torn why
    exact ⟨rfl, finish_parting s now p .tornDown⟩
  | closes here =>
    rw [here] at hp
    cases hp

/-- No bytes are moved under a raised flag. -/
theorem move_torn_still (m : Move s true now p e q acts) : ∀ a ∈ acts, a.isTransfer = false := by
  by_cases hp : Relaying p.phase
  · obtain ⟨-, rfl⟩ := move_torn m hp
    intro a ha
    rcases List.mem_append.mp ha with ha | ha
    · exact (still_calm (parting_still s p .tornDown a ha)).2.1
    · simp only [lastActions, List.mem_cons, List.not_mem_nil, or_false] at ha
      rcases ha with rfl | rfl <;> rfl
  · cases m with
    | closes _ how => exact fun a ha => (still_calm (closes_still how a ha)).2.1
    | chunk _ calm => cases calm
    | quiet _ calm => cases calm
    | took _ calm => cases calm
    | forwarded _ calm => cases calm
    | ends why => exact absurd (ends_relaying why) hp

end

end Wiretap.Pump
