import Mathlib.Data.List.Basic
import Wiretap.Handler

/-! What one event can do to a handler, said once, and what each move tells the
sink. A handler that holds its streams is not gone; the move that ends it
releases them and tells the sink last. -/

set_option autoImplicit false

namespace Wiretap.Handler

inductive Refused : Phase → Event → NetworkFailure → Category → Prop where
  | client {error : NetworkFailure} :
    Refused .greeting (.clientFailed error) error .connectionHandling
  | target {error : NetworkFailure} :
    Refused .reaching (.targetFailed error) error error.targetCategory

def pumped (s : Setup) (d : Direction) (p : Pump) (acts : List Pump.Action)
    (last : List Action) : List Action :=
  acts.map (.relayed d) ++ p.outcome?.toList.map (outcomeLine s) ++ last

inductive Move (s : Setup) (now : Nat) : Phase → Event → Phase → List Action → Prop where
  | begun : Move s now .waiting .begun .greeting []
  | dropped : Move s now .waiting .dropped .gone (.releasedClient :: (Notice.arm s).drop s)
  | greeted : Move s now .greeting .clientReady .reaching []
  | refused {phase : Phase} {e : Event} {error : NetworkFailure} {category : Category}
    (why : Refused phase e error category) :
    Move s now phase e .gone (.reported (.network error) category :: leave s false)
  | reached : Move s now .reaching .targetReady (relay s).1 (relay s).2
  | toTarget {a b q : Pump} {torn : Bool} {e : Pump.Event} {acts : List Pump.Action}
    (h : a.step (pumpSetup s .toTarget) torn now e = some (q, acts)) :
    Move s now (.relaying a b torn) (.pump .toTarget e) (settle s q b (torn || raises acts)).1
      (pumped s .toTarget q acts (settle s q b (torn || raises acts)).2)
  | toClient {a b q : Pump} {torn : Bool} {e : Pump.Event} {acts : List Pump.Action}
    (h : b.step (pumpSetup s .toClient) torn now e = some (q, acts)) :
    Move s now (.relaying a b torn) (.pump .toClient e) (settle s a q (torn || raises acts)).1
      (pumped s .toClient q acts (settle s a q (torn || raises acts)).2)

section
variable {s : Setup} {now : Nat} {phase next : Phase} {e : Event} {acts : List Action}

theorem move_pump {a b : Pump} {torn : Bool} {d : Direction} {e : Pump.Event}
    (h : pumpStep s now a b torn d e = some (next, acts)) :
    Move s now (.relaying a b torn) (.pump d e) next acts := by
  unfold pumpStep at h
  obtain ⟨⟨q, done⟩, hq, h⟩ := Option.map_eq_some_iff.mp h
  cases d with
  | toTarget =>
    cases h
    exact .toTarget hq
  | toClient =>
    cases h
    exact .toClient hq

/-- Every step is one of the moves. -/
theorem move_of_step (h : step s now phase e = some (next, acts)) :
    Move s now phase e next acts := by
  unfold step at h
  split at h
  case h_1 => cases h; exact .begun
  case h_2 => cases h; exact .dropped
  case h_3 => cases h; exact .greeted
  case h_4 => cases h; exact .refused .client
  case h_5 => cases h; exact .reached
  case h_6 => cases h; exact .refused .target
  case h_7 => exact move_pump h
  case h_8 => cases h

end

def released (opened : Bool) : List Action :=
  if opened then [.releasedClient, .releasedTarget] else [.releasedClient]

def Leaves (before acts : List Action) : Prop :=
  ∃ front back, acts = front ++ .closed :: back ∧ (∀ a ∈ before, a ∈ front) ∧
    .closed ∉ front ∧ ∀ a ∈ back, ∃ line, a = .logged line

def Tells (phase : Phase) (before acts : List Action) : Prop :=
  (phase ≠ .gone ∧ .closed ∉ acts) ∨ (phase = .gone ∧ Leaves before acts)

section
variable {s : Setup} {before acts more : List Action} {sink : Sink}

theorem leaves_append (hf : .closed ∉ more) (h : Leaves before acts) :
    Leaves before (more ++ acts) := by
  obtain ⟨front, back, rfl, hb, hc, hl⟩ := h
  refine ⟨more ++ front, back, by simp, ?_, ?_, hl⟩
  · exact fun a ha => List.mem_append_right _ (hb a ha)
  · simp [hf, hc]

theorem notify_spent (s : Setup) (n : Notice) : (n.notify s).1.drop s = [] := rfl

theorem fire_eq_drop (s : Setup) (n : Notice) : n.fire s = n.drop s := by
  show (n.notify s).2 ++ (n.notify s).1.drop s = n.drop s
  rw [notify_spent, List.append_nil, Notice.drop]

theorem drop_leaves (hk : s.sink = some sink) (hb : .closed ∉ before) :
    Leaves before (before ++ (Notice.arm s).drop s) := by
  refine ⟨before ++ [note s .trace "notifying connection closed"],
    s.complaint.toList.map (fun c => note s .error s!"connection closed callback panicked: {c}"),
    ?_, ?_, ?_, ?_⟩
  · simp [Notice.drop, Notice.notify, Notice.arm, hk]
  · exact fun a ha => List.mem_append_left _ ha
  · simp [hb, note]
  · intro a ha
    obtain ⟨c, -, rfl⟩ := List.mem_map.mp ha
    exact ⟨_, rfl⟩

theorem released_open (opened : Bool) : .closed ∉ released opened := by
  cases opened <;> simp [released]

theorem leave_leaves (hk : s.sink = some sink) (opened : Bool) :
    Leaves (released opened) (leave s opened) := by
  have hline : .closed ∉ released opened ++
      [note s .info s!"connection from {s.client.peer.text} closed"] := by
    simp [released_open, note]
  obtain ⟨front, back, heq, hb, hrest⟩ := drop_leaves hk hline
  refine ⟨front, back, ?_, fun a ha => hb a (List.mem_append_left _ ha), hrest⟩
  rw [← heq]
  cases opened <;> simp [leave, released, fire_eq_drop]

end

def Phase.opened : Phase → Bool
  | .relaying _ _ _ => true
  | _ => false

section
variable {s : Setup} {now : Nat} {phase next : Phase} {e : Event} {acts : List Action}
  {sink : Sink}

theorem settle_cases (s : Setup) (a b : Pump) (torn : Bool) :
    (settle s a b torn = (.gone, leave s true) ∧ a.outcome?.isSome ∧ b.outcome?.isSome) ∨
      (settle s a b torn = (.relaying a b torn, []) ∧
        ¬(a.outcome?.isSome ∧ b.outcome?.isSome)) := by
  unfold settle
  split
  · rename_i h
    exact .inl ⟨rfl, Bool.and_eq_true _ _ ▸ h⟩
  · rename_i h
    exact .inr ⟨rfl, by simpa using h⟩

theorem pumped_open (d : Direction) (p : Pump) (done : List Pump.Action) {last : List Action}
    (h : .closed ∉ last) : .closed ∉ pumped s d p done last := by
  have houtcome : ∀ outcome, outcomeLine s outcome ≠ .closed := by
    intro outcome
    cases outcome <;> simp [outcomeLine, note]
  simpa [pumped, h] using fun outcome _ => houtcome outcome

theorem pumped_tells (hk : s.sink = some sink) (d : Direction) (p : Pump)
    (done : List Pump.Action) (a b : Pump) (torn : Bool) :
    Tells (settle s a b torn).1 (released true) (pumped s d p done (settle s a b torn).2) := by
  rcases settle_cases s a b torn with ⟨hs, -⟩ | ⟨hs, -⟩ <;> rw [hs]
  · refine .inr ⟨rfl, ?_⟩
    have hopen : .closed ∉ pumped s d p done [] := pumped_open d p done (by simp)
    have := leaves_append hopen (leave_leaves hk true)
    simpa [pumped] using this
  · exact .inl ⟨by simp, pumped_open d p done (by simp)⟩

theorem relay_open (s : Setup) : .closed ∉ (relay s).2 := by
  simp [relay, note]

/-- A move to the end tells the sink at its end, and other moves do not tell it. -/
theorem move_tells (hk : s.sink = some sink) (m : Move s now phase e next acts) :
    Tells next (released phase.opened) acts := by
  cases m with
  | begun => exact .inl ⟨by simp, by simp⟩
  | dropped => exact .inr ⟨rfl, drop_leaves hk (released_open false)⟩
  | greeted => exact .inl ⟨by simp, by simp⟩
  | @refused _ _ error category why =>
    have hopen : .closed ∉ [Action.reported (.network error) category] := by simp
    refine .inr ⟨rfl, ?_⟩
    cases why <;> exact leaves_append hopen (leave_leaves hk false)
  | reached => exact .inl ⟨by simp [relay], relay_open s⟩
  | toTarget h => exact pumped_tells hk .toTarget _ _ _ _ _
  | toClient h => exact pumped_tells hk .toClient _ _ _ _ _

theorem move_alive (m : Move s now phase e next acts) : phase ≠ .gone := by
  cases m with
  | refused why => cases why <;> simp
  | _ => simp

end

end Wiretap.Handler
