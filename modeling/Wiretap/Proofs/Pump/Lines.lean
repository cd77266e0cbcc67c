import Mathlib.Data.List.Forall2
import Wiretap.Proofs.Pump.Course

/-! The lines of a simulation follow courses: whatever the script of a
destination says and whenever the flag is raised, a line polls its source or
has one of its calls answered. -/

set_option autoImplicit false

namespace Wiretap.Pump

namespace Line

structure At (l : Line) (c : Course) : Prop where
  pump : l.pump = c.pump
  source : l.source = c.source
  trace : l.trace.reverse = c.trace

def Follows (source : List Piece) (l : Line) : Prop :=
  ∃ beats c, Course.run l.setup beats (.begin l.setup source) = some c ∧ l.At c

structure Alike (l after : Line) : Prop where
  setup : after.setup = l.setup
  pump : after.pump = l.pump
  trace : after.trace = l.trace

structure Same (l after : Line) : Prop extends Alike l after where
  source : after.source = l.source

inductive Serves (l : Line) : Turn → Prop where
  | event {e : Event} {after : Line} (same : l.Same after) (other : e.ofSource = false) :
    l.Serves (.event e after)
  | again {after : Line} (same : l.Same after) : l.Serves (.again after)
  | wait (time : Option Nat) : l.Serves (.wait time)
  | done : l.Serves .done

section
variable {l after next : Line} {c : Course} {e : Event} {torn raised : Bool} {now : Nat}

theorem refuse_serves (barrier : Barrier) : l.Serves ({ l with due := none }.refuse barrier) := by
  have hsame : l.Same (if barrier.once then
      { l with due := none, destination := { l.destination with barrier := none } }
      else { l with due := none }) := by
    split <;> exact ⟨⟨rfl, rfl, rfl⟩, rfl⟩
  unfold refuse
  dsimp only
  split
  · exact .event hsame rfl
  · split
    · exact .again hsame
    · exact .event hsame rfl

theorem write_serves (now : Nat) (rest : Bytes) : l.Serves (l.write now rest) := by
  unfold write
  dsimp only
  split
  · split
    · exact refuse_serves _
    · exact .event ⟨⟨rfl, rfl, rfl⟩, rfl⟩ rfl
  · exact .event ⟨⟨rfl, rfl, rfl⟩, rfl⟩ rfl

theorem flush_serves : l.Serves l.flush := by
  unfold flush
  dsimp only
  split
  · refine .event ⟨⟨rfl, rfl, rfl⟩, rfl⟩ ?_
    split <;> rfl
  · exact .event ⟨⟨rfl, rfl, rfl⟩, rfl⟩ rfl

theorem close_serves : l.Serves l.close := by
  unfold close
  split
  · exact .event ⟨⟨rfl, rfl, rfl⟩, rfl⟩ rfl
  · exact .event ⟨⟨rfl, rfl, rfl⟩, rfl⟩ rfl
  · exact .wait none

/-- A call is answered as it is served, or too late. -/
theorem served_serves {delay : Nat} {deadline : Option Nat} {serve : Line → Turn} {late : Event}
    (hserve : l.Serves (serve l)) (hlate : deadline = none ∨ late.ofSource = false) :
    l.Serves (l.served now delay deadline serve late) := by
  unfold served
  dsimp only
  split
  · split
    · rename_i hdue
      refine .event ⟨⟨rfl, rfl, rfl⟩, rfl⟩ ?_
      rcases hlate with rfl | hlate
      · cases hdue
      · exact hlate
    · exact .wait _
  · split
    · exact hserve
    · exact .wait _

theorem turn_serves (torn : Bool) (now : Nat)
    (h : ∀ deadline, l.pump.phase ≠ .reading deadline) : l.Serves (l.turn torn now) := by
  have htorn : ∀ after, l.Same after → l.Serves (.event .tornDown after) :=
    fun after hsame => .event hsame rfl
  unfold turn
  split
  · rename_i deadline hp
    exact absurd hp (h deadline)
  · split
    · exact htorn _ ⟨⟨rfl, rfl, rfl⟩, rfl⟩
    · exact served_serves (write_serves now _) (.inl rfl)
  · split
    · exact htorn _ ⟨⟨rfl, rfl, rfl⟩, rfl⟩
    · exact served_serves flush_serves (.inl rfl)
  · exact served_serves close_serves (.inr rfl)
  · exact .done

theorem turn_reading {deadline : Option Nat} (here : l.pump.phase = .reading deadline) :
    l.turn torn now = if torn then .event .tornDown l else l.read now deadline := by
  rw [turn, here]

/-- What a line meets is a cue, and nothing but its ends is changed by it. -/
theorem turn_cue (h : l.turn torn now = .event e after) :
    l.Alike after ∧ ∃ cue, Pump.served l.setup now l.source cue = some (e, after.source) := by
  by_cases hr : ∃ deadline, l.pump.phase = .reading deadline
  · obtain ⟨deadline, here⟩ := hr
    rw [turn_reading here] at h
    split at h
    · cases h
      exact ⟨⟨rfl, rfl, rfl⟩, .answer .tornDown, rfl⟩
    · unfold read at h
      split at h
      · rename_i e' source hd
        cases h
        exact ⟨⟨rfl, rfl, rfl⟩, .poll, by simp [Pump.served, hd]⟩
      · rename_i hd
        split at h
        · cases h
          exact ⟨⟨rfl, rfl, rfl⟩, .poll, by simp [Pump.served, hd]⟩
        · cases h
  · have hs := turn_serves torn now (not_exists.mp hr)
    rw [h] at hs
    cases hs with
    | event same other =>
      exact ⟨same.toAlike, .answer e, by simp [Pump.served, other, same.source]⟩

/-- A call that is made again leaves a line where it was. -/
theorem turn_again (h : l.turn torn now = .again after) : l.Same after := by
  by_cases hr : ∃ deadline, l.pump.phase = .reading deadline
  · obtain ⟨deadline, here⟩ := hr
    rw [turn_reading here] at h
    split at h
    · cases h
    · unfold read at h
      split at h
      · cases h
      · split at h <;> cases h
  · have hs := turn_serves torn now (not_exists.mp hr)
    rw [h] at hs
    cases hs with
    | again same => exact same

/-- What a line does at one moment is a step of its course. -/
theorem follow_step (hat : l.At c) (ht : l.turn torn now = .event e after)
    (hf : after.follow torn now e = some (next, raised)) :
    next.setup = l.setup ∧ ∃ d, (∃ b, c.step l.setup b = some d) ∧ next.At d := by
  obtain ⟨⟨hsetup, hpump, htrace⟩, cue, hcue⟩ := turn_cue ht
  unfold follow at hf
  obtain ⟨⟨pump, acts⟩, hs, hf⟩ := Option.map_eq_some_iff.mp hf
  cases hf
  rw [hsetup, hpump, hat.pump] at hs
  rw [hat.source] at hcue
  refine ⟨hsetup, _, ⟨⟨now, torn, cue⟩, by simp [Course.step, hcue, hs]; rfl⟩, rfl, rfl, ?_⟩
  simp [htrace, hat.trace]

theorem begin_follows (s : Setup) (source : List Piece) (d : Destination) :
    (begin s source d).Follows source :=
  ⟨[], _, rfl, rfl, rfl, by simp [begin, Course.begin]⟩

theorem schedule_follows {source : List Piece} (now : Nat) (h : l.Follows source) :
    (l.schedule now).Follows source := by
  obtain ⟨beats, c, hrun, hpump, hsource, htrace⟩ := h
  unfold schedule
  split <;> exact ⟨beats, c, hrun, hpump, hsource, htrace⟩

theorem again_follows {source : List Piece} (h : l.Follows source)
    (ht : (l.schedule now).turn torn now = .again after) : after.Follows source := by
  obtain ⟨beats, c, hrun, hat⟩ := schedule_follows now h
  obtain ⟨⟨hsetup, hpump, htrace⟩, hsource⟩ := turn_again ht
  exact ⟨beats, c, hsetup ▸ hrun, hpump.trans hat.pump, hsource.trans hat.source,
    by rw [htrace, hat.trace]⟩

theorem step_follows {source : List Piece} (h : l.Follows source)
    (ht : (l.schedule now).turn torn now = .event e after)
    (hf : after.follow torn now e = some (next, raised)) : next.Follows source := by
  obtain ⟨beats, c, hrun, hat⟩ := schedule_follows now h
  obtain ⟨hsetup, d, ⟨b, hb⟩, hd⟩ := follow_step hat ht hf
  exact ⟨beats ++ [b], d, hsetup ▸ Course.run_concat hrun hb, hd⟩

end
end Line

namespace Simulation
open List (Forall₂)

section
variable {sources : List (List Piece)} {torn raised : Bool} {now : Nat} {lines after : List Line}
  {s t : Simulation}

theorem schedule_all (now : Nat) (h : Forall₂ (fun source l => l.Follows source) sources lines) :
    Forall₂ (fun source l => l.Follows source) sources (lines.map (·.schedule now)) := by
  induction h with
  | nil => exact .nil
  | cons hl _ ih => exact .cons (Line.schedule_follows now hl) ih

theorem act_follows (h : Forall₂ (fun source l => l.Follows source) sources lines)
    (ha : act torn now lines = some (after, raised)) :
    Forall₂ (fun source l => l.Follows source) sources after := by
  induction h generalizing after with
  | nil => cases ha
  | @cons source l sources lines hl hrest ih =>
    unfold act at ha
    dsimp only at ha
    split at ha
    · rename_i e next hturn
      obtain ⟨⟨m, r⟩, hf, ha⟩ := Option.map_eq_some_iff.mp ha
      cases ha
      exact .cons (Line.step_follows hl hturn hf) hrest
    · rename_i next hturn
      cases ha
      exact .cons (Line.again_follows hl hturn) hrest
    · obtain ⟨⟨rest, r⟩, hr, ha⟩ := Option.map_eq_some_iff.mp ha
      cases ha
      exact .cons (Line.schedule_follows now hl) (ih hr)

theorem step_follows (h : Forall₂ (fun source l => l.Follows source) sources s.lines)
    (hs : s.step = some t) : Forall₂ (fun source l => l.Follows source) sources t.lines := by
  unfold step at hs
  split at hs
  · cases hs
    exact h
  · split at hs
    · rename_i lines raised ha
      cases hs
      exact act_follows h ha
    · dsimp only at hs
      split at hs
      · cases hs
      · split at hs
        · simp only [Option.ite_none_right_eq_some] at hs
          cases hs.2
          exact schedule_all s.now h
        · cases hs

theorem run_follows (fuel : Nat) (h : Forall₂ (fun source l => l.Follows source) sources s.lines) :
    Forall₂ (fun source l => l.Follows source) sources (run fuel s).lines := by
  induction fuel generalizing s with
  | zero => exact h
  | succ fuel ih =>
    unfold run
    split
    · rename_i t ht
      exact ih (step_follows h ht)
    · exact h

/-- Lines that begin a simulation are on courses on their own sources when it has finished. -/
theorem finish_follows (ends : List (Setup × List Piece × Destination))
    (hs : s.lines = ends.map fun (x, source, d) => .begin x source d) :
    Forall₂ (fun source l => l.Follows source) (ends.map (·.2.1)) s.finish.lines := by
  refine run_follows _ ?_
  rw [hs, List.forall₂_map_left_iff, List.forall₂_map_right_iff]
  exact List.forall₂_same.mpr fun (x, source, d) _ => Line.begin_follows x source d

end
end Simulation
end Wiretap.Pump
