import Wiretap.Proofs.Handler.Closing
import Wiretap.Proofs.Relay.Polls

/-! A handler that relays takes each event of a pump in one step. That is one
way to poll its two tasks: a look, the answer, and at the end of a pump the
raising of the flag at once. So what holds however the tasks are polled holds
of every handler. -/

set_option autoImplicit false

namespace Wiretap.Relay
open Pump (Setup Action Event)

structure Polled (r t : Relay) (d : Direction) (q : Pump) (acts : List Action) : Prop where
  pump : (t.side d).pump = q
  clear : (t.side d).owed = []
  others : ∀ other, other ≠ d → t.side other = r.side other
  torn : t.torn = (r.torn || Handler.raises acts)

section
variable {setup : Direction → Setup} {r : Relay} {d : Direction} {now : Nat} {e : Event}
  {q : Pump} {front back : List Action}

/-- A look and the answer to it. -/
theorem answer_polled {acts : List Action} (clear : (r.side d).owed = [])
    (hq : (r.side d).pump.step (setup d) r.torn now e = some (q, acts))
    (hf : acts.takeWhile (!·.isRaise) = front) (hb : acts.dropWhile (!·.isRaise) = back) :
    ∃ seen, runAll (step setup) [(d, .look), (d, .meet now e)] r =
      some (⟨Function.update r.side d ⟨q, seen, back⟩, r.torn || Handler.raises front⟩,
        front.map (d, ·)) := by
  have hlook : runAll (step setup) [(d, .look)] r = some (r.looked d, []) := by
    simp [runAll, look_step clear]
  have hmeet : step setup (r.looked d) (d, .meet now e) =
      some (⟨Function.update r.side d
        ⟨q, if (r.side d).pump.phase.passing && q.phase.passing then some r.torn else none, back⟩,
        r.torn || Handler.raises front⟩, front.map (d, ·)) := by
    simp [step, Side.step, looked, hq, hf, hb]
  exact ⟨_, run_concat hlook hmeet⟩

/-- A step of a pump as what its task does. -/
theorem step_polled (setup : Direction → Setup) {acts : List Action} (clear : (r.side d).owed = [])
    (hq : (r.side d).pump.step (setup d) r.torn now e = some (q, acts)) :
    ∃ polls t, runAll (step setup) polls r = some (t, acts.map (d, ·)) ∧ Polled r t d q acts := by
  have m := Pump.move_of_step hq
  rcases Pump.move_ending m with ⟨-, calm⟩ | ⟨outcome, said, why, -, hsaid⟩
  · obtain ⟨hf, hb⟩ := split_calm calm
    obtain ⟨seen, hrun⟩ := answer_polled clear hq hf hb
    refine ⟨_, _, hrun, ?_⟩
    constructor
    · simp
    · simp
    · exact fun other ho => Function.update_of_ne ho _ _
    · rfl
  · obtain ⟨hf, hb⟩ := split_last (Pump.stops_calm why)
    subst hsaid
    obtain ⟨seen, hrun⟩ := answer_polled clear hq hf hb
    have hraise : ∀ (x : Relay), (x.side d).owed = Pump.lastActions →
        step setup x (d, .raise) =
          some (⟨Function.update x.side d { x.side d with owed := [] }, true⟩,
            Pump.lastActions.map (d, ·)) := by
      intro x hx
      simp [step, Side.step, hx, Pump.lastActions, Handler.raises]
    have hall := run_concat hrun (hraise _ (by simp))
    rw [← List.map_append] at hall
    refine ⟨_, _, hall, ?_⟩
    constructor
    · simp
    · simp
    · intro other ho
      simp [ho]
    · simp [Pump.lastActions, Handler.raises]

end

def Stands (r : Relay) : Handler.Phase → Prop
  | .relaying toTarget toClient torn => (r.side .toTarget).pump = toTarget ∧
      (r.side .toClient).pump = toClient ∧ r.torn = torn ∧ ∀ d, (r.side d).owed = []
  | .gone => ∀ d, (r.side d).pump.outcome?.isSome
  | _ => False

def shared (told : List Handler.Action) : List (Direction × Action) :=
  told.filterMap fun
    | .relayed d a => some (d, a)
    | _ => none

section
variable {s : Handler.Setup} {r t : Relay} {d : Direction} {p q : Pump} {acts : List Action}

theorem shared_pumped {last : List Handler.Action} (hl : shared last = []) :
    shared (Handler.pumped s d q acts last) = acts.map (d, ·) := by
  have hacts : shared (acts.map (.relayed d)) = acts.map (d, ·) := by
    simp [shared]
  have hline : ∀ o : Option Outcome, shared (o.toList.map (Handler.outcomeLine s)) = [] := by
    intro o
    cases o with
    | none => rfl
    | some outcome => cases outcome <;> rfl
  show shared (acts.map (.relayed d) ++ q.outcome?.toList.map (Handler.outcomeLine s) ++ last) = _
  rw [shared, List.filterMap_append, List.filterMap_append]
  show shared _ ++ shared _ ++ shared last = _
  rw [hacts, hline, hl, List.append_nil, List.append_nil]

theorem shared_leave (s : Handler.Setup) : shared (Handler.leave s true) = [] := by
  have hdrop : shared ((Handler.Notice.arm s).drop s) = [] := by
    simp only [Handler.Notice.drop, Handler.Notice.notify]
    split
    · cases s.complaint <;> rfl
    · rfl
  rw [Handler.leave, Handler.fire_eq_drop, shared, List.filterMap_append]
  exact hdrop

/-- Where the handler goes once a pump has moved, the tasks stand. -/
theorem settle_stands {a b : Pump} {torn : Bool} (ha : (t.side .toTarget).pump = a)
    (hb : (t.side .toClient).pump = b) (ht : t.torn = torn) (clear : ∀ d, (t.side d).owed = []) :
    Stands t (Handler.settle s a b torn).1 ∧ shared (Handler.settle s a b torn).2 = [] := by
  rcases Handler.settle_cases s a b torn with ⟨hs, hea, heb⟩ | ⟨hs, -⟩
  · rw [hs]
    refine ⟨?_, shared_leave s⟩
    intro d
    cases d with
    | toTarget => rwa [ha]
    | toClient => rwa [hb]
  · rw [hs]
    exact ⟨⟨ha, hb, ht, clear⟩, rfl⟩

theorem polled_clear (h : Polled r t d q acts) (clear : ∀ d, (r.side d).owed = [])
    (other : Direction) : (t.side other).owed = [] := by
  by_cases ho : other = d
  · rw [ho, h.clear]
  · rw [h.others other ho, clear]

/-- What the tasks have done is what the handler tells of its pumps, also after one more step. -/
theorem pumped_polled {polls others : List (Direction × Poll Event)}
    {told : List Handler.Action} {a b : Pump} {torn : Bool}
    (hr : runAll (step (Handler.pumpSetup s)) polls (start (Handler.pumpSetup s)) =
      some (r, shared told))
    (ht : runAll (step (Handler.pumpSetup s)) others r = some (t, acts.map (d, ·)))
    (hs : Stands t (Handler.settle s a b torn).1 ∧ shared (Handler.settle s a b torn).2 = []) :
    ∃ polls t, runAll (step (Handler.pumpSetup s)) polls (start (Handler.pumpSetup s)) =
      some (t, shared (told ++ Handler.pumped s d q acts (Handler.settle s a b torn).2)) ∧
      Stands t (Handler.settle s a b torn).1 := by
  refine ⟨polls ++ others, t, ?_, hs.1⟩
  have hsplit : ∀ xs ys, shared (xs ++ ys) = shared xs ++ shared ys :=
    fun xs ys => List.filterMap_append
  rw [hsplit, shared_pumped hs.2]
  exact run_append hr ht

/-- Whatever a relaying handler does, its tasks can be polled so that the pumps do the same. -/
theorem handler_polled {events : List (Nat × Handler.Event)} {phase : Handler.Phase}
    {told : List Handler.Action}
    (h : runAll (Handler.stepAt s) events (Handler.relay s).1 = some (phase, told)) :
    ∃ polls t, runAll (step (Handler.pumpSetup s)) polls (start (Handler.pumpSetup s)) =
      some (t, shared told) ∧ Stands t phase := by
  refine run_invariant (P := fun _ phase told => ∃ polls t,
    runAll (step (Handler.pumpSetup s)) polls (start (Handler.pumpSetup s)) =
      some (t, shared told) ∧ Stands t phase) ?_ ?_ h
  · rintro - phase told ⟨now, e⟩ next more ⟨polls, r, hrun, hstands⟩ hstep
    cases Handler.move_of_step hstep with
    | toTarget hq =>
      obtain ⟨rfl, rfl, rfl, clear⟩ := hstands
      obtain ⟨others, t, hrun', hp⟩ := step_polled (Handler.pumpSetup s) (clear _) hq
      exact pumped_polled hrun hrun' (settle_stands hp.pump (by rw [hp.others _ (by simp)]) hp.torn
        (polled_clear hp clear))
    | toClient hq =>
      obtain ⟨rfl, rfl, rfl, clear⟩ := hstands
      obtain ⟨others, t, hrun', hp⟩ := step_polled (Handler.pumpSetup s) (clear _) hq
      exact pumped_polled hrun hrun' (settle_stands (by rw [hp.others _ (by simp)]) hp.pump hp.torn
        (polled_clear hp clear))
    | begun => cases hstands
    | dropped => cases hstands
    | greeted => cases hstands
    | reached => cases hstands
    | refused why => cases why <;> cases hstands
  · exact ⟨[], _, rfl, rfl, rfl, rfl, fun _ => rfl⟩

end

end Wiretap.Relay
