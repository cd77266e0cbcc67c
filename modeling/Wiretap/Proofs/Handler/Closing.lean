import Wiretap.Proofs.Handler.Moves
import Wiretap.Proofs.Run

/-! The life of a handler from its making on. Whatever happens to it, the sink
is told of the close once, last, and after the streams were released. -/

set_option autoImplicit false

namespace Wiretap.Handler

def stepAt (s : Setup) (phase : Phase) (input : Nat × Event) : Option (Phase × List Action) :=
  step s input.1 phase input.2

def Action.isClosed : Action → Bool
  | .closed => true
  | _ => false

def Action.captured? : Action → Option Bytes
  | .relayed _ (.captured bytes) => some bytes
  | _ => none

def Action.relayed? : Action → Option Pump.Action
  | .relayed _ a => some a
  | _ => none

def captures (acts : List Action) : List Bytes := acts.filterMap Action.captured?

def relays (acts : List Action) : List Pump.Action := acts.filterMap Action.relayed?

def reports (acts : List Action) : List (Failure × Category) := acts.filterMap Action.report?

def Event.refusal? : Event → Option (NetworkFailure × Category)
  | .clientFailed e => some (e, .connectionHandling)
  | .targetFailed e => some (e, e.targetCategory)
  | _ => none

def Event.isFatal : Event → Bool
  | .clientFailed _ => true
  | .targetFailed _ => true
  | .dropped => true
  | _ => false

def Event.isTarget : Event → Bool
  | .targetReady => true
  | _ => false

def reached (events : List (Nat × Event)) : Bool := events.any (·.2.isTarget)

def Untroubled (events : List (Nat × Event)) : Prop := ∀ x ∈ events, x.2.isFatal = false

structure Departed (events : List (Nat × Event)) (acts : List Action) : Prop where
  leaves : Leaves (released (reached events)) acts
  refused : ∀ x ∈ events, ∀ error category, x.2.refusal? = some (error, category) →
    relays acts = [] ∧ reports acts = [(.network error, category)]

structure Early (events : List (Nat × Event)) (acts : List Action) : Prop where
  acts_eq : acts = []
  untroubled : Untroubled events
  unreached : reached events = false

def Kept (events : List (Nat × Event)) (acts : List Action) : Phase → Prop
  | .relaying a b _ => .closed ∉ acts ∧ Untroubled events ∧ reached events = true ∧
      ¬(a.outcome?.isSome ∧ b.outcome?.isSome)
  | .gone => Departed events acts
  | _ => Early events acts

section
variable {s : Setup} {now : Nat} {phase next : Phase} {e : Event} {acts more : List Action}
  {events : List (Nat × Event)} {sink : Sink}

@[simp] theorem reached_concat (now : Nat) (e : Event) :
    reached (events ++ [(now, e)]) = (reached events || e.isTarget) := by
  simp [reached]

theorem untroubled_concat (h : Untroubled events) (he : e.isFatal = false) :
    Untroubled (events ++ [(now, e)]) := by
  intro x hx
  rcases List.mem_append.mp hx with hx | hx
  · exact h x hx
  · rw [List.mem_singleton.mp hx]
    exact he

theorem refusal_fatal {refusal : NetworkFailure × Category} (h : e.refusal? = some refusal) :
    e.isFatal = true := by
  cases e with
  | clientFailed => rfl
  | targetFailed => rfl
  | _ => cases h

theorem drop_plain (s : Setup) (n : Notice) :
    ∀ a ∈ n.drop s, a.relayed? = none ∧ a.report? = none := by
  intro a ha
  simp only [Notice.drop, Notice.notify] at ha
  split at ha
  · rcases List.mem_append.mp ha with ha | ha
    · simp only [List.mem_cons, List.not_mem_nil, or_false] at ha
      rcases ha with rfl | rfl <;> exact ⟨rfl, rfl⟩
    · obtain ⟨c, -, rfl⟩ := List.mem_map.mp ha
      exact ⟨rfl, rfl⟩
  · cases ha

theorem leave_plain (s : Setup) (target : Bool) :
    ∀ a ∈ leave s target, a.relayed? = none ∧ a.report? = none := by
  intro a ha
  rcases List.mem_append.mp ha with ha | ha
  · simp only [List.mem_append, List.mem_ite_nil_right, List.mem_cons, List.not_mem_nil,
      or_false] at ha
    rcases ha with (rfl | ⟨-, rfl⟩) | rfl <;> exact ⟨rfl, rfl⟩
  · rw [fire_eq_drop] at ha
    exact drop_plain s _ a ha

/-- A handler that was refused relays nothing and reports the failure alone. -/
theorem refused_said (s : Setup) (error : NetworkFailure) (category : Category) :
    relays (.reported (.network error) category :: leave s false) = [] ∧
      reports (.reported (.network error) category :: leave s false) =
        [(.network error, category)] := by
  constructor
  · exact List.filterMap_eq_nil_iff.mpr fun a ha => by
      rcases List.mem_cons.mp ha with rfl | ha
      · rfl
      · exact (leave_plain s false a ha).1
  · have hnone : reports (leave s false) = [] :=
      List.filterMap_eq_nil_iff.mpr fun a ha => (leave_plain s false a ha).2
    show (.network error, category) :: reports (leave s false) = _
    rw [hnone]

theorem untroubled_refused (h : Untroubled events) {error : NetworkFailure} {category : Category} :
    ∀ x ∈ events, ¬x.2.refusal? = some (error, category) := by
  intro x hx hr
  have hfatal := refusal_fatal hr
  rw [h x hx] at hfatal
  cases hfatal

theorem early_concat (h : Early events acts) (hf : e.isFatal = false) (ht : e.isTarget = false) :
    Early (events ++ [(now, e)]) (acts ++ []) := by
  refine ⟨by rw [h.acts_eq]; rfl, untroubled_concat h.untroubled hf, ?_⟩
  rw [reached_concat, h.unreached, ht, Bool.or_false]

/-- A handler that ends before any relaying. -/
theorem early_departed (h : Early events acts) (ht : e.isTarget = false)
    (hl : Leaves (released false) more)
    (hr : ∀ error category, e.refusal? = some (error, category) →
      relays more = [] ∧ reports more = [(.network error, category)]) :
    Departed (events ++ [(now, e)]) (acts ++ more) := by
  have hend : reached (events ++ [(now, e)]) = false := by
    rw [reached_concat, h.unreached, ht, Bool.or_false]
  rw [h.acts_eq, List.nil_append]
  refine ⟨hend ▸ hl, fun x hx error category href => ?_⟩
  rcases List.mem_append.mp hx with hx | hx
  · exact absurd href (untroubled_refused h.untroubled x hx)
  · rw [List.mem_singleton.mp hx] at href
    exact hr error category href

theorem kept_pumped (hk : s.sink = some sink) (hc : .closed ∉ acts) (hu : Untroubled events)
    (hr : reached events = true) (d : Direction) (pe : Pump.Event) (p : Pump)
    (done : List Pump.Action) (a b : Pump) (torn : Bool) :
    Kept (events ++ [(now, .pump d pe)]) (acts ++ pumped s d p done (settle s a b torn).2)
      (settle s a b torn).1 := by
  have hevents : Untroubled (events ++ [(now, .pump d pe)]) := untroubled_concat hu rfl
  have htarget : reached (events ++ [(now, .pump d pe)]) = true := by
    rw [reached_concat, hr, Bool.true_or]
  rcases pumped_tells hk d p done a b torn with ⟨hgone, hopen⟩ | ⟨hgone, hleaves⟩ <;>
    rcases settle_cases s a b torn with ⟨hs, hends⟩ | ⟨hs, hgoes⟩ <;> rw [hs] at hgone
  · exact absurd rfl hgone
  · rw [hs] at hopen ⊢
    exact ⟨by simp [hc, hopen], hevents, htarget, hgoes⟩
  · rw [hs] at hleaves ⊢
    constructor
    · rw [htarget]
      exact leaves_append hc hleaves
    · intro x hx error category href
      exact absurd href (untroubled_refused hevents x hx)
  · cases hgone

theorem refused_event {error : NetworkFailure} {category : Category}
    (h : Refused phase e error category) :
    e.refusal? = some (error, category) ∧ e.isTarget = false := by
  cases h <;> exact ⟨rfl, rfl⟩

/-- A move keeps what the phases know. -/
theorem kept_move (hk : s.sink = some sink) (m : Move s now phase e next more)
    (h : Kept events acts phase) : Kept (events ++ [(now, e)]) (acts ++ more) next := by
  cases m with
  | begun => exact early_concat h rfl rfl
  | greeted => exact early_concat h rfl rfl
  | dropped =>
    refine early_departed h rfl (drop_leaves hk (released_open false)) ?_
    exact fun _ _ href => by cases href
  | @refused _ _ error category why =>
    have hearly : Early events acts := by cases why <;> exact h
    have hopen : .closed ∉ [Action.reported (.network error) category] := by simp
    obtain ⟨hrefusal, htarget⟩ := refused_event why
    refine early_departed hearly htarget (leaves_append hopen (leave_leaves hk false)) ?_
    intro error' category' href
    cases hrefusal.symm.trans href
    exact refused_said s error category
  | reached =>
    obtain ⟨rfl, hu, hr⟩ := h
    refine ⟨relay_open s, untroubled_concat hu rfl, ?_, by simp [Pump.outcome?]⟩
    rw [reached_concat]
    exact Bool.or_true _
  | toTarget =>
    obtain ⟨hc, hu, hr, -⟩ := h
    exact kept_pumped hk hc hu hr _ _ _ _ _ _ _
  | toClient =>
    obtain ⟨hc, hu, hr, -⟩ := h
    exact kept_pumped hk hc hu hr _ _ _ _ _ _ _

end

theorem kept_tells {events : List (Nat × Event)} {phase : Phase} {acts : List Action}
    (h : Kept events acts phase) : Tells phase (released (reached events)) acts := by
  cases phase with
  | gone => exact .inr ⟨rfl, h.leaves⟩
  | relaying a b torn => exact .inl ⟨by simp, h.1⟩
  | _ => exact .inl ⟨by simp, by simp [h.acts_eq]⟩

theorem run_kept {s : Setup} {sink : Sink} (hk : s.sink = some sink)
    {events : List (Nat × Event)} {phase : Phase} {acts : List Action}
    (h : runAll (stepAt s) events .waiting = some (phase, acts)) : Kept events acts phase := by
  have hstart : Kept [] [] .waiting := ⟨rfl, fun x hx => (by cases hx), rfl⟩
  exact run_invariant (P := fun events phase acts => Kept events acts phase)
    (fun _ _ _ _ _ _ hp hi => kept_move hk (move_of_step hi) hp) hstart h

end Wiretap.Handler
