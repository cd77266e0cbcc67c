import Wiretap.Proofs.Engine.Moves

/-! Every handler of an engine lives the life of a handler, and is gone exactly
when its task is over: run to its end, rejected, or cancelled before it began. -/

set_option autoImplicit false

namespace Wiretap.Engine

def stepAt (e : Engine) (input : Nat × Step) : Option (Engine × List Action) :=
  e.step input.1 input.2

def Action.of? (i : Nat) : Action → Option Handler.Action
  | .handler j a => if j = i then some a else none
  | _ => none

def tasked (i : Nat) (acts : List Action) : List Handler.Action := acts.filterMap (Action.of? i)

def Mark.of? (i : Nat) : Mark → Option Handler.Action
  | .handler j a => if j = i then some a else none
  | .asked _ => none

/-- What holds along the run of an engine. -/
structure Served (setup : Setup) (e : Engine) (acts : List Action) : Prop where
  paired : Paired e
  setup_eq : e.setup = setup
  ran : ∀ i c phase, e.clients[i]? = some c → e.handlers[i]? = some phase →
    ∃ events, runAll (Handler.stepAt (e.handlerSetup c)) events .waiting =
      some (phase, tasked i acts)
  unmade : ∀ i, e.handlers.length ≤ i → tasked i acts = []

section
variable {setup : Setup} {e f : Engine} {step : Step} {acts more : List Action} {i : Nat}

theorem tasked_marks (i : Nat) (acts : List Action) :
    tasked i acts = (marks acts).filterMap (Mark.of? i) := by
  rw [tasked, marks, List.filterMap_filterMap]
  congr 1
  funext a
  cases a with
  | server b => cases b <;> rfl
  | _ => rfl

@[simp] theorem tasked_append (i : Nat) (xs ys : List Action) :
    tasked i (xs ++ ys) = tasked i xs ++ tasked i ys := List.filterMap_append

theorem of_self (i : Nat) (done : List Handler.Action) :
    (done.map (Mark.handler i)).filterMap (Mark.of? i) = done := by
  induction done with
  | nil => rfl
  | cons a done ih => simp [Mark.of?, ih]

theorem of_other {i j : Nat} (hij : j ≠ i) (done : List Handler.Action) :
    (done.map (Mark.handler j)).filterMap (Mark.of? i) = [] := by
  induction done with
  | nil => rfl
  | cons a done ih => simp [Mark.of?, ih, hij]

theorem served_alike (same : Alike e f) (hp : Paired f) (hm : ∀ j, tasked j more = [])
    (h : Served setup e acts) : Served setup f (acts ++ more) := by
  refine ⟨hp, same.setup.trans h.setup_eq, fun j c phase hc hphase => ?_, fun j hj => ?_⟩
  · rw [same.clients] at hc
    rw [same.handlers] at hphase
    rw [tasked_append, hm j, List.append_nil, handlerSetup, same.setup]
    exact h.ran j c phase hc hphase
  · rw [tasked_append, hm j, List.append_nil]
    exact h.unmade j (same.handlers ▸ hj)

/-- A handler that goes on adds its step to its run, and the others have done nothing. -/
theorem served_task {c : Client} {now : Nat} {phase next : Handler.Phase}
    {event : Handler.Event} {done : List Handler.Action} (hc : e.clients[i]? = some c)
    (hphase : e.handlers[i]? = some phase)
    (hs : Handler.step (e.handlerSetup c) now phase event = some (next, done))
    (hsetup : f.setup = e.setup) (hclients : f.clients = e.clients)
    (hhandlers : f.handlers = e.handlers.set i next) (hp : Paired f)
    (hm : ∀ j, tasked j more = (done.map (Mark.handler i)).filterMap (Mark.of? j))
    (h : Served setup e acts) : Served setup f (acts ++ more) := by
  obtain ⟨hi, -⟩ := List.getElem?_eq_some_iff.mp hphase
  refine ⟨hp, hsetup.trans h.setup_eq, fun j c' phase' hc' hphase' => ?_, fun j hj => ?_⟩
  · rw [hclients] at hc'
    rw [hhandlers] at hphase'
    rw [tasked_append, hm j, handlerSetup, hsetup]
    by_cases hij : i = j
    · subst hij
      rw [hc] at hc'
      cases hc'
      rw [List.getElem?_set_self hi] at hphase'
      cases hphase'
      obtain ⟨events, hrun⟩ := h.ran i c phase hc hphase
      rw [of_self]
      exact ⟨events ++ [(now, event)], run_concat hrun hs⟩
    · rw [List.getElem?_set_ne hij] at hphase'
      rw [of_other hij, List.append_nil]
      exact h.ran j c' phase' hc' hphase'
  · rw [hhandlers, List.length_set] at hj
    have hij : i ≠ j := by omega
    rw [tasked_append, hm j, of_other hij, h.unmade j hj]
    rfl

/-- A new handler has the number after those of all others. -/
theorem served_made {c : Client} {said : List Mark} (joins : Joins e f c said) (hp : Paired f)
    (hm : ∀ j, tasked j more = said.filterMap (Mark.of? j)) (h : Served setup e acts) :
    Served setup f (acts ++ more) := by
  obtain ⟨events, phase, done, hrun, hsetup, hclients, hhandlers, rfl⟩ := joins
  have hlength := h.paired.clients
  refine ⟨hp, hsetup.trans h.setup_eq, fun j c' phase' hc' hphase' => ?_, fun j hj => ?_⟩
  · rw [hclients] at hc'
    rw [hhandlers] at hphase'
    rw [tasked_append, hm j, handlerSetup, hsetup]
    by_cases hj : j < e.handlers.length
    · rw [List.getElem?_append_left (by omega)] at hc' hphase'
      rw [of_other (by omega), List.append_nil]
      exact h.ran j c' phase' hc' hphase'
    · obtain ⟨hlt, -⟩ := List.getElem?_eq_some_iff.mp hphase'
      have hlast : j = e.handlers.length := by simp at hlt; omega
      subst hlast
      rw [← hlength, List.getElem?_concat_length] at hc'
      rw [List.getElem?_concat_length] at hphase'
      cases hc'
      cases hphase'
      rw [h.unmade _ (Nat.le_refl _), of_self]
      exact ⟨events, hrun⟩
  · rw [hhandlers, List.length_append] at hj
    have hne : e.handlers.length ≠ j := by simp at hj; omega
    rw [tasked_append, hm j, of_other hne, h.unmade j (by simp at hj; omega)]
    rfl

theorem served_move {said : List Mark} (m : Move e step f said) (hp : Paired f)
    (hm : ∀ j, tasked j more = said.filterMap (Mark.of? j)) (h : Served setup e acts) :
    Served setup f (acts ++ more) := by
  cases m with
  | idle same => exact served_alike same hp hm h
  | asked _ same => exact served_alike same hp hm h
  | task hc hphase hs hsetup hclients hhandlers =>
    exact served_task hc hphase hs hsetup hclients hhandlers hp hm h
  | made _ before joins =>
    refine served_made joins hp (fun j => ?_) h
    rw [hm j]
    rcases before with rfl | rfl <;> rfl

theorem served_step {now : Nat} (h : Served setup e acts) (hs : e.step now step = some (f, more)) :
    Served setup f (acts ++ more) := by
  obtain ⟨m, hp⟩ := step_lawful h.paired hs
  exact served_move m hp (fun j => tasked_marks j more) h

theorem make_served {pool : Pool} {limit : Nat} (h : Pool.make limit = .ok pool) :
    Served setup (make setup pool) [] :=
  ⟨make_paired h, rfl, fun i c phase hc => (by cases hc), fun _ _ => rfl⟩

end

theorem run_served {setup : Setup} {pool : Pool} {limit : Nat} (hpool : Pool.make limit = .ok pool)
    {steps : List (Nat × Step)} {e : Engine} {acts : List Action}
    (h : runAll stepAt steps (make setup pool) = some (e, acts)) : Served setup e acts :=
  run_invariant (P := fun _ e acts => Served setup e acts)
    (fun _ _ _ _ _ _ hserved hs => served_step hserved hs) (make_served hpool) h

def tightSetup : Setup :=
  ⟨⟨"127.0.0.1", 8080, "example.org", 80⟩, .plain, ⟨16, 50, 64⟩, some .quiet, some "no"⟩

def guest (n : Nat) : Client := ⟨.ofNat n, default, default⟩

end Wiretap.Engine
