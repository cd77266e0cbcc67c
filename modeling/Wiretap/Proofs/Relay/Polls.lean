import Mathlib.Data.List.TakeWhile
import Mathlib.Logic.Function.Basic
import Wiretap.Handler
import Wiretap.Proofs.Pump.Endings
import Wiretap.Proofs.Pump.Fidelity
import Wiretap.Proofs.Run

/-! The two pumps of a connection as tasks that are polled in any order. A poll
looks at the teardown flag and then meets what the awaited call gives; a call
that is refused has the flag read once more. A pump that stops relaying raises
the flag in a step of its own, so the other one can be polled before that. -/

set_option autoImplicit false

namespace Wiretap

namespace Pump

def Event.refused : Event → Bool
  | .took 0 => true
  | .writeError _ => true
  | .flushError _ => true
  | _ => false

theorem refuses_refused {phase : Phase} {e : Event} {error : IoFailure}
    (h : Refuses phase e error) : e.refused = true := by
  cases h <;> rfl

def Phase.passing : Phase → Bool
  | .writing _ _ => true
  | .flushing _ => true
  | _ => false

end Pump

inductive Poll (ε : Type) where
  | look
  | meet (now : Nat) (answer : ε)
  | raise

namespace Relay
open Pump (Setup Action Event Move Ends)

structure Side where
  pump : Pump
  -- the flag as the poll under way has found it
  seen : Option Bool
  -- what a pump that has stopped relaying is about to do, the raising of the flag first
  owed : List Action

def Side.step (s : Setup) (torn : Bool) (x : Side) : Poll Event → Option (Side × List Action)
  | .look => if x.owed.isEmpty then some ({ x with seen := some torn }, []) else none
  | .meet now e => do
    let found ← x.seen
    let (p, acts) ← x.pump.step s (if e.refused then torn else found) now e
    some (⟨p, if x.pump.phase.passing && p.phase.passing then some found else none,
      acts.dropWhile (!·.isRaise)⟩, acts.takeWhile (!·.isRaise))
  | .raise => if x.owed.isEmpty then none else some ({ x with owed := [] }, x.owed)

end Relay

/-- Both tasks and the flag they share. -/
structure Relay where
  side : Direction → Relay.Side
  torn : Bool

namespace Relay
open Pump (Setup Action Event Move Ends)

def start (setup : Direction → Setup) : Relay :=
  ⟨fun d => ⟨(Pump.start (setup d)).1, none, []⟩, false⟩

def step (setup : Direction → Setup) (r : Relay) (i : Direction × Poll Event) :
    Option (Relay × List (Direction × Action)) :=
  ((r.side i.1).step (setup i.1) r.torn i.2).map fun (x, acts) =>
    (⟨Function.update r.side i.1 x, r.torn || Handler.raises acts⟩, acts.map (i.1, ·))

def looked (r : Relay) (d : Direction) : Relay :=
  ⟨Function.update r.side d { r.side d with seen := some r.torn }, r.torn⟩

theorem look_step {setup : Direction → Setup} {r : Relay} {d : Direction}
    (clear : (r.side d).owed = []) : step setup r (d, .look) = some (r.looked d, []) := by
  simp [step, Side.step, clear, Handler.raises, looked]

def done (d : Direction) (acts : List (Direction × Action)) : List Action :=
  acts.filterMap fun (who, a) => if who = d then some a else none

def first? (acts : List (Direction × Action)) : Option Direction :=
  (acts.find? (·.2.isRaise)).map (·.1)

section
variable {acts more : List (Direction × Action)} {said : List Action} {d other : Direction}

@[simp] theorem done_append : done d (acts ++ more) = done d acts ++ done d more :=
  List.filterMap_append

@[simp] theorem done_self : done d (said.map (d, ·)) = said := by
  rw [done, List.filterMap_map]
  have hall : (fun (who, a) => if who = d then some a else none) ∘ (d, ·) = @some Action :=
    funext fun a => if_pos rfl
  rw [hall, List.filterMap_some]

theorem done_other (h : other ≠ d) : done d (said.map (other, ·)) = [] := by
  refine List.filterMap_eq_nil_iff.mpr fun x hx => ?_
  obtain ⟨a, -, rfl⟩ := List.mem_map.mp hx
  exact if_neg h

theorem raises_calm (h : ∀ a ∈ said, a.isRaise = false) : Handler.raises said = false := by
  rw [Handler.raises, List.any_eq_false]
  intro a ha
  have := h a ha
  cases a with
  | raised => cases this
  | _ => simp

theorem first_append : first? (acts ++ said.map (d, ·)) =
    (first? acts).or (if Handler.raises said then some d else none) := by
  have hnew : first? (said.map (d, ·)) = if Handler.raises said then some d else none := by
    induction said with
    | nil => rfl
    | cons a said ih =>
      cases a with
      | raised => rfl
      | _ => exact ih
  rw [← hnew, first?, first?, first?, List.find?_append, Option.map_or]

end

def flag (torn found : Bool) (e : Event) : Bool := if e.refused then torn else found

inductive Side.Does (s : Setup) (torn : Bool) (x : Side) :
    Poll Event → Side → List Action → Prop where
  | looks (clear : x.owed = []) : Side.Does s torn x .look { x with seen := some torn } []
  | goes {now : Nat} {e : Event} {found : Bool} {q : Pump} {acts : List Action}
    (saw : x.seen = some found) (m : Move s (flag torn found e) now x.pump e q acts)
    (same : q.ending? = x.pump.ending?) (calm : ∀ a ∈ acts, a.isRaise = false) :
    Side.Does s torn x (.meet now e)
      ⟨q, if x.pump.phase.passing && q.phase.passing then some found else none, []⟩ acts
  | stops {now : Nat} {e : Event} {found : Bool} {outcome : Outcome} {said : List Action}
    (saw : x.seen = some found)
    (why : Ends s (flag torn found e) now x.pump.phase e outcome said) :
    Side.Does s torn x (.meet now e)
      ⟨(x.pump.finish s now outcome).1, none, Pump.lastActions⟩
      (said ++ Pump.parting s x.pump outcome)
  | raises (due : x.owed ≠ []) : Side.Does s torn x .raise { x with owed := [] } x.owed

section
variable {setup : Direction → Setup} {s : Setup} {torn : Bool} {x y : Side} {d : Direction}
  {poll : Poll Event} {said : List Action} {r t : Relay} {acts : List (Direction × Action)}

theorem split_calm {acts : List Action} (h : ∀ a ∈ acts, a.isRaise = false) :
    acts.takeWhile (!·.isRaise) = acts ∧ acts.dropWhile (!·.isRaise) = [] := by
  constructor
  · exact List.takeWhile_eq_self_iff.mpr fun a ha => by simp [h a ha]
  · exact List.dropWhile_eq_nil_iff.mpr fun a ha => by simp [h a ha]

theorem split_last {acts : List Action} (h : ∀ a ∈ acts, a.isRaise = false) :
    (acts ++ Pump.lastActions).takeWhile (!·.isRaise) = acts ∧
      (acts ++ Pump.lastActions).dropWhile (!·.isRaise) = Pump.lastActions := by
  have hp : ∀ a ∈ acts, (!a.isRaise) = true := fun a ha => by simp [h a ha]
  constructor
  · rw [List.takeWhile_append_of_pos hp]
    exact List.append_nil acts
  · rw [List.dropWhile_append_of_pos hp]
    rfl

theorem finish_passing (p : Pump) (now : Nat) (outcome : Outcome) :
    (p.finish s now outcome).1.phase.passing = false := rfl

theorem side_does (h : x.step s torn poll = some (y, said)) : x.Does s torn poll y said := by
  cases poll with
  | look =>
    obtain ⟨clear, h⟩ := Option.ite_none_right_eq_some.mp h
    cases h
    exact .looks (List.isEmpty_iff.mp clear)
  | meet now e =>
    obtain ⟨found, saw, h⟩ := Option.bind_eq_some_iff.mp h
    obtain ⟨⟨q, acts⟩, hq, h⟩ := Option.bind_eq_some_iff.mp h
    have m : Move s (flag torn found e) now x.pump e q acts := Pump.move_of_step hq
    cases h
    rcases Pump.move_ending m with ⟨same, calm⟩ | ⟨outcome, said, why, rfl, rfl⟩
    · obtain ⟨hfront, hback⟩ := split_calm calm
      rw [hfront, hback]
      exact .goes saw m same calm
    · obtain ⟨hfront, hback⟩ := split_last (Pump.stops_calm why)
      rw [hfront, hback, finish_passing, Bool.and_false, if_neg (by simp)]
      exact .stops saw why
  | raise =>
    obtain ⟨due, h⟩ := Option.ite_none_left_eq_some.mp h
    cases h
    exact .raises (by simpa using due)

theorem step_does (h : step setup r (d, poll) = some (t, acts)) :
    ∃ y said, (r.side d).Does (setup d) r.torn poll y said ∧
      t = ⟨Function.update r.side d y, r.torn || Handler.raises said⟩ ∧
      acts = said.map (d, ·) := by
  obtain ⟨⟨y, said⟩, hy, h⟩ := Option.map_eq_some_iff.mp h
  cases h
  exact ⟨y, said, side_does hy, rfl, rfl⟩

structure Side.Fit (torn : Bool) (x : Side) : Prop where
  owed : x.owed = [] ∨ x.owed = Pump.lastActions ∧
    ∃ outcome deadline, x.pump.phase = .closing outcome deadline
  seen : x.seen ≠ none → x.owed = []
  found : x.seen = some true → torn = true
  teardown : x.pump.ending? = some .tornDown → torn = true
  raised : x.pump.ending? ≠ none → x.owed = [] → torn = true

theorem fit_mono {raised : Bool} (h : x.Fit torn) : x.Fit (torn || raised) := by
  constructor
  · exact h.owed
  · exact h.seen
  · intro hx
    rw [h.found hx, Bool.true_or]
  · intro hx
    rw [h.teardown hx, Bool.true_or]
  · intro hx clear
    rw [h.raised hx clear, Bool.true_or]

/-- An answer is met under a raised flag only if the flag is raised by now. -/
theorem flag_torn {found : Bool} {e : Event} (h : x.Fit torn) (saw : x.seen = some found)
    (hf : flag torn found e = true) : torn = true := by
  unfold flag at hf
  split at hf
  · exact hf
  · exact h.found (hf ▸ saw)

theorem look_fit (h : x.Fit torn) (clear : x.owed = []) :
    { x with seen := some torn }.Fit torn := by
  constructor
  · exact h.owed
  · exact fun _ => clear
  · exact fun ht => Option.some.inj ht
  · exact h.teardown
  · exact h.raised

theorem goes_fit {q : Pump} {found : Bool} (h : x.Fit torn) (saw : x.seen = some found)
    (same : q.ending? = x.pump.ending?) (keeps : Bool) :
    Side.Fit torn ⟨q, if keeps then some found else none, []⟩ := by
  constructor
  · exact .inl rfl
  · exact fun _ => rfl
  · intro hs
    dsimp only at hs
    split at hs
    · exact h.found (hs ▸ saw)
    · cases hs
  · exact fun ho => h.teardown (same ▸ ho)
  · exact fun ho _ => h.raised (same ▸ ho) (h.seen (by simp [saw]))

theorem stops_fit {now : Nat} {e : Event} {found : Bool} {outcome : Outcome}
    {said : List Action} (h : x.Fit torn) (saw : x.seen = some found)
    (why : Ends s (flag torn found e) now x.pump.phase e outcome said) :
    Side.Fit torn ⟨(x.pump.finish s now outcome).1, none, Pump.lastActions⟩ := by
  constructor
  · exact .inr ⟨rfl, outcome, _, rfl⟩
  · exact fun hs => absurd rfl hs
  · exact fun hs => by cases hs
  · intro ho
    rw [Pump.finish_ending] at ho
    cases hf : flag torn found e with
    | true => exact flag_torn h saw hf
    | false =>
      rw [hf] at why
      exact absurd (Option.some.inj ho) (Pump.ends_untorn why)
  · exact fun _ clear => by cases clear

theorem does_fit (h : x.Fit torn) (hd : x.Does s torn poll y said) :
    y.Fit (torn || Handler.raises said) := by
  cases hd with
  | looks clear => exact fit_mono (look_fit h clear)
  | goes saw m same calm => exact fit_mono (goes_fit h saw same _)
  | stops saw why => exact fit_mono (stops_fit h saw why)
  | raises due =>
    rcases h.owed with clear | ⟨ho, -⟩
    · exact absurd clear due
    · have hup : (torn || Handler.raises x.owed) = true := by
        rw [ho]
        exact Bool.or_true torn
      rw [hup]
      constructor
      · exact .inl rfl
      · exact fun _ => rfl
      · exact fun _ => rfl
      · exact fun _ => rfl
      · exact fun _ _ => rfl

theorem does_ending {outcome : Outcome} (hd : x.Does s torn poll y said)
    (h : x.pump.ending? = some outcome) : y.pump.ending? = some outcome := by
  cases hd with
  | looks => exact h
  | goes saw m same calm => exact same.trans h
  | stops saw why =>
    have := Pump.relaying_iff.mp (Pump.ends_relaying why)
    rw [this] at h
    cases h
  | raises => exact h

/-- The flag is raised by a pump that has stopped relaying, and by nothing else that it does. -/
theorem does_raises (h : x.Fit torn) (hd : x.Does s torn poll y said)
    (hr : Handler.raises said = true) :
    said = Pump.lastActions ∧ ∃ outcome, x.pump.ending? = some outcome := by
  have hcalm : (∀ a ∈ said, a.isRaise = false) → False := by
    intro calm
    rw [raises_calm calm] at hr
    cases hr
  cases hd with
  | looks => exact (hcalm fun a ha => by cases ha).elim
  | goes saw m same calm => exact (hcalm calm).elim
  | stops saw why => exact (hcalm (Pump.stops_calm why)).elim
  | raises due =>
    rcases h.owed with hx | ⟨hx, outcome, deadline, hp⟩
    · exact absurd hx due
    · exact ⟨hx, outcome, by simp [Pump.ending?, hp]⟩

/-- What a task has done, with what it owes, grows by the moves of its pump alone. -/
theorem does_moves (h : x.Fit torn) (hd : x.Does s torn poll y said) :
    (y.pump = x.pump ∧ said ++ y.owed = x.owed ∧ ∀ now e, poll ≠ .meet now e) ∨
      ∃ now e v, poll = .meet now e ∧ x.owed = [] ∧
        Move s v now x.pump e y.pump (said ++ y.owed) := by
  cases hd with
  | looks => exact .inl ⟨rfl, rfl, by simp⟩
  | @goes now e found q acts saw m =>
    have clear := h.seen (by simp [saw])
    exact .inr ⟨now, e, _, rfl, clear, by simpa using m⟩
  | @stops now e found outcome said saw why =>
    have clear := h.seen (by simp [saw])
    have m := Move.ends why
    rw [Pump.finish_parting, ← List.append_assoc] at m
    exact .inr ⟨now, e, _, rfl, clear, m⟩
  | raises => exact .inl ⟨rfl, List.append_nil _, by simp⟩

end

structure Coupled (r : Relay) (acts : List (Direction × Action)) : Prop where
  fit : ∀ d, (r.side d).Fit r.torn
  torn : r.torn = (first? acts).isSome
  first : ∀ d, first? acts = some d →
    ∃ outcome, (r.side d).pump.ending? = some outcome ∧ outcome ≠ .tornDown

section
variable {setup : Direction → Setup} {r t : Relay} {i : Direction × Poll Event}
  {acts more : List (Direction × Action)}

theorem start_coupled (setup : Direction → Setup) : (start setup).Coupled [] := by
  constructor
  · intro d
    constructor
    · exact .inl rfl
    · exact fun _ => rfl
    · exact fun h => by cases h
    · exact fun h => by cases h
    · exact fun h => absurd rfl h
  · rfl
  · exact fun d h => by cases h

theorem step_coupled (h : r.Coupled acts) (hi : step setup r i = some (t, more)) :
    t.Coupled (acts ++ more) := by
  obtain ⟨d, poll⟩ := i
  obtain ⟨y, said, hd, rfl, rfl⟩ := step_does hi
  have hfirst := @first_append acts said d
  constructor
  · intro other
    by_cases ho : other = d
    · subst ho
      simpa using does_fit (h.fit other) hd
    · simpa [ho] using fit_mono (h.fit other)
  · rw [hfirst, Option.isSome_or, ← h.torn]
    cases Handler.raises said <;> rfl
  · intro who hwho
    have hend : ∀ outcome, (r.side who).pump.ending? = some outcome →
        (Function.update r.side d y who).pump.ending? = some outcome := by
      intro outcome ho
      by_cases hw : who = d
      · subst hw
        simpa using does_ending hd ho
      · simpa [hw] using ho
    rw [hfirst] at hwho
    cases hf : first? acts with
    | some earlier =>
      rw [hf, Option.some_or] at hwho
      obtain ⟨outcome, ho, hn⟩ := h.first who (hf.trans hwho)
      exact ⟨outcome, hend outcome ho, hn⟩
    | none =>
      rw [hf, Option.none_or] at hwho
      obtain ⟨hraised, hwho⟩ := Option.ite_none_right_eq_some.mp hwho
      cases hwho
      -- the flag was down, so nothing can have torn this pump down
      obtain ⟨-, outcome, ho⟩ := does_raises (h.fit d) hd hraised
      refine ⟨outcome, hend outcome ho, ?_⟩
      rintro rfl
      have hup := (h.fit d).teardown ho
      rw [h.torn, hf] at hup
      cases hup

theorem step_torn (hr : r.torn = true) (hi : step setup r i = some (t, more)) : t.torn = true := by
  obtain ⟨y, said, -, rfl, -⟩ := step_does hi
  show (r.torn || Handler.raises said) = true
  rw [hr, Bool.true_or]

theorem run_coupled {polls : List (Direction × Poll Event)}
    (h : runAll (step setup) polls (start setup) = some (r, acts)) : r.Coupled acts :=
  run_invariant (P := fun _ r acts => r.Coupled acts)
    (fun _ _ _ _ _ _ hr hi => step_coupled hr hi) (start_coupled setup) h

end

def ledger (r : Relay) (acts : List (Direction × Action)) (d : Direction) : List Action :=
  done d acts ++ (r.side d).owed

section
variable {setup : Direction → Setup} {r t : Relay} {d : Direction} {poll : Poll Event}
  {acts more : List (Direction × Action)}

/-- A step adds a move of one pump to its ledger, or leaves all ledgers as they are. -/
theorem step_ledger {who : Direction} (h : r.Coupled acts)
    (hi : step setup r (who, poll) = some (t, more)) (d : Direction) :
    ((t.side d).pump = (r.side d).pump ∧ t.ledger (acts ++ more) d = r.ledger acts d ∧
        (who = d → ∀ now e, poll ≠ .meet now e)) ∨
      ∃ now e v said, who = d ∧ poll = .meet now e ∧
        Move (setup d) v now (r.side d).pump e (t.side d).pump said ∧
        t.ledger (acts ++ more) d = r.ledger acts d ++ said := by
  obtain ⟨y, said, hd, rfl, rfl⟩ := step_does hi
  by_cases hw : who = d
  · subst hw
    have hledger : ledger ⟨Function.update r.side who y, r.torn || Handler.raises said⟩
        (acts ++ said.map (who, ·)) who = done who acts ++ (said ++ y.owed) := by
      simp [ledger]
    rcases does_moves (h.fit who) hd with ⟨hp, ho, hpoll⟩ | ⟨now, e, v, hpoll, clear, m⟩
    · rw [hledger, ho]
      exact .inl ⟨by simpa using hp, rfl, fun _ => hpoll⟩
    · rw [hledger]
      exact .inr ⟨now, e, v, said ++ y.owed, rfl, hpoll, by simpa using m, by simp [ledger, clear]⟩
  · have hne : d ≠ who := fun he => hw he.symm
    exact .inl ⟨by simp [hne], by simp [ledger, done_other hw, hne], fun he => absurd he hw⟩

/-- What the moves of a pump keep holds of its ledger along every run. -/
theorem run_ledger {I : Pump → List Action → Prop} {polls : List (Direction × Poll Event)}
    (hstep : ∀ v now p e q acts said, I p acts → Move (setup d) v now p e q said →
      I q (acts ++ said))
    (hstart : I (Pump.start (setup d)).1 [])
    (h : runAll (step setup) polls (start setup) = some (r, acts)) :
    I (r.side d).pump (r.ledger acts d) := by
  -- that a task owes nothing while its pump moves is part of the coupling, so both go together
  suffices hall : r.Coupled acts ∧ I (r.side d).pump (r.ledger acts d) from hall.2
  refine run_invariant (P := fun _ r acts => r.Coupled acts ∧ I (r.side d).pump (r.ledger acts d))
    ?_ ⟨start_coupled setup, hstart⟩ h
  rintro - r acts ⟨who, poll⟩ t more ⟨hr, hp⟩ hi
  refine ⟨step_coupled hr hi, ?_⟩
  rcases step_ledger hr hi d with ⟨hpump, hledger, -⟩ | ⟨now, e, v, said, -, -, m, hledger⟩
  · rwa [hpump, hledger]
  · rw [hledger]
    exact hstep v now _ e _ _ said hp m

theorem start_sound (s : Setup) : Pump.Sound (Pump.start s).1 [] := by
  constructor
  · exact ⟨rfl, rfl⟩
  · exact fun b hb => by cases hb
  · exact fun b hb => by cases hb
  · exact fun hb => absurd rfl hb
  · intro before bytes after he
    simp at he

/-- Whatever order the tasks are polled in, each pump forwards and captures what it reads. -/
theorem run_sound {polls : List (Direction × Poll Event)} {sink : Sink}
    (hk : (setup d).sink = some sink)
    (h : runAll (step setup) polls (start setup) = some (r, acts)) :
    Pump.Sound (r.side d).pump (r.ledger acts d) :=
  run_ledger (fun _ _ _ _ _ _ _ hp m => Pump.sound_move hk m hp)
    (start_sound (setup d)) h

end

def plainSetup (d : Direction) : Setup := ⟨.ofNat 1, d, .default, some .quiet, true⟩

end Relay
end Wiretap
