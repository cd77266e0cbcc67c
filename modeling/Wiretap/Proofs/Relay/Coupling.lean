import Wiretap.Proofs.Relay.Polls

/-! How the two pumps of a connection tear each other down. The first one to
raise the flag has stopped by itself. From then on a poll moves no more bytes:
it captures what the pump holds back and ends it, and a call that is refused
only then is no failure. -/

set_option autoImplicit false

namespace Wiretap.Relay
open Pump (Setup Action Event Move Ends Relaying Refuses)

/-- A pump is torn down at this time: what it holds back is captured as one packet, no bytes
are moved and nothing is reported. -/
structure TornDown (s : Setup) (now : Nat) (p q : Pump) (acts : List Action) : Prop where
  phase_eq : q.phase = .closing .tornDown (now + Pump.closeMillis)
  captures_eq : s.sink ≠ none → Pump.captures acts = if p.bytes = [] then [] else [p.bytes]
  still : ∀ a ∈ acts, a.isTransfer = false
  unreported : ∀ error, .reported error ∉ acts

structure TearsDown (setup : Direction → Setup) (r : Relay) (d : Direction) : Prop where
  ready : ∃ t, step setup r (d, .look) = some (t, [])
  answered : ∀ between t more now, runAll (step setup) ((d, .look) :: between) r = some (t, more) →
    (∀ i ∈ between, i.1 ≠ d) → ∃ u said, step setup t (d, .meet now .tornDown) = some (u, said)
  torn : ∀ between t more now e u said,
    runAll (step setup) ((d, .look) :: between) r = some (t, more) → (∀ i ∈ between, i.1 ≠ d) →
    step setup t (d, .meet now e) = some (u, said) →
    TornDown (setup d) now (r.side d).pump (u.side d).pump (done d said)

def Forgives (setup : Direction → Setup) (r : Relay) (d : Direction) : Prop :=
  ∀ now e error, (r.side d).seen ≠ none → Refuses (r.side d).pump.phase e error →
    ∃ t said, step setup r (d, .meet now e) = some (t, said) ∧
      TornDown (setup d) now (r.side d).pump (t.side d).pump (done d said)

section
variable {s : Setup} {p : Pump} {x y : Side} {poll : Poll Event} {now : Nat} {e : Event}
  {found : Bool} {said : List Action}

theorem packet_bytes (h : ∀ b ∈ p.burst, b ≠ []) :
    p.packet = if p.bytes = [] then [] else [p.bytes] := by
  by_cases hb : p.burst = []
  · have : p.bytes = [] := by simp [Pump.bytes, hb]
    rw [Pump.packet_empty hb, if_pos this]
  · have : p.bytes ≠ [] := Pump.packet_ne_nil h _ (by simp [Pump.packet_held hb])
    rw [Pump.packet_held hb, if_neg this]

/-- What a pump does that a raised flag stops. -/
theorem parting_torn (hb : s.sink ≠ none → ∀ b ∈ p.burst, b ≠ []) :
    TornDown s now p (p.finish s now .tornDown).1 (Pump.parting s p .tornDown) := by
  constructor
  · rfl
  · intro hk
    obtain ⟨sink, hsink⟩ := Option.ne_none_iff_exists'.mp hk
    have hline : Pump.captures [Pump.note s .debug
        s!"{s.direction.arrow} forwarder finished: {Outcome.tornDown.name}"] = [] := rfl
    rw [Pump.parting, Pump.captures_append, (Pump.emit_adds s p hsink).captures_eq, hline,
      List.append_nil, packet_bytes (hb hk)]
  · exact fun a ha => (Pump.still_calm (Pump.parting_still s p _ a ha)).2.1
  · exact fun error ha => (Pump.still_calm (Pump.parting_still s p _ _ ha)).2.2 error rfl

theorem does_torn (hp : Relaying x.pump.phase) (saw : x.seen = some found)
    (hf : flag true found e = true) (hd : x.Does s true (.meet now e) y said) :
    y.pump = (x.pump.finish s now .tornDown).1 ∧ said = Pump.parting s x.pump .tornDown := by
  have hfound : ∀ other, x.seen = some other → flag true other e = true := by
    intro other ho
    rw [saw] at ho
    cases ho
    exact hf
  cases hd with
  | goes saw' m same =>
    rw [hfound _ saw'] at m
    have hq : _ = none := same.trans (Pump.relaying_iff.mp hp)
    obtain ⟨rfl, -⟩ := Pump.move_torn m hp
    cases hq
  | stops saw' why =>
    rw [hfound _ saw'] at why
    obtain ⟨rfl, rfl⟩ := Pump.ends_torn why
    exact ⟨rfl, rfl⟩

/-- Under a raised flag a poll moves no bytes, unless it found the flag down before. -/
theorem does_still (h : x.Fit true) (hs : x.seen ≠ some false) (hd : x.Does s true poll y said) :
    y.seen ≠ some false ∧ ∀ a ∈ said, a.isTransfer = false := by
  have hflag : ∀ found e, x.seen = some found → found = true ∧ flag true found e = true := by
    intro found e saw
    cases found with
    | false => exact absurd saw hs
    | true => simp [flag]
  cases hd with
  | looks => exact ⟨by simp, fun a ha => by cases ha⟩
  | @goes now e found q acts saw m =>
    obtain ⟨rfl, hf⟩ := hflag _ e saw
    rw [hf] at m
    constructor
    · dsimp only
      split <;> simp
    · exact Pump.move_torn_still m
  | @stops now e found outcome said saw why =>
    rw [(hflag _ e saw).2] at why
    obtain ⟨rfl, rfl⟩ := Pump.ends_torn why
    constructor
    · simp
    · intro a ha
      exact (Pump.still_calm (Pump.parting_still s x.pump _ a ha)).2.1
  | raises due =>
    refine ⟨hs, fun a ha => ?_⟩
    rcases h.owed with ho | ⟨ho, -⟩
    · exact absurd ho due
    · rw [ho, Pump.lastActions] at ha
      simp only [List.mem_cons, List.not_mem_nil, or_false] at ha
      rcases ha with rfl | rfl <;> rfl

end

section
variable {setup : Direction → Setup} {r t : Relay} {d : Direction} {i : Direction × Poll Event}
  {later : List (Direction × Poll Event)} {acts more : List (Direction × Action)}

theorem step_other (hi : step setup r i = some (t, more)) (hw : i.1 ≠ d) :
    t.side d = r.side d := by
  obtain ⟨y, said, -, rfl, -⟩ := step_does hi
  exact Function.update_of_ne hw.symm _ _

theorem run_other (h : runAll (step setup) later r = some (t, more)) (hw : ∀ i ∈ later, i.1 ≠ d) :
    t.side d = r.side d := by
  induction later generalizing r more with
  | nil =>
    cases h
    rfl
  | cons i later ih =>
    obtain ⟨m, first, rest, hi, hrest, -⟩ := run_cons h
    rw [ih hrest fun j hj => hw j (List.mem_cons_of_mem _ hj),
      step_other hi (hw i List.mem_cons_self)]

theorem run_torn (h : runAll (step setup) later r = some (t, more)) (hr : r.torn = true) :
    t.torn = true :=
  run_invariant (P := fun _ t _ => t.torn = true) (fun _ _ _ _ _ _ => step_torn) hr h

theorem run_ending {outcome : Outcome} (h : runAll (step setup) later r = some (t, more))
    (ho : (r.side d).pump.ending? = some outcome) : (t.side d).pump.ending? = some outcome := by
  refine run_invariant (P := fun _ t _ => (t.side d).pump.ending? = some outcome) ?_ ho h
  intro _ r _ i t more ho hi
  by_cases hw : i.1 = d
  · obtain ⟨y, said, hd, rfl, -⟩ := step_does hi
    subst hw
    simpa using does_ending hd ho
  · rwa [step_other hi hw]

/-- Once the flag is raised, a task that looks at it moves no more bytes. -/
theorem run_still (h : r.Coupled acts) (hr : r.torn = true) (hs : (r.side d).seen ≠ some false)
    (hl : runAll (step setup) later r = some (t, more)) :
    ∀ a ∈ done d more, a.isTransfer = false := by
  -- a raised flag stays up, so no later look can find it down
  suffices hall : t.Coupled (acts ++ more) ∧ t.torn = true ∧ (t.side d).seen ≠ some false ∧
      ∀ a ∈ done d more, a.isTransfer = false from hall.2.2.2
  refine run_invariant (P := fun _ t more => t.Coupled (acts ++ more) ∧ t.torn = true ∧
    (t.side d).seen ≠ some false ∧ ∀ a ∈ done d more, a.isTransfer = false) ?_
    ⟨by simpa using h, hr, hs, fun a ha => by cases ha⟩ hl
  rintro - r done' ⟨who, poll⟩ t more ⟨hc, hr, hs, hdone⟩ hi
  refine ⟨by simpa using step_coupled hc hi, step_torn hr hi, ?_⟩
  obtain ⟨y, said, hd, rfl, rfl⟩ := step_does hi
  by_cases hw : who = d
  · subst hw
    have hfit := hc.fit who
    rw [hr] at hfit hd
    obtain ⟨hseen, hsaid⟩ := does_still hfit hs hd
    constructor
    · simpa using hseen
    · rw [done_append, done_self]
      intro a ha
      exact (List.mem_append.mp ha).elim (hdone a) (hsaid a)
  · constructor
    · have hne : d ≠ who := fun he => hw he.symm
      simpa [hne] using hs
    · simpa [done_other hw] using hdone

/-- A task that has looked at a raised flag stands as it did, until it is polled again. -/
theorem run_looked (hl : runAll (step setup) ((d, .look) :: later) r = some (t, more))
    (hr : r.torn = true) (hw : ∀ i ∈ later, i.1 ≠ d) :
    t.side d = { r.side d with seen := some true } ∧ t.torn = true := by
  obtain ⟨m, first, rest, hi, hrest, -⟩ := run_cons hl
  obtain ⟨y, said, hd, rfl, -⟩ := step_does hi
  cases hd with
  | looks clear =>
    constructor
    · rw [run_other hrest hw, hr]
      exact Function.update_self _ _ _
    · exact run_torn hl hr

theorem torn_answer {p : Pump} (hp : Relaying p.phase) (s : Setup) (now : Nat) :
    p.step s true now .tornDown = some (p.finish s now .tornDown) := by
  unfold Pump.step
  generalize p.phase = phase at hp
  cases hp <;> rfl

theorem refused_answer {p : Pump} {e : Event} {error : IoFailure}
    (hp : Refuses p.phase e error) (s : Setup) (now : Nat) :
    p.step s true now e = some (p.finish s now .tornDown) := by
  unfold Pump.step
  generalize p.phase = phase at hp
  cases hp <;> rfl

/-- A task under a raised flag answers what tears its pump down. -/
theorem meet_answered {e : Event} {now : Nat} {found : Bool} (hr : r.torn = true)
    (saw : (r.side d).seen = some found) (hf : flag true found e = true)
    (ha : (r.side d).pump.step (setup d) true now e =
      some ((r.side d).pump.finish (setup d) now .tornDown)) :
    ∃ t said, step setup r (d, .meet now e) = some (t, said) := by
  have hside : ((r.side d).step (setup d) r.torn (.meet now e)).isSome := by
    have hflag : (if e.refused then true else found) = true := hf
    rw [Side.step, saw, hr, Option.bind_eq_bind, Option.bind_some, hflag, ha]
    rfl
  obtain ⟨⟨y, said⟩, hy⟩ := Option.isSome_iff_exists.mp hside
  exact ⟨_, _, by rw [step, hy]; rfl⟩

theorem meet_torn {e : Event} {now : Nat} {found : Bool} (hr : r.torn = true)
    (hb : (setup d).sink ≠ none → ∀ b ∈ (r.side d).pump.burst, b ≠ [])
    (hp : Relaying (r.side d).pump.phase) (saw : (r.side d).seen = some found)
    (hf : flag true found e = true) (hi : step setup r (d, .meet now e) = some (t, more)) :
    TornDown (setup d) now (r.side d).pump (t.side d).pump (done d more) := by
  obtain ⟨y, said, hd, rfl, rfl⟩ := step_does hi
  rw [hr] at hd
  obtain ⟨hy, rfl⟩ := does_torn hp saw hf hd
  have hend : TornDown (setup d) now (r.side d).pump
      ((r.side d).pump.finish (setup d) now .tornDown).1 _ := parting_torn hb
  simpa [hy] using hend

end

section
variable {setup : Direction → Setup} {polls : List (Direction × Poll Event)} {r : Relay}
  {acts : List (Direction × Action)} {d : Direction}

theorem relaying_clear (h : r.Coupled acts) (hp : Relaying (r.side d).pump.phase) :
    (r.side d).owed = [] := by
  rcases (h.fit d).owed with clear | ⟨-, outcome, deadline, hend⟩
  · exact clear
  · rw [hend] at hp
    cases hp

theorem run_burst (h : runAll (step setup) polls (start setup) = some (r, acts)) (d : Direction)
    (hk : (setup d).sink ≠ none) : ∀ b ∈ (r.side d).pump.burst, b ≠ [] := by
  obtain ⟨sink, hsink⟩ := Option.ne_none_iff_exists'.mp hk
  exact (run_sound hsink h).burst

theorem waiting_torn (h : runAll (step setup) polls (start setup) = some (r, acts))
    (hr : r.torn = true) (hp : Relaying (r.side d).pump.phase) : TearsDown setup r d := by
  constructor
  · exact ⟨r.looked d, look_step (relaying_clear (run_coupled h) hp)⟩
  · intro between t more now hl hw
    obtain ⟨hside, ht⟩ := run_looked hl hr hw
    have hp' : Relaying (t.side d).pump.phase := by
      rw [hside]
      exact hp
    exact meet_answered ht (by rw [hside]) rfl (torn_answer hp' _ _)
  · intro between t more now e u said hl hw hi
    obtain ⟨hside, ht⟩ := run_looked hl hr hw
    have hp' : Relaying (t.side d).pump.phase := by
      rw [hside]
      exact hp
    have hb : (setup d).sink ≠ none → ∀ b ∈ (t.side d).pump.burst, b ≠ [] := by
      rw [hside]
      exact run_burst h d
    have hseen : (t.side d).seen = some true := by rw [hside]
    have hfinal := meet_torn ht hb hp' hseen (by simp [flag]) hi
    rwa [hside] at hfinal

theorem refused_forgiven (h : runAll (step setup) polls (start setup) = some (r, acts))
    (hr : r.torn = true) : Forgives setup r d := by
  intro now e error hseen hp
  obtain ⟨found, saw⟩ := Option.ne_none_iff_exists'.mp hseen
  have hf : flag true found e = true := by simp [flag, Pump.refuses_refused hp]
  obtain ⟨t, said, hi⟩ := meet_answered hr saw hf (refused_answer hp (setup d) now)
  exact ⟨t, said, hi, meet_torn hr (run_burst h d) (Pump.refuses_relaying hp) saw hf hi⟩

end

/-- In whatever order the tasks of a connection are polled: the flag is raised exactly when
there is a first pump that raised it, which had stopped by itself, so the pumps are not both
torn down; and a pump that has stopped keeps its outcome. Once the flag is raised, a task that
begins a poll moves no more bytes; a pump that waits in a read, a write or a flush is torn
down at its next poll and captures what it holds back; and a call that is refused only then
is no failure. -/
theorem teardown_coupled (setup : Direction → Setup) (polls : List (Direction × Poll Event))
    (r : Relay) (acts : List (Direction × Action))
    (h : runAll (step setup) polls (start setup) = some (r, acts)) :
    r.torn = (first? acts).isSome ∧
    (∀ d, first? acts = some d → ∃ outcome ∈ [Outcome.sourceClosed, .readFailed, .writeFailed],
      (r.side d).pump.ending? = some outcome) ∧
    (∃ d, (r.side d).pump.outcome? ≠ some .tornDown) ∧
    (∀ d outcome, (r.side d).pump.ending? = some outcome → ∀ later t more,
      runAll (step setup) later r = some (t, more) →
      (t.side d).pump.ending? = some outcome) ∧
    (r.torn = true → ∀ d,
      (∀ later t more, runAll (step setup) ((d, .look) :: later) r = some (t, more) →
        ∀ a ∈ done d more, a.isTransfer = false) ∧
      (Relaying (r.side d).pump.phase → TearsDown setup r d) ∧ Forgives setup r d) := by
  have hc := run_coupled h
  refine ⟨hc.torn, ?_, ?_, ?_, ?_⟩
  · intro d hd
    obtain ⟨outcome, ho, hn⟩ := hc.first d hd
    refine ⟨outcome, ?_, ho⟩
    cases outcome with
    | tornDown => exact absurd rfl hn
    | _ => simp
  · cases hf : first? acts with
    | some d =>
      obtain ⟨outcome, ho, hn⟩ := hc.first d hf
      refine ⟨d, fun ht => hn ?_⟩
      rw [Pump.outcome_ending ht] at ho
      exact (Option.some.inj ho).symm
    | none =>
      refine ⟨.toTarget, fun ht => ?_⟩
      have hup := (hc.fit .toTarget).teardown (Pump.outcome_ending ht)
      rw [hc.torn, hf] at hup
      cases hup
  · exact fun d outcome ho later t more hl => run_ending hl ho
  · intro hr d
    refine ⟨?_, waiting_torn h hr, refused_forgiven h hr⟩
    intro later t more hl
    obtain ⟨m, first, rest, hi, hrest, rfl⟩ := run_cons hl
    have hlook : done d first = [] ∧ (m.side d).seen = some true := by
      obtain ⟨y, said, hd, rfl, rfl⟩ := step_does hi
      cases hd with
      | looks clear => exact ⟨rfl, by simp [hr]⟩
    have hseen : (m.side d).seen ≠ some false := by simp [hlook.2]
    have hstill := run_still (step_coupled hc hi) (step_torn hr hi) hseen hrest
    rw [done_append, hlook.1, List.nil_append]
    exact hstill

def pairPolls : List (Direction × Poll Event) :=
  [(.toTarget, .look), (.toClient, .look), (.toTarget, .meet 0 (.chunk [80])),
    (.toTarget, .look), (.toTarget, .meet 0 (.took 1)), (.toTarget, .meet 1 .flushed),
    (.toTarget, .look), (.toClient, .meet 7 .sourceEnd), (.toClient, .raise)]

/-- The byte that is held back is captured when the client's pump is torn down. -/
theorem teardown_coupled_pair : ∃ r acts,
    runAll (step plainSetup) pairPolls (start plainSetup) = some (r, acts) ∧
    first? acts = some .toClient ∧ (r.side .toTarget).pump.bytes = [80] ∧
    TearsDown plainSetup r .toTarget := by
  refine ⟨_, _, rfl, rfl, rfl, ?_⟩
  have h := teardown_coupled plainSetup pairPolls _ _ rfl
  exact (h.2.2.2.2 rfl .toTarget).2.1 (.reading _)

end Wiretap.Relay
