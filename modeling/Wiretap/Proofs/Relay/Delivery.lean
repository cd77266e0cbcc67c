import Wiretap.Proofs.Pump.Flow
import Wiretap.Proofs.Relay.Polls

/-! What the two peers of a connection receive when nothing fails. The pump
whose source ends first delivers all of it and tears the other one down; that
one has delivered what it had read by then, less at most the rest of a chunk
that was on its way. -/

set_option autoImplicit false

namespace Wiretap

structure Exchange where
  relay : Relay
  source : Direction → List Pump.Piece

namespace Exchange
open Pump (Setup Action Event Cue Piece Ends Refuses served stream draw)

def start (setup : Direction → Setup) (sources : Direction → List Piece) : Exchange :=
  ⟨Relay.start setup, sources⟩

def answered (s : Setup) (source : List Piece) : Poll Cue → Option (Poll Event × List Piece)
  | .look => some (.look, source)
  | .meet now cue => (served s now source cue).map fun (e, rest) => (.meet now e, rest)
  | .raise => some (.raise, source)

def step (setup : Direction → Setup) (x : Exchange) (i : Direction × Poll Cue) :
    Option (Exchange × List (Direction × Action)) := do
  let (poll, rest) ← answered (setup i.1) (x.source i.1) i.2
  let (relay, acts) ← x.relay.step setup (i.1, poll)
  some (⟨relay, Function.update x.source i.1 rest⟩, acts)

def Calm (source : List Piece) : Prop := ∀ piece ∈ source, ∀ error, piece.arrival ≠ .failure error

def Accepts (i : Direction × Poll Cue) : Prop :=
  ∀ now e, i.2 = .meet now (.answer e) → e.refused = false

section
variable {s : Setup} {now size : Nat} {source rest : List Piece} {cue : Cue} {e : Event}

theorem draw_calm (h : Calm source) (hd : draw size now source = some (e, rest)) :
    (∀ error, e ≠ .readError error) ∧ Calm rest := by
  cases source with
  | nil =>
    cases hd
    exact ⟨by simp, h⟩
  | cons piece others =>
    obtain ⟨time, arrival⟩ := piece
    have hrest : Calm others := fun p hp => h p (List.mem_cons_of_mem _ hp)
    simp only [draw, Option.ite_none_right_eq_some] at hd
    obtain ⟨-, hd⟩ := hd
    cases arrival with
    | failure error => exact absurd rfl (h _ List.mem_cons_self error)
    | ending =>
      cases hd
      exact ⟨by simp, hrest⟩
    | data bytes =>
      cases bytes with
      | nil =>
        cases hd
        exact ⟨by simp, hrest⟩
      | cons b bs =>
        cases hd
        refine ⟨by simp, ?_⟩
        split
        · exact hrest
        · intro p hp error
          rcases List.mem_cons.mp hp with rfl | hp
          · simp
          · exact hrest p hp error

theorem served_calm (h : Calm source) (hs : served s now source cue = some (e, rest)) :
    (∀ error, e ≠ .readError error) ∧ Calm rest := by
  rcases Pump.served_cases hs with ⟨hd, -⟩ | ⟨-, rfl, rfl⟩ | ⟨ho, rfl⟩
  · exact draw_calm h hd
  · exact ⟨by simp, h⟩
  · refine ⟨?_, h⟩
    rintro error rfl
    cases ho

theorem served_accepted {d : Direction} (ha : Accepts (d, .meet now cue))
    (hs : served s now source cue = some (e, rest)) : e.refused = false := by
  cases cue with
  | answer answer =>
    obtain ⟨-, hs⟩ := Option.ite_none_left_eq_some.mp hs
    cases hs
    exact ha now e rfl
  | poll =>
    -- what a source gives is no answer of the destination
    have hof : e.ofSource = true := by
      have hpoll := Option.some.inj hs
      cases hd : draw (Pump.capacity s) now source with
      | none =>
        rw [hd] at hpoll
        cases hpoll
        rfl
      | some given =>
        rw [hd] at hpoll
        exact (Pump.draw_ofSource (hd.trans (congrArg some hpoll))).1
    cases e with
    | took => cases hof
    | writeError => cases hof
    | flushError => cases hof
    | _ => rfl

theorem ends_calm {torn : Bool} {phase : Pump.Phase} {outcome : Outcome} {said : List Action}
    (hr : ∀ error, e ≠ .readError error) (ha : e.refused = false)
    (h : Ends s torn now phase e outcome said) : outcome = .sourceClosed ∨ outcome = .tornDown := by
  cases h with
  | sourceEnd => exact .inl rfl
  | readError => exact absurd rfl (hr _)
  | tornDown => exact .inr rfl
  | lateError => exact .inr rfl
  | writeError _ refused =>
    rw [Pump.refuses_refused refused] at ha
    cases ha

end

structure Flowing (sources : Direction → List Piece) (x : Exchange)
    (acts : List (Direction × Action)) : Prop where
  coupled : x.relay.Coupled acts
  calm : ∀ d, Calm (x.source d)
  flow : ∀ d, Pump.Flow (stream (sources d)) (stream (x.source d)) (x.relay.ledger acts d)
    (x.relay.side d).pump.phase
  ending : ∀ d outcome, (x.relay.side d).pump.ending? = some outcome →
    outcome = .sourceClosed ∨ outcome = .tornDown

section
variable {setup : Direction → Setup} {sources : Direction → List Piece} {x y : Exchange}
  {i : Direction × Poll Cue} {acts more : List (Direction × Action)}

theorem start_flowing (calm : ∀ d, Calm (sources d)) :
    (start setup sources).Flowing sources [] := by
  constructor
  · exact Relay.start_coupled setup
  · exact calm
  · exact fun d => ⟨⟨rfl, fun h => absurd rfl h⟩, rfl⟩
  · exact fun d outcome h => by cases h

theorem step_answered (h : step setup x i = some (y, more)) :
    ∃ poll rest, answered (setup i.1) (x.source i.1) i.2 = some (poll, rest) ∧
      x.relay.step setup (i.1, poll) = some (y.relay, more) ∧
      y.source = Function.update x.source i.1 rest := by
  obtain ⟨⟨poll, rest⟩, ha, h⟩ := Option.bind_eq_some_iff.mp h
  obtain ⟨⟨r, done⟩, hr, h⟩ := Option.bind_eq_some_iff.mp h
  cases h
  exact ⟨poll, rest, ha, hr, rfl⟩

theorem answered_calm {s : Setup} {source rest : List Piece} {cue : Poll Cue} {poll : Poll Event}
    (h : Calm source) (ha : answered s source cue = some (poll, rest)) : Calm rest := by
  cases cue with
  | look => cases ha; exact h
  | raise => cases ha; exact h
  | meet now cue =>
    obtain ⟨⟨e, left⟩, hs, ha⟩ := Option.map_eq_some_iff.mp ha
    cases ha
    exact (served_calm h hs).2

theorem answered_meet {s : Setup} {source rest : List Piece} {cue : Poll Cue} {now : Nat}
    {e : Event} (ha : answered s source cue = some (.meet now e, rest)) :
    ∃ c, cue = .meet now c ∧ served s now source c = some (e, rest) := by
  cases cue with
  | look => cases ha
  | raise => cases ha
  | meet time c =>
    obtain ⟨⟨given, left⟩, hs, ha⟩ := Option.map_eq_some_iff.mp ha
    cases ha
    exact ⟨c, rfl, hs⟩

theorem answered_idle {s : Setup} {source rest : List Piece} {cue : Poll Cue} {poll : Poll Event}
    (ha : answered s source cue = some (poll, rest)) (hp : ∀ now e, poll ≠ .meet now e) :
    rest = source := by
  cases cue with
  | look => cases ha; rfl
  | raise => cases ha; rfl
  | meet now cue =>
    obtain ⟨⟨e, left⟩, hs, ha⟩ := Option.map_eq_some_iff.mp ha
    cases ha
    exact absurd rfl (hp now e)

theorem meet_calm {who : Direction} {cue : Poll Cue} {now : Nat} {e : Event} {rest : List Piece}
    (hx : Calm (x.source who)) (ha : Accepts (who, cue))
    (h : answered (setup who) (x.source who) cue = some (.meet now e, rest)) :
    (∃ c, served (setup who) now (x.source who) c = some (e, rest)) ∧
      (∀ error, e ≠ .readError error) ∧ e.refused = false := by
  obtain ⟨c, rfl, hs⟩ := answered_meet h
  exact ⟨⟨c, hs⟩, (served_calm hx hs).1, served_accepted ha hs⟩

theorem step_flowing (hx : x.Flowing sources acts) (ha : Accepts i)
    (h : step setup x i = some (y, more)) : y.Flowing sources (acts ++ more) := by
  obtain ⟨who, cue⟩ := i
  obtain ⟨poll, rest, hgiven, hr, hsource⟩ := step_answered h
  have hother : ∀ d, d ≠ who → y.source d = x.source d := by
    intro d hd
    rw [hsource]
    exact Function.update_of_ne hd _ _
  have hself : y.source who = rest := by
    rw [hsource]
    exact Function.update_self _ _ _
  constructor
  · exact Relay.step_coupled hx.coupled hr
  · intro d
    by_cases hd : d = who
    · rw [hd, hself]
      exact answered_calm (hx.calm who) hgiven
    · rw [hother d hd]
      exact hx.calm d
  · intro d
    rcases Relay.step_ledger hx.coupled hr d with
      ⟨hp, hl, hidle⟩ | ⟨now, e, v, said, rfl, rfl, m, hl⟩
    · have hsame : y.source d = x.source d := by
        by_cases hd : d = who
        · rw [hd, hself]
          exact answered_idle hgiven (hidle hd.symm)
        · exact hother d hd
      rw [hp, hl, hsame]
      exact hx.flow d
    · obtain ⟨⟨c, hs⟩, -⟩ := meet_calm (hx.calm who) ha hgiven
      rw [hl, hself]
      exact Pump.flow_move hs m (hx.flow who)
  · intro d outcome ho
    rcases Relay.step_ledger hx.coupled hr d with ⟨hp, -⟩ | ⟨now, e, v, said, rfl, rfl, m, -⟩
    · rw [hp] at ho
      exact hx.ending d outcome ho
    · obtain ⟨-, hread, hrefused⟩ := meet_calm (hx.calm who) ha hgiven
      rcases Pump.move_ending m with ⟨same, -⟩ | ⟨last, told, why, hq, -⟩
      · rw [same] at ho
        exact hx.ending who outcome ho
      · rw [hq, Pump.finish_ending] at ho
        cases ho
        exact ends_calm hread hrefused why

theorem run_flowing {polls : List (Direction × Poll Cue)} (calm : ∀ d, Calm (sources d))
    (accepted : ∀ i ∈ polls, Accepts i)
    (h : runAll (step setup) polls (start setup sources) = some (x, acts)) :
    x.Flowing sources acts := by
  refine run_invariant (P := fun taken x acts => (∀ i ∈ taken, Accepts i) → x.Flowing sources acts)
    ?_ (fun _ => start_flowing calm) h accepted
  intro taken x acts i y more hx hi htaken
  have hbefore : ∀ j ∈ taken, Accepts j := fun j hj => htaken j (List.mem_append_left _ hj)
  exact step_flowing (hx hbefore) (htaken i (by simp)) hi

end

section
variable {sources : Direction → List Piece} {x : Exchange} {acts : List (Direction × Action)}
  {d : Direction} {outcome : Outcome}

theorem ended_clear (hx : x.Flowing sources acts)
    (ho : (x.relay.side d).pump.outcome? = some outcome) :
    (x.relay.side d).owed = [] ∧ x.relay.torn = true := by
  have hfit := hx.coupled.fit d
  have clear : (x.relay.side d).owed = [] := by
    rcases hfit.owed with clear | ⟨-, other, deadline, hp⟩
    · exact clear
    · rw [Pump.outcome_ended ho] at hp
      cases hp
  exact ⟨clear, hfit.raised (by simp [Pump.outcome_ending ho]) clear⟩

theorem ended_delivered (hx : x.Flowing sources acts)
    (ho : (x.relay.side d).pump.outcome? = some outcome) :
    ∃ unsent unread, Pump.Delivered (stream (sources d)) (Relay.done d acts) outcome
      unsent unread := by
  have hflow := hx.flow d
  rw [Pump.outcome_ended ho, Relay.ledger, (ended_clear hx ho).1, List.append_nil] at hflow
  exact hflow

end

/-- In a run without failures, once both pumps have ended: the one that raised the flag first
has ended with its source, and every pump that ended so has delivered exactly what its peer
sent before the end. The other one may have been torn down; it has delivered, in order, what
it had read, less at most the rest of the chunk it had read last. -/
theorem delivered_until_torn (setup : Direction → Setup) (sources : Direction → List Piece)
    (polls : List (Direction × Poll Cue)) (x : Exchange) (acts : List (Direction × Action))
    (calm : ∀ d, Calm (sources d)) (accepted : ∀ i ∈ polls, Accepts i)
    (h : runAll (step setup) polls (start setup sources) = some (x, acts))
    (ended : ∀ d, (x.relay.side d).pump.outcome?.isSome) :
    ∃ first, Relay.first? acts = some first ∧
      (x.relay.side first).pump.outcome? = some .sourceClosed ∧
      ∀ d,
        ((x.relay.side d).pump.outcome? = some .sourceClosed ∧
          Pump.written (Relay.done d acts) = stream (sources d)) ∨
        (d ≠ first ∧ (x.relay.side d).pump.outcome? = some .tornDown ∧
          ∃ unsent unread,
            stream (sources d) = Pump.written (Relay.done d acts) ++ unsent ++ unread ∧
            Pump.received (Relay.done d acts) = Pump.written (Relay.done d acts) ++ unsent ∧
            (unsent ≠ [] → ∃ chunk, (Pump.reads (Relay.done d acts)).getLast? = some chunk ∧
              unsent <:+ chunk)) := by
  have hx := run_flowing calm accepted h
  -- a pump that has ended has raised the flag, so somebody was the first to raise it
  have hfirst : ∃ first, Relay.first? acts = some first := by
    obtain ⟨outcome, ho⟩ := Option.isSome_iff_exists.mp (ended .toTarget)
    have hup := (ended_clear hx ho).2
    rw [hx.coupled.torn] at hup
    exact Option.isSome_iff_exists.mp hup
  obtain ⟨first, hfirst⟩ := hfirst
  have hclosed : (x.relay.side first).pump.outcome? = some .sourceClosed := by
    obtain ⟨outcome, ho⟩ := Option.isSome_iff_exists.mp (ended first)
    obtain ⟨outcome', he, hn⟩ := hx.coupled.first first hfirst
    rw [Pump.outcome_ending ho] at he
    cases he
    rcases hx.ending first outcome (Pump.outcome_ending ho) with rfl | rfl
    · exact ho
    · exact absurd rfl hn
  refine ⟨first, hfirst, hclosed, fun d => ?_⟩
  obtain ⟨outcome, ho⟩ := Option.isSome_iff_exists.mp (ended d)
  obtain ⟨unsent, unread, hd⟩ := ended_delivered hx ho
  have htotal : Pump.written (Relay.done d acts) ++ unsent ++ unread = stream (sources d) := by
    rw [← hd.held.received_eq, hd.total]
  rcases hx.ending d outcome (Pump.outcome_ending ho) with rfl | rfl
  · obtain ⟨rfl, rfl⟩ := hd.complete rfl
    exact .inl ⟨ho, by simpa using htotal⟩
  · refine .inr ⟨?_, ho, unsent, unread, htotal.symm, hd.held.received_eq, hd.held.rest⟩
    rintro rfl
    rw [ho] at hclosed
    cases hclosed

def earlySources : Direction → List Piece
  | .toTarget => [⟨some 0, .data [80, 73, 78, 71]⟩, ⟨some 10, .ending⟩]
  | .toClient => [⟨some 100, .data [80, 79, 78, 71]⟩, ⟨some 200, .ending⟩]

def earlyPolls : List (Direction × Poll Cue) :=
  [(.toTarget, .look), (.toClient, .look), (.toTarget, .meet 0 .poll), (.toTarget, .look),
    (.toTarget, .meet 0 (.answer (.took 4))), (.toTarget, .meet 0 (.answer .flushed)),
    (.toTarget, .look), (.toTarget, .meet 10 .poll), (.toTarget, .raise),
    (.toClient, .look), (.toClient, .meet 10 (.answer .tornDown)), (.toClient, .raise),
    (.toTarget, .look), (.toTarget, .meet 10 (.answer .closed)),
    (.toClient, .look), (.toClient, .meet 10 (.answer .closed))]

theorem early_calm (d : Direction) : Calm (earlySources d) := by
  intro piece hp error
  cases d <;>
    simp only [earlySources, List.mem_cons, List.not_mem_nil, or_false] at hp <;>
    rcases hp with rfl | rfl <;> simp

theorem early_accepted : ∀ i ∈ earlyPolls, Accepts i := by
  intro i hi now e he
  simp only [earlyPolls, List.mem_cons, List.not_mem_nil, or_false] at hi
  rcases hi with rfl | rfl | rfl | rfl | rfl | rfl | rfl | rfl | rfl | rfl | rfl | rfl | rfl |
    rfl | rfl | rfl <;> cases he <;> rfl

/-- The pump of the client ends with its source; what the other one has delivered is a first
part of what the target sends. -/
theorem delivered_until_torn_early : ∃ x acts,
    runAll (step Relay.plainSetup) earlyPolls (start Relay.plainSetup earlySources) =
      some (x, acts) ∧
    (x.relay.side .toTarget).pump.outcome? = some .sourceClosed ∧
    ∃ unread, stream (earlySources .toClient) =
      Pump.written (Relay.done .toClient acts) ++ unread := by
  obtain ⟨x, acts, hrun, hended, hfirst⟩ : ∃ x acts,
      runAll (step Relay.plainSetup) earlyPolls (start Relay.plainSetup earlySources) =
        some (x, acts) ∧ (∀ d, (x.relay.side d).pump.outcome?.isSome) ∧
      Relay.first? acts = some .toTarget := by
    refine ⟨_, _, rfl, ?_, rfl⟩
    intro d
    cases d <;> rfl
  obtain ⟨first, hf, hclosed, h⟩ := delivered_until_torn Relay.plainSetup earlySources earlyPolls
    x acts early_calm early_accepted hrun hended
  rw [hfirst] at hf
  cases hf
  refine ⟨x, acts, hrun, hclosed, ?_⟩
  rcases h .toClient with ⟨-, hw⟩ | ⟨-, -, unsent, unread, hu, -⟩
  · exact ⟨[], by rw [hw, List.append_nil]⟩
  · exact ⟨unsent ++ unread, by rw [hu, List.append_assoc]⟩

/-- An exchange without failures whose peers both end their sides: the client receives nothing
of what the target sends, because its own end came first. -/
theorem early_end_cuts_off : ∃ x acts,
    runAll (step Relay.plainSetup) earlyPolls (start Relay.plainSetup earlySources) =
      some (x, acts) ∧
    (∀ d, Calm (earlySources d)) ∧ (∀ i ∈ earlyPolls, Accepts i) ∧
    (∀ d, (x.relay.side d).pump.outcome?.isSome) ∧
    Pump.written (Relay.done .toTarget acts) = [80, 73, 78, 71] ∧
    stream (earlySources .toClient) = [80, 79, 78, 71] ∧
    Pump.written (Relay.done .toClient acts) = [] := by
  refine ⟨_, _, rfl, early_calm, early_accepted, ?_, rfl, rfl, rfl⟩
  intro d
  cases d <;> rfl

end Exchange
end Wiretap
