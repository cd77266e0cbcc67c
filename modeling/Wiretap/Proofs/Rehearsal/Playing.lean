import Wiretap.Proofs.Service.Lifecycle
import Wiretap.Rehearsal.Trial

/-! Scenes run their service. Whatever is done on a scene, its service takes
steps one after another, each at the moment the scene has come to, and the scene
remembers what they did and reported. Between the steps lines are logged, which
no step looks at. -/

set_option autoImplicit false

namespace Wiretap

namespace Service

structure Alike (s t : Service) : Prop where
  manager : s.manager = t.manager
  current : s.current = t.current
  book : s.recorder.book = t.recorder.book

section
variable {s t u : Service} {time : Timestamp} {now : Nat} {step : Step}
  {acts : List Manager.Action} {inputs : List (Timestamp × Nat × Step)}

theorem alike_refl (s : Service) : Alike s s := ⟨rfl, rfl, rfl⟩

theorem alike_symm (h : Alike s t) : Alike t s := ⟨h.manager.symm, h.current.symm, h.book.symm⟩

theorem alike_trans (h : Alike s t) (hu : Alike t u) : Alike s u :=
  ⟨h.manager.trans hu.manager, h.current.trans hu.current, h.book.trans hu.book⟩

theorem log_alike (s : Service) (line : LogLine) : Alike s (s.log line) := ⟨rfl, rfl, rfl⟩

theorem logs_alike (s : Service) (lines : List LogLine) : Alike s (lines.foldl log s) := by
  induction lines generalizing s with
  | nil => exact alike_refl s
  | cons line lines ih => exact alike_trans (log_alike s line) (ih _)

theorem absorb_alike (time : Timestamp) (h : Alike s t) (a : Manager.Action) :
    Alike (absorb time s a) (absorb time t a) := by
  cases a with
  | logged line => exact ⟨h.manager, h.current, h.book⟩
  | reported e c => exact ⟨h.manager, h.current, h.book⟩
  | engine k a =>
    obtain ⟨hm, hb⟩ := absorb_engine time s k a
    obtain ⟨hm', hb'⟩ := absorb_engine time t k a
    refine ⟨hm.trans (h.manager.trans hm'.symm), ?_, ?_⟩
    · exact (absorbAll_current time s [.engine k a]).trans
        (h.current.trans (absorbAll_current time t [.engine k a]).symm)
    · have hclient : s.client? k = t.client? k := by
        unfold client?
        rw [h.manager]
      rw [hb, hb', hclient, h.book]

theorem absorbAll_alike (time : Timestamp) (h : Alike s t) (acts : List Manager.Action) :
    Alike (absorbAll time s acts) (absorbAll time t acts) := by
  induction acts generalizing s t with
  | nil => exact h
  | cons a acts ih => exact ih (absorb_alike time h a)

theorem start_alike (time : Timestamp) (h : Alike s t) (d : Draw) (session : Session) :
    (s.start time d session).2.2 = (t.start time d session).2.2 ∧
      Alike (s.start time d session).2.1 (t.start time d session).2.1 := by
  have hbusy : (s.manager.isServing && s.isActive) = (t.manager.isServing && t.isActive) := by
    simp only [isActive, h.manager, h.current]
  unfold start
  rw [hbusy, ← h.manager]
  split
  · exact ⟨rfl, h⟩
  · have hclear : (s.recorder.apply .clear).2.book = (t.recorder.apply .clear).2.book := by
      rw [Recorder.apply_book, Recorder.apply_book, h.book]
    cases hstart : (s.manager.give session).1.start d (s.manager.give session).2 with
    | mk result rest =>
      obtain ⟨m, acts⟩ := rest
      have hcleared : Alike { s with recorder := (s.recorder.apply .clear).2, manager := m }
          { t with recorder := (t.recorder.apply .clear).2, manager := m } :=
        ⟨rfl, h.current, hclear⟩
      have hall := absorbAll_alike time hcleared acts
      simp only [hstart]
      cases result with
      | error e => exact ⟨rfl, hall⟩
      | ok _ => exact ⟨rfl, hall.manager, rfl, hall.book⟩

/-- A step does not depend on what was logged. -/
theorem step_alike (h : Alike s t) (hs : s.step time now step = some (u, acts)) :
    ∃ v, t.step time now step = some (v, acts) ∧ Alike u v := by
  cases step with
  | start d session =>
    obtain ⟨hacts, halike⟩ := start_alike time h d session
    have hstart : (s.start time d session).2 = (u, acts) := Option.some.inj hs
    rw [hstart] at hacts halike
    exact ⟨_, congrArg (fun said => some ((t.start time d session).2.1, said)) hacts.symm, halike⟩
  | release =>
    simp only [Service.step, release, Option.map_map, Option.map_eq_some_iff] at hs
    obtain ⟨⟨k, m, said⟩, hm, hu⟩ := hs
    cases hu
    have halike : Alike { s with manager := m } { t with manager := m } :=
      ⟨rfl, h.current, h.book⟩
    refine ⟨absorbAll time { t with manager := m } said, ?_, absorbAll_alike time halike said⟩
    simp [Service.step, release, ← h.manager, hm]
  | engine k step =>
    simp only [Service.step, engineStep, Option.map_eq_some_iff] at hs
    obtain ⟨⟨m, said⟩, hm, hu⟩ := hs
    cases hu
    have halike : Alike { s with manager := m } { t with manager := m } :=
      ⟨rfl, h.current, h.book⟩
    refine ⟨absorbAll time { t with manager := m } said, ?_, absorbAll_alike time halike said⟩
    simp [Service.step, engineStep, ← h.manager, hm]
  | finishStop i =>
    cases hs
    exact ⟨_, rfl, congrArg (·.setActive i false) h.manager, h.current, h.book⟩
  | deactivate i =>
    cases hs
    exact ⟨_, rfl, congrArg (·.setActive i false) h.manager, h.current, h.book⟩

theorem run_alike (h : Alike s t) (hs : runAll stepAt inputs s = some (u, acts)) :
    ∃ v, runAll stepAt inputs t = some (v, acts) ∧ Alike u v := by
  induction inputs generalizing s t acts with
  | nil =>
    cases hs
    exact ⟨t, rfl, h⟩
  | cons input inputs ih =>
    obtain ⟨m, first, later, hfirst, hlater, rfl⟩ := run_cons hs
    obtain ⟨n, hn, halike⟩ := step_alike h hfirst
    obtain ⟨v, hv, hend⟩ := ih halike hlater
    exact ⟨v, run_append (run_one hn) hv, hend⟩

end
end Service

namespace Rehearsal.Scene
open Service (Alike alike_refl alike_symm alike_trans)

def Within (start finish : Nat) : List (Timestamp × Nat × Service.Step) → Prop
  | [] => start ≤ finish
  | (time, now, _) :: inputs => start ≤ now ∧ time = .ofMillis now ∧ Within now finish inputs

def engineAction? : Manager.Action → Option Engine.Action
  | .engine _ a => some a
  | _ => none

/-- From one scene to another the service takes these steps, and does this. -/
structure Takes (s t : Scene) (inputs : List (Timestamp × Nat × Service.Step))
    (acts : List Manager.Action) : Prop where
  run : ∃ service, runAll Service.stepAt inputs s.service = some (service, acts) ∧
    service.Alike t.service
  within : Within s.now t.now inputs
  history : t.history = (acts.filterMap engineAction?).reverse ++ s.history
  reports : t.reports = (acts.filterMap (·.report?)).reverse ++ s.reports

def Plays (s t : Scene) : Prop := ∃ inputs acts, Takes s t inputs acts

section
variable {s t u : Scene} {k now : Nat} {step : Engine.Step} {e : Engine}
  {inputs others : List (Timestamp × Nat × Service.Step)}

theorem within_append {a b c : Nat} (h : Within a b inputs) (ho : Within b c others) :
    Within a c (inputs ++ others) := by
  induction inputs generalizing a with
  | nil =>
    cases others with
    | nil => exact Nat.le_trans h ho
    | cons other others => exact ⟨Nat.le_trans h ho.1, ho.2⟩
  | cons input inputs ih => exact ⟨h.1, h.2.1, ih h.2.2⟩

theorem plays_aside (hservice : s.service.Alike t.service) (hnow : s.now ≤ t.now)
    (hhistory : t.history = s.history) (hreports : t.reports = s.reports) : Plays s t :=
  ⟨[], [], ⟨_, rfl, hservice⟩, hnow, hhistory, hreports⟩

theorem plays_refl (s : Scene) : Plays s s := plays_aside (alike_refl _) (Nat.le_refl _) rfl rfl

theorem log_plays (s : Scene) (line : LogLine) :
    Plays s { s with service := s.service.log line } :=
  plays_aside (Service.log_alike _ _) (Nat.le_refl _) rfl rfl

theorem links_play (s : Scene) (links : List Link) : Plays s { s with links } :=
  plays_aside (alike_refl _) (Nat.le_refl _) rfl rfl

theorem plays_trans (h : Plays s t) (hu : Plays t u) : Plays s u := by
  obtain ⟨inputs, acts, ⟨v, hv, halike⟩, hwithin, hhistory, hreports⟩ := h
  obtain ⟨others, more, ⟨w, hw, hwalike⟩, hrest, hhistory', hreports'⟩ := hu
  obtain ⟨x, hx, hxalike⟩ := Service.run_alike (alike_symm halike) hw
  exact ⟨inputs ++ others, acts ++ more,
    ⟨x, run_append hv hx, alike_trans (alike_symm hxalike) hwalike⟩,
    within_append hwithin hrest,
    by rw [hhistory', hhistory, List.filterMap_append, List.reverse_append, List.append_assoc],
    by rw [hreports', hreports, List.filterMap_append, List.reverse_append, List.append_assoc]⟩

theorem absorb_scene (s : Scene) (a : Manager.Action) :
    (s.absorb a).service = s.service ∧ (s.absorb a).now = s.now ∧
      (s.absorb a).history = (engineAction? a).toList ++ s.history ∧
      (s.absorb a).reports = a.report?.toList ++ s.reports := by
  cases a with
  | engine k b => cases b <;> exact ⟨rfl, rfl, rfl, rfl⟩
  | logged line => exact ⟨rfl, rfl, rfl, rfl⟩
  | reported e c => exact ⟨rfl, rfl, rfl, rfl⟩

theorem filterMap_reversed {α β : Type} (f : α → Option β) (a : α) (rest : List α)
    (before : List β) : ((a :: rest).filterMap f).reverse ++ before =
      (rest.filterMap f).reverse ++ ((f a).toList ++ before) := by
  cases h : f a with
  | none => rw [List.filterMap_cons_none h]; rfl
  | some b => rw [List.filterMap_cons_some h]; simp

theorem absorbAll_scene (s : Scene) (acts : List Manager.Action) :
    (s.absorbAll acts).service = s.service ∧ (s.absorbAll acts).now = s.now ∧
      (s.absorbAll acts).history = (acts.filterMap engineAction?).reverse ++ s.history ∧
      (s.absorbAll acts).reports = (acts.filterMap (·.report?)).reverse ++ s.reports := by
  induction acts generalizing s with
  | nil => exact ⟨rfl, rfl, rfl, rfl⟩
  | cons a acts ih =>
    obtain ⟨hservice, hnow, hhistory, hreports⟩ := absorb_scene s a
    obtain ⟨hs, hn, hh, hr⟩ := ih (s.absorb a)
    exact ⟨hs.trans hservice, hn.trans hnow,
      hh.trans (by rw [hhistory, filterMap_reversed]),
      hr.trans (by rw [hreports, filterMap_reversed])⟩

/-- One step of the service at the present moment. -/
theorem service_plays (step : Service.Step) {service : Service} {acts : List Manager.Action}
    (h : s.service.step s.clock s.now step = some (service, acts)) :
    Plays s ({ s with service }.absorbAll acts) := by
  obtain ⟨hservice, hnow, hhistory, hreports⟩ := absorbAll_scene { s with service } acts
  refine ⟨[(s.clock, s.now, step)], acts, ⟨service, run_one h, ?_⟩,
    ⟨Nat.le_refl _, rfl, Nat.le_of_eq hnow.symm⟩, hhistory, hreports⟩
  rw [hservice]
  exact alike_refl _

theorem perform_plays (h : s.perform k step = some t) : Plays s t := by
  obtain ⟨⟨service, acts⟩, hstep, rfl⟩ := Option.map_eq_some_iff.mp h
  exact service_plays (.engine k step) hstep

theorem carryOut_plays (s : Scene) (k : Nat) (step : Engine.Step) :
    Plays s (s.carryOut k step) := by
  unfold carryOut
  cases h : s.perform k step with
  | none => exact plays_refl s
  | some t => exact perform_plays h

theorem perform_after (hu : u.perform k step = some t) (hservice : s.service = u.service)
    (hnow : s.now = u.now) (hhistory : u.history = s.history) (hreports : u.reports = s.reports) :
    Plays s t :=
  plays_trans (plays_aside (hservice ▸ alike_refl _) (Nat.le_of_eq hnow) hhistory hreports)
    (perform_plays hu)

theorem acceptTurn_plays (h : s.acceptTurn k e = some t) : Plays s t := by
  obtain ⟨l, -, h⟩ := Option.bind_eq_some_iff.mp h
  split at h
  · exact perform_after h rfl rfl rfl rfl
  · obtain ⟨u, hu, h⟩ := Option.bind_eq_some_iff.mp h
    have haccepted : Plays s u := perform_after hu rfl rfl rfl rfl
    split at h
    · cases h
      exact plays_trans haccepted (links_play u _)
    · cases h
      exact haccepted

theorem runTurn_plays (h : s.runTurn k e = some t) : Plays s t := by
  unfold runTurn at h
  cases hrun : e.run with
  | waiting => exact perform_plays (by simpa only [hrun] using h)
  | binding => exact perform_plays (by simpa only [hrun] using h)
  | locating =>
    simp only [hrun] at h
    split at h
    · exact perform_after h rfl rfl rfl rfl
    · obtain ⟨ip, -, h⟩ := Option.bind_eq_some_iff.mp h
      exact perform_plays h
  | opening a => exact perform_plays (by simpa only [hrun] using h)
  | accepting a =>
    simp only [hrun] at h
    split at h
    · exact perform_plays h
    · exact acceptTurn_plays h
  | resting a resume =>
    simp only [hrun] at h
    split at h
    · exact perform_plays h
    · cases h
  | ended => simp [hrun] at h

theorem taskTurn_plays (h : s.taskTurn k e = some t) : Plays s t := by
  obtain ⟨i, -, h⟩ := Option.bind_eq_some_iff.mp h
  exact perform_plays h

theorem linkTurn_plays {l : Link} (h : s.linkTurn l = some t) : Plays s t := by
  obtain ⟨e, -, h⟩ := Option.bind_eq_some_iff.mp h
  obtain ⟨i, -, h⟩ := Option.bind_eq_some_iff.mp h
  obtain ⟨phase, -, h⟩ := Option.bind_eq_some_iff.mp h
  obtain ⟨⟨event, after⟩, -, h⟩ := Option.bind_eq_some_iff.mp h
  exact perform_after h rfl rfl rfl rfl

theorem turn_plays (h : s.turn = some t) : Plays s t := by
  unfold turn at h
  rcases Option.or_eq_some_iff.mp h with h | ⟨-, h⟩
  · obtain ⟨k, -, h⟩ := List.exists_of_findSome?_eq_some h
    obtain ⟨e, -, h⟩ := Option.bind_eq_some_iff.mp h
    rcases Option.or_eq_some_iff.mp h with h | ⟨-, h⟩
    · exact runTurn_plays h
    · exact taskTurn_plays h
  · obtain ⟨l, -, h⟩ := List.exists_of_findSome?_eq_some h
    exact linkTurn_plays h

theorem settle_plays (fuel : Nat) (s : Scene) : Plays s (s.settle fuel) := by
  induction fuel generalizing s with
  | zero => exact plays_refl s
  | succ fuel ih =>
    unfold settle
    split
    · exact plays_trans (turn_plays ‹_›) (ih _)
    · exact plays_refl s

theorem waitFor_plays (stop : Scene → Bool) (deadline fuel : Nat) (s : Scene) :
    Plays s (s.waitFor stop deadline fuel).1 := by
  induction fuel generalizing s with
  | zero => exact plays_refl s
  | succ fuel ih =>
    have hsettled : Plays s s.settled := settle_plays _ s
    have hlater : ∀ time, s.settled.now ≤ time → Plays s { s.settled with now := time } :=
      fun time ht => plays_trans hsettled (plays_aside (alike_refl _) ht rfl rfl)
    unfold waitFor
    dsimp only
    split
    · exact hsettled
    · split
      · rename_i time _
        split
        · rename_i hmoves
          simp only [Bool.and_eq_true, decide_eq_true_eq] at hmoves
          exact plays_trans (hlater time (Nat.le_of_lt hmoves.2)) (ih _)
        · exact hlater _ (Nat.le_max_left _ _)
      · exact hlater _ (Nat.le_max_left _ _)

theorem wait_plays (s : Scene) (duration : Nat) (stop : Scene → Bool) :
    Plays s (s.wait duration stop).1 := waitFor_plays _ _ _ s

theorem start_plays (s : Scene) (d : Draw) (session : Session) (place : Place) :
    Plays s (s.start d session place).1 := by
  have hstep := service_plays (s := s) (.start d session) rfl
  unfold start
  dsimp only
  split
  · exact plays_trans hstep (plays_aside (alike_refl _) (Nat.le_refl _) rfl rfl)
  · exact hstep
  · exact hstep

theorem endRun_plays (s : Scene) (k limit : Nat) : Plays s (s.endRun k limit) := by
  have hwait := wait_plays s limit (fun s => s.runEnded k)
  unfold endRun
  dsimp only
  split
  · exact hwait
  · exact plays_trans hwait (plays_trans (log_plays _ _) (carryOut_plays _ _ _))

theorem closePool_plays (s : Scene) (k graceful forced : Nat) :
    Plays s (s.closePool k graceful forced).1 := by
  have hgraceful := plays_trans (carryOut_plays s k .stopAccepting)
    (wait_plays _ graceful (·.isIdle k))
  have hforced := plays_trans hgraceful (plays_trans (carryOut_plays _ k (.closePermits graceful))
    (wait_plays _ forced (·.isIdle k)))
  unfold closePool
  dsimp only
  split
  · exact plays_trans hgraceful (log_plays _ _)
  · split
    · exact hforced
    · exact plays_trans hforced (carryOut_plays _ _ _)

theorem finishStop_plays (s : Scene) (i : Nat) :
    Plays s { s with service := s.service.finishStop i } :=
  service_plays (.finishStop i) rfl

theorem stop_plays (s : Scene) : Plays s s.stop.1 := by
  unfold stop
  cases s.service.current with
  | none => exact plays_refl s
  | some i =>
    dsimp only
    cases hrelease : s.service.release s.clock s.now with
    | none => exact finishStop_plays s i
    | some released =>
      obtain ⟨k, service, acts⟩ := released
      have hreleased : Plays s ({ s with service }.absorbAll acts) :=
        service_plays .release (congrArg (Option.map Prod.snd) hrelease)
      have hended := plays_trans hreleased (endRun_plays _ k s.service.manager.policy.acceptLoop)
      have hclosed := plays_trans hended (closePool_plays _ k s.service.manager.policy.graceful
        s.service.manager.policy.forced)
      exact plays_trans hclosed (plays_trans (log_plays _ _) (finishStop_plays _ i))

theorem goes_plays (s : Scene) (l : Link) (ending : Bool) : Plays s (s.goes l ending) :=
  links_play s _

theorem connect_plays {name : String} {id : ConnectionId} {hello : Option String}
    (h : s.connect k name id hello = some t) : Plays s t := by
  unfold connect at h
  split at h
  · cases h
  · obtain ⟨ip, -, rfl⟩ := Option.map_eq_some_iff.mp h
    cases s.find? name with
    | none => exact links_play s _
    | some l => exact plays_trans (goes_plays s l false) (links_play _ _)

theorem shakeHands_plays (s : Scene) (id : ConnectionId) : Plays s (s.shakeHands id).1 := by
  have hwait := wait_plays s patience fun s => (s.linkOf? id).all fun l => l.greeted ||
    l.finished || (s.engine? l.engine).all (fun e => !e.setup.tls.interceptsClients)
  unfold shakeHands
  dsimp only
  split
  · exact hwait
  · split
    · exact hwait
    · exact plays_trans hwait (goes_plays _ _ true)

theorem join_plays (s : Scene) (k : Nat) (name : String) (id : ConnectionId)
    (hello : Option String) : Plays s (s.join k name id hello).1 := by
  unfold join
  cases h : s.connect k name id hello with
  | none => exact plays_refl s
  | some t =>
    dsimp only
    split
    · exact plays_trans (connect_plays h) (shakeHands_plays t id)
    · exact connect_plays h

theorem talk_plays (s : Scene) (name : String) (bytes : Bytes) (expected : Option Nat) :
    Plays s (s.talk name bytes expected).1 := by
  unfold talk
  split
  · exact plays_refl s
  · exact plays_trans (links_play s _) (plays_trans (wait_plays _ patience _) (links_play _ _))

theorem hangUp_plays (s : Scene) (name : String) (ending : Bool) :
    Plays s (s.hangUp name ending).1 := by
  unfold hangUp
  split
  · exact plays_refl s
  · exact goes_plays s _ ending

theorem attend_plays {id : ConnectionId} {hello : Option String} {joined : Bool}
    (h : s.attend id hello = some (t, joined)) : Plays s t := by
  have hopening : ∀ (steps : List Engine.Step) (s : Scene),
      Plays s (steps.foldl (·.carryOut 0 ·) s) := by
    intro steps
    induction steps with
    | nil => exact plays_refl
    | cons step steps ih => exact fun s => plays_trans (carryOut_plays s 0 step) (ih _)
  obtain ⟨u, hu, h⟩ := Option.bind_eq_some_iff.mp h
  have hconnected := plays_trans (hopening opening s) (connect_plays hu)
  split at h
  · have hgreeted := shakeHands_plays u id
    rw [show u.shakeHands id = (t, joined) from Option.some.inj h] at hgreeted
    exact plays_trans hconnected hgreeted
  · cases h
    exact hconnected

theorem runServer_plays (s : Scene) : Plays s s.runServer.1 := by
  unfold runServer
  dsimp only
  split
  · exact carryOut_plays s 0 .call
  · exact plays_trans (carryOut_plays s 0 .call) (wait_plays _ patience _)

theorem stopServer_plays (s : Scene) : Plays s s.stopServer.1 := by
  unfold stopServer
  dsimp only
  split
  · exact plays_trans (carryOut_plays s 0 .stop) (wait_plays _ patience _)
  · exact carryOut_plays s 0 .stop

inductive Deed where
  | start (d : Draw) (session : Session) (place : Place)
  | stop
  | deactivate (session : Nat)
  | join (k : Nat) (name : String) (id : ConnectionId) (hello : Option String)
  | talk (name : String) (bytes : Bytes) (expected : Option Nat)
  | hangUp (name : String) (ending : Bool)
  | attend (id : ConnectionId) (hello : Option String)
  | wait (duration : Nat) (stop : Scene → Bool)
  | runServer
  | stopServer
  | closePool (k graceful forced : Nat)

def act (s : Scene) : Deed → Scene
  | .start d session place => (s.start d session place).1
  | .stop => s.stop.1
  | .deactivate i => { s with service := s.service.deactivate i }
  | .join k name id hello => (s.join k name id hello).1
  | .talk name bytes expected => (s.talk name bytes expected).1
  | .hangUp name ending => (s.hangUp name ending).1
  | .attend id hello => ((s.attend id hello).map (·.1)).getD s
  | .wait duration stop => (s.wait duration stop).1
  | .runServer => s.runServer.1
  | .stopServer => s.stopServer.1
  | .closePool k graceful forced => (s.closePool k graceful forced).1

theorem act_plays (s : Scene) (deed : Deed) : Plays s (s.act deed) := by
  cases deed with
  | start d session place => exact start_plays s d session place
  | stop => exact stop_plays s
  | deactivate i => exact service_plays (.deactivate i) rfl
  | join k name id hello => exact join_plays s k name id hello
  | talk name bytes expected => exact talk_plays s name bytes expected
  | hangUp name ending => exact hangUp_plays s name ending
  | attend id hello =>
    show Plays s (((s.attend id hello).map (·.1)).getD s)
    cases h : s.attend id hello with
    | none => exact plays_refl s
    | some attended => exact attend_plays h
  | wait duration stop => exact wait_plays s duration stop
  | runServer => exact runServer_plays s
  | stopServer => exact stopServer_plays s
  | closePool k graceful forced => exact closePool_plays s k graceful forced

/-- Whatever is done on a scene is a run of its service. -/
theorem deeds_play (s : Scene) (deeds : List Deed) : Plays s (deeds.foldl act s) := by
  induction deeds generalizing s with
  | nil => exact plays_refl s
  | cons deed deeds ih => exact plays_trans (act_plays s deed) (ih _)

end
end Rehearsal.Scene

namespace Rehearsal.Trial
open Scene

section
variable {s t : Scene}

theorem notes_play (s : Scene) (lines : List LogLine) : Plays s (lines.foldl note s) := by
  induction lines generalizing s with
  | nil => exact plays_refl s
  | cons line lines ih => exact plays_trans (log_plays s line) (ih _)

theorem visit_plays (k : Nat) (s : Scene) (words : Bytes) : Plays s (visit k s words).1 := by
  unfold visit
  dsimp only
  split
  · exact join_plays s k "" _ none
  · exact plays_trans (join_plays s k "" _ none) (plays_trans (talk_plays _ "" words _)
      (plays_trans (hangUp_plays _ "" true) (wait_plays _ patience _)))

theorem visits_play (k : Nat) (s : Scene) (traffic : List Bytes) :
    Plays s (visits k s traffic).1 := by
  induction traffic generalizing s with
  | nil => exact plays_refl s
  | cons words rest ih => exact plays_trans (visit_plays k s words) (ih _)

theorem listening_plays (s : Scene) : Plays s s.listening.1 := by
  unfold listening
  split
  · exact plays_refl s
  · exact wait_plays s patience _

/-- The service goes on from here, and then has recorded the packets that the trial gives. -/
def Serves (service : Service) (trial : Trial) : Prop :=
  ∃ inputs finish t acts, runAll Service.stepAt inputs service = some (t, acts) ∧
    Within 0 finish inputs ∧ trial.packets = packetsOf t.recorder.registry

theorem finish_serves {service : Service} (hs : s.service = service) (hnow : s.now = 0)
    (h : Plays s t) (exit : Nat) (echoed : List Bool) :
    Serves service (Trial.finish t exit echoed) := by
  have hstopped : Plays t (note t.stop.1 (Program.summary t.stop.1.registry)) :=
    plays_trans (stop_plays t) (log_plays _ _)
  obtain ⟨inputs, acts, ⟨u, hu, halike⟩, hwithin, -, -⟩ := plays_trans h hstopped
  have hregistry : t.stop.1.registry = u.recorder.registry :=
    (congrArg Book.registry halike.book).symm
  exact ⟨inputs, _, u, acts, hs ▸ hu, hnow ▸ hwithin, congrArg packetsOf hregistry⟩

theorem start_scene (s : Scene) (d : Draw) (session : Session) (place : Place) :
    (s.start d session place).1.service = (s.service.start s.clock d session).2.1 ∧
      (s.start d session place).1.now = s.now ∧
      ∀ e, (s.start d session place).2 = .error e ↔
        (s.service.start s.clock d session).1 = .error e := by
  obtain ⟨hservice, hnow, -, -⟩ :=
    absorbAll_scene { s with service := (s.service.start s.clock d session).2.1 }
      (s.service.start s.clock d session).2.2
  unfold start
  dsimp only
  split
  · rename_i hresult _
    exact ⟨hservice, hnow, by simp [hresult]⟩
  · rename_i hresult _
    exact ⟨hservice, hnow, by simp [hresult]⟩
  · rename_i hresult
    exact ⟨hservice, hnow, by simp [hresult]⟩

/-- Nothing was captured before the first session. -/
theorem unstarted_empty {l : Program.Launch} {d : Draw} {session : Session} {time : Timestamp}
    {e : StartStop} (h : (l.service.start time d session).1 = .error e) :
    packetsOf (l.service.start time d session).2.1.recorder.registry = [] := by
  obtain ⟨hmanager, -, -⟩ := Service.logs_alike (.make (.make l.config.tuning
    (.ofTuning l.config.tuning) l.issuer ⟨some .quiet, none⟩)) l.log
  cases hstart : l.service.start time d session with
  | mk result rest =>
    obtain ⟨t, acts⟩ := rest
    rw [hstart] at h
    subst h
    cases Service.begun_of_start hstart with
    | busy serving active =>
      rw [← show _ = l.service.manager from hmanager] at serving
      cases serving
    | failed free started book current =>
      have hregistry : t.recorder.registry = .empty := congrArg Book.registry book
      rw [hregistry]
      rfl

/-- A trial starts the session at the beginning of time and lets the service go on. -/
theorem trial_plays {n : Network} {d : Draw} {o : Options} {disk : Storage} {taken : Bool}
    {traffic : List Bytes} {l : Program.Launch} (hl : Program.prepare o disk.read = .ok l) :
    Serves (l.service.start (.ofMillis 0) d l.session).2.1 (run n d o disk taken traffic) ∧
      ((run n d o disk taken traffic).exit = 0 →
        (l.service.start (.ofMillis 0) d l.session).1 = .ok ()) := by
  obtain ⟨hservice, hnow, herror⟩ :=
    start_scene (begin n l.service [] ⟨true, []⟩) d l.session ⟨taken, .ofName "echo" []⟩
  have hfailed : ∀ e, (l.service.start (.ofMillis 0) d l.session).1 = .error e →
      [] = packetsOf (l.service.start (.ofMillis 0) d l.session).2.1.recorder.registry :=
    fun e he => (unstarted_empty he).symm
  unfold run
  rw [hl]
  dsimp only
  cases hstart : (begin n l.service [] ⟨true, []⟩).start d l.session ⟨taken, .ofName "echo" []⟩ with
  | mk s result =>
    rw [hstart] at hservice hnow herror
    cases result with
    | error e =>
      have he := hfailed e ((herror e).mp rfl)
      cases e <;> exact ⟨⟨[], 0, _, [], rfl, Nat.le_refl _, he⟩, by simp⟩
    | ok session =>
      have hok : (l.service.start (.ofMillis 0) d l.session).1 = .ok () := by
        cases hresult : (l.service.start (.ofMillis 0) d l.session).1 with
        | ok _ => rfl
        | error e => cases (herror e).mpr hresult
      have hreported := fun lines => plays_trans (listening_plays s) (notes_play _ lines)
      refine ⟨?_, fun _ => hok⟩
      dsimp only
      split
      · exact finish_serves hservice hnow (plays_trans (hreported _) (log_plays _ _)) 1 []
      · cases s.listening.2 with
        | none => exact finish_serves hservice hnow (plays_trans (hreported _) (log_plays _ _)) 0 []
        | some k =>
          have hvisited := fun lines => plays_trans (hreported lines) (visits_play k _ traffic)
          exact finish_serves hservice hnow (plays_trans (hvisited _) (log_plays _ _)) 0 _

end
end Rehearsal.Trial
end Wiretap
