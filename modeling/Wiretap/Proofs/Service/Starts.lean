import Wiretap.Proofs.Service.Records

/-! What comes of a start. A service that is busy stays as it is. Otherwise its
registry is cleared before anything can fail, and a failure leaves the rest of
the service as it was. -/

set_option autoImplicit false

namespace Wiretap

def StartStop.isBusy : StartStop → Bool
  | .failed .alreadyActive => true
  | .failed .alreadyRunning => true
  | _ => false

namespace TlsContext

variable {s : Session} {t : Tuning} {issuer : Option Issuer} {d : Draw} {e : SessionFailure}

theorem present_idle {name : String} {days : Nat}
    (h : present issuer d name days = .error (.failed e)) :
    (StartStop.failed e).isBusy = false := by
  unfold present at h
  split at h
  · cases h
    rfl
  · split at h
    · cases h
    · cases h
      rfl
    · split at h
      · cases h
        rfl
      · cases h

/-- What fails in setting TLS up is never another session. -/
theorem forSession_idle (h : forSession s t issuer d = .error (.failed e)) :
    (StartStop.failed e).isBusy = false := by
  unfold forSession at h
  split at h
  · cases h
  · split at h
    · cases h
      rfl
    · rename_i name hname
      split at h
      · cases h
        rfl
      · rename_i target htarget
        dsimp only at h
        split at h
        · cases hp : present issuer d name t.validityDays with
          | error stop =>
            rw [hp] at h
            cases h
            exact present_idle hp
          | ok issued =>
            rw [hp] at h
            cases h
        · cases h

end TlsContext

namespace Manager

inductive Started (m : Manager) (i : Nat) : Except StartStop Unit → Manager → Prop where
  | unknown (absent : m.sessions[i]? = none) : Started m i (.error (.failed .poolClosed)) m
  | serving (on : m.isServing = true) : Started m i (.error (.failed .alreadyRunning)) m
  | unready (off : m.isServing = false) (stop : StartStop) (idle : stop.isBusy = false) :
    Started m i (.error stop) m
  | hosts (off : m.isServing = false) (s : Session) (tls : TlsContext) (pool : Pool)
    (present : m.sessions[i]? = some s) (made : Pool.make m.tuning.maxConnections = .ok pool) :
    Started m i (.ok ()) (m.host i s tls pool)

section
variable {m after : Manager} {d : Draw} {i : Nat} {result : Except StartStop Unit}
  {acts : List Action}

theorem started_of_start (h : m.start d i = (result, after, acts)) : Started m i result after := by
  unfold start at h
  split at h
  · cases h
    exact .unknown ‹_›
  · rename_i s hs
    split at h
    · cases h
      exact .serving ‹_›
    · rename_i hoff
      replace hoff : m.isServing = false := by simpa using hoff
      split at h
      · cases h
        exact .unready hoff _ rfl
      · rename_i htls
        cases h
        exact .unready hoff _ (TlsContext.forSession_idle htls)
      · rename_i tls log htls
        split at h
        · cases h
          exact .unready hoff _ rfl
        · rename_i pool hpool
          cases h
          exact .hosts hoff s tls pool hs hpool

theorem start_started (m : Manager) (d : Draw) (i : Nat) :
    Started m i (m.start d i).1 (m.start d i).2.1 :=
  started_of_start rfl

/-- All that is said in a start is said by the manager itself. -/
theorem start_quiet (h : m.start d i = (result, after, acts)) :
    ∀ a ∈ acts, ∀ number b, a ≠ .engine number b := by
  have hdiscarded : ∀ a ∈ m.discarded, ∀ number b, a ≠ .engine number b := by
    intro a ha number b
    obtain ⟨s, -, rfl⟩ := List.mem_map.mp ha
    simp [note]
  have hlogged : ∀ log : List LogLine,
      ∀ a ∈ log.map Action.logged, ∀ number b, a ≠ .engine number b := by
    intro log a ha number b
    obtain ⟨line, -, rfl⟩ := List.mem_map.mp ha
    simp
  unfold start at h
  split at h
  · cases h
    simp
  · split at h
    · cases h
      simp
    · split at h
      · cases h
        exact List.forall_mem_append.mpr ⟨hdiscarded, hlogged _⟩
      · cases h
        exact List.forall_mem_append.mpr
          ⟨List.forall_mem_append.mpr ⟨hdiscarded, hlogged _⟩, by simp⟩
      · rename_i tls log htls
        split at h
        · cases h
          exact List.forall_mem_append.mpr ⟨hdiscarded, hlogged log⟩
        · cases h
          exact List.forall_mem_append.mpr
            ⟨List.forall_mem_append.mpr ⟨hdiscarded, hlogged log⟩, by simp [note]⟩

end
end Manager

namespace Service

inductive Begun (s : Service) (session : Session) : Except StartStop Unit → Service → Prop where
  | busy (serving : s.manager.isServing = true) (active : s.isActive = true) :
    Begun s session (.error (.failed .alreadyActive)) s
  | failed {stop : StartStop} {t : Service} (free : (s.manager.isServing && s.isActive) = false)
    (started : (s.manager.give session).1.Started s.manager.sessions.length (.error stop) t.manager)
    (book : t.recorder.book = s.recorder.book.apply .clear) (current : t.current = s.current) :
    Begun s session (.error stop) t
  | hosts {t : Service} (free : (s.manager.isServing && s.isActive) = false)
    (started : (s.manager.give session).1.Started s.manager.sessions.length (.ok ()) t.manager)
    (book : t.recorder.book = s.recorder.book.apply .clear)
    (current : t.current = some s.manager.sessions.length) : Begun s session (.ok ()) t

section
variable {s t : Service} {time : Timestamp} {d : Draw} {session : Session}
  {result : Except StartStop Unit} {acts : List Manager.Action} {stop : StartStop}

theorem absorbAll_current (time : Timestamp) (s : Service) (acts : List Manager.Action) :
    (absorbAll time s acts).current = s.current := by
  induction acts generalizing s with
  | nil => rfl
  | cons a acts ih =>
    refine (ih (absorb time s a)).trans ?_
    unfold absorb
    cases a with
    | reported e c => rfl
    | logged line => rfl
    | engine k b => cases hb : (Manager.Action.engine k b).line? <;> rfl

theorem begun_of_start (h : s.start time d session = (result, t, acts)) :
    Begun s session result t := by
  unfold start at h
  split at h
  · rename_i hbusy
    cases h
    simp only [Bool.and_eq_true] at hbusy
    exact .busy hbusy.1 hbusy.2
  · rename_i hfree
    replace hfree : (s.manager.isServing && s.isActive) = false := by simpa using hfree
    cases hstart : (s.manager.give session).1.start d (s.manager.give session).2 with
    | mk outcome rest =>
      obtain ⟨after, said⟩ := rest
      have hstarted := Manager.started_of_start hstart
      obtain ⟨hm, hb⟩ := absorbAll_quiet time
        { s with recorder := (s.recorder.apply .clear).2, manager := after } said
        (Manager.start_quiet hstart)
      have hc := absorbAll_current time
        { s with recorder := (s.recorder.apply .clear).2, manager := after } said
      replace hb := hb.trans (Recorder.apply_book s.recorder .clear)
      simp only [hstart] at h
      cases outcome with
      | error e =>
        cases h
        exact .failed hfree (hm ▸ hstarted) hb hc
      | ok _ =>
        cases h
        exact .hosts hfree (hm ▸ hstarted) hb rfl

/-- What a failed start leaves: the servers, the current session and all sessions as they were.
The registry is kept only when the service was busy with another session. -/
structure Unstarted (s t : Service) (stop : StartStop) : Prop where
  engines : t.manager.engines = s.manager.engines
  held : t.manager.held = s.manager.held
  current : t.current = s.current
  sessions : ∀ i, i < s.manager.sessions.length → t.manager.sessions[i]? = s.manager.sessions[i]?
  busy : stop = .failed .alreadyActive → t = s
  cleared : stop ≠ .failed .alreadyActive → t.recorder.registry = .empty ∧
    t.recorder.feed.published = .cleared :: s.recorder.feed.published

theorem failed_manager {m after : Manager} {i : Nat} (h : m.Started i (.error stop) after) :
    after = m ∧ stop ≠ .failed .alreadyActive := by
  cases h with
  | unknown => exact ⟨rfl, by simp⟩
  | serving => exact ⟨rfl, by simp⟩
  | unready off _ idle =>
    refine ⟨rfl, ?_⟩
    rintro rfl
    cases idle

/-- A start that fails, whatever state the service is in. -/
theorem start_failed (h : s.start time d session = (.error stop, t, acts)) :
    Unstarted s t stop := by
  cases begun_of_start h with
  | busy serving active =>
    exact ⟨rfl, rfl, rfl, fun _ _ => rfl, fun _ => rfl, fun hne => absurd rfl hne⟩
  | failed free started book current =>
    obtain ⟨hsame, hreason⟩ := failed_manager started
    refine ⟨by rw [hsame]; rfl, by rw [hsame]; rfl, current, fun i hi => ?_,
      fun heq => absurd heq hreason, fun _ => ?_⟩
    · rw [hsame]
      exact List.getElem?_append_left hi
    · exact ⟨congrArg Book.registry book, congrArg Book.published book⟩

def shopSession : Session := ⟨"127.0.0.1", 8080, "example.org", 80, false, none, false⟩

def sealedSession : Session :=
  ⟨"127.0.0.1", 8080, "example.org", 443, true, some "example.org", false⟩

def visitSteps : List Step :=
  [.start default shopSession, .engine 0 (.run .begun), .engine 0 (.run .bound),
    .engine 0 (.run (.located default)), .engine 0 (.run .opened),
    .engine 0 (.run (.accepted ⟨.ofNat 5, default, default⟩ .admitted)), .release,
    .engine 0 (.run .stopSeen), .finishStop 0]

def visited : Option (Service × List Manager.Action) :=
  runAll (step · default 0) visitSteps (make (.make .default (.ofTuning .default) none default))

/-- Without an issuer the next session cannot start, and the client that was captured is lost. -/
theorem start_failed_visited : ∃ s acts t said, visited = some (s, acts) ∧
    s.recorder.registry.order = [.ofNat 5] ∧
    s.start default default sealedSession =
      (.error (.failed (.certificate TlsContext.noIssuer)), t, said) ∧
    t.recorder.registry = .empty ∧ Unstarted s t (.failed (.certificate TlsContext.noIssuer)) := by
  have hvisited : visited.map (fun r =>
      (r.1.recorder.registry.order, (r.1.start default default sealedSession).1)) =
      some ([.ofNat 5], .error (.failed (.certificate TlsContext.noIssuer))) := rfl
  obtain ⟨⟨s, acts⟩, hrun, heq⟩ := Option.map_eq_some_iff.mp hvisited
  obtain ⟨horder, hfails⟩ := Prod.mk.inj heq
  have hstart : s.start default default sealedSession =
      (.error (.failed (.certificate TlsContext.noIssuer)),
        (s.start default default sealedSession).2) := Prod.ext hfails rfl
  have hleft := start_failed hstart
  exact ⟨s, acts, _, _, hrun, horder, hstart, (hleft.cleared (by simp)).1, hleft⟩

end
end Service
end Wiretap
