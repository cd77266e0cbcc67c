import Wiretap.Proofs.Manager.Slot

/-! The flag of a session is raised when a server of the session takes the slot. It is taken
down by a call to stop, and by each accept task of the session at its end. An accept task that
ends late may belong to an earlier server, and takes the flag of the later one down. -/

set_option autoImplicit false

namespace Wiretap

def ServerState.isLive : ServerState → Bool
  | .created => true
  | .bound => true
  | .accepting => true
  | .stopping => false
  | .stopped => false

namespace Engine

def Step.isShutdown : Step → Bool
  | .stopAccepting => true
  | .closePermits _ => true
  | .detach => true
  | .run .dropped => true
  | _ => false

structure Unstopped (e : Engine) : Prop where
  live : e.run ≠ .ended → e.server.state.isLive = true
  ended : e.run = .ended → e.server.state = .stopped

section
variable {e f : Engine} {step : Step}

theorem advance_live {s : Server} {next : ServerState} (h : s.state.isLive = true)
    (hnext : next.isLive = true) : (s.advance next).state.isLive = true := by
  unfold Server.advance
  split
  · exact h
  · exact hnext

theorem shutdown_endless (h : step.isShutdown = true) : Manager.endsTask e f step = false := by
  unfold Step.isShutdown at h
  split at h <;> first | rfl | cases h

theorem steers_over (h : Steers e step f) (hs : step.isOwn = true ∨ step.isShutdown = true)
    (he : e.run = .ended) : f.run = .ended := by
  cases h with
  | meets move =>
    rw [he] at move
    exact absurd rfl (Server.Tenure.move_failure 0 move).1
  | called ended server run => rcases hs with hs | hs <;> cases hs
  | stopped server run => rw [run, he]
  | other on server run => rw [run, he]

theorem own_ends (h : Steers e step f) (hs : step.isOwn = true) :
    Manager.endsTask e f step = true ↔ e.run ≠ .ended ∧ f.run = .ended := by
  constructor
  · intro he
    obtain ⟨hon, hoff, -⟩ := endsTask_ended he
    exact ⟨hon, hoff⟩
  · rintro ⟨hon, hoff⟩
    cases h with
    | @meets event f said move =>
      have hkept : event ≠ .dropped := by
        rintro rfl
        cases hs
      cases event <;> first | exact absurd rfl hkept | simp [Manager.endsTask, hon, hoff]
    | called ended server run => exact absurd ended hon
    | stopped server run => exact absurd (run ▸ hoff) hon
    | other on server run => exact absurd (run ▸ hoff) hon

/-- A run that goes on by itself advances its server, and one that ends leaves it stopped. -/
theorem move_unstopped {s q : Server} {phase next : Server.Phase} {event : Server.Event}
    {said : List Server.Action} (m : Server.Move s phase event q next said)
    (hkept : event ≠ .dropped) (hlive : phase ≠ .ended → s.state.isLive = true) :
    (next ≠ .ended → q.state.isLive = true) ∧ (next = .ended → q.state = .stopped) := by
  cases m with
  | begins => exact ⟨fun _ => hlive (by simp), by simp⟩
  | unbegun => exact absurd rfl hkept
  | bound => exact ⟨fun _ => hlive (by simp), by simp⟩
  | locates a line =>
    have hlocated : (s.locate a).state.isLive = true := hlive (by simp)
    exact ⟨fun _ => advance_live hlocated rfl, by simp⟩
  | opens a => exact ⟨fun _ => advance_live (hlive (by simp)) rfl, by simp⟩
  | accepts => exact ⟨fun _ => hlive (by simp), by simp⟩
  | rests => exact ⟨fun _ => hlive (by simp), by simp⟩
  | wakes => exact ⟨fun _ => hlive (by simp), by simp⟩
  | _ => exact ⟨fun hon => absurd rfl hon, fun _ => rfl⟩

theorem own_unstopped (h : Steers e step f) (hs : step.isOwn = true) (hu : Unstopped e) :
    Unstopped f := by
  cases h with
  | called ended server run => cases hs
  | stopped server run => cases hs
  | other on server run =>
    constructor
    · rw [server, run]
      exact hu.live
    · rw [server, run]
      exact hu.ended
  | @meets event f said move =>
    have hkept : event ≠ .dropped := by
      rintro rfl
      cases hs
    obtain ⟨hlive, hended⟩ := move_unstopped move hkept hu.live
    exact ⟨hlive, hended⟩

end
end Engine

namespace Slot

inductive Mark where
  | hosted (engine : Nat) (left : List Nat)
  | ended (engine : Nat)

def unended (m : Manager) : List Nat :=
  (List.range m.engines.length).filter fun k => (m.engines[k]?).any (·.engine.run != .ended)

def marks (before after : Manager) : Turn → List Mark
  | .start _ _ =>
    if before.engines.length < after.engines.length then
      [.hosted before.engines.length (unended before)]
    else []
  | .own k step =>
    if (before.engines[k]?).any fun g => (after.engines[k]?).any fun h =>
        Manager.endsTask g.engine h.engine step then [.ended k]
    else []
  | _ => []

def watch (t : Slot) (input : Nat × Turn) : Option (Slot × List Mark) :=
  (t.stepAt input).map fun (u, _) => (u, marks t.manager u.manager input.2)

def latecomers (log : List Mark) : List Nat :=
  log.foldl (fun late mark => match mark with
    | .hosted _ _ => []
    | .ended k => late ++ [k]) []

def rivals (log : List Mark) : List Nat :=
  log.foldl (fun left mark => match mark with
    | .hosted _ others => others
    | .ended _ => left) []

def sessionOf (m : Manager) (k : Nat) : Option Nat := (m.engines[k]?).map (·.session)

def Holds (m : Manager) (k : Nat) (g : Manager.Hosted) : Prop :=
  m.held = some k ∧ m.engines[k]? = some g

/-- How the flags of sessions stand along all turns. Only the session of a held server can be
active, and it is as long as none but accept tasks of other sessions have ended. -/
structure Flags (m : Manager) (log : List Mark) : Prop where
  given : ∀ (l : Nat) (g : Manager.Hosted), m.engines[l]? = some g → g.session < m.sessions.length
  upright : ∀ k g, Holds m k g → g.engine.Unstopped
  only : ∀ (l : Nat) (g : Manager.Hosted), m.engines[l]? = some g → m.isActive g.session = true →
    ∃ k h, Holds m k h ∧ h.session = g.session ∧ h.engine.run ≠ .ended
  follows : ∀ k g, Holds m k g → g.engine.run ≠ .ended →
    (m.isActive g.session = true ↔ ∀ l ∈ latecomers log, sessionOf m l ≠ some g.session)
  left : ∀ k, m.held = some k → ∀ (l : Nat) (g : Manager.Hosted), m.engines[l]? = some g →
    g.engine.run ≠ .ended → l = k ∨ l ∈ rivals log
  late : ∀ k g, Holds m k g → ∀ l ∈ latecomers log,
    l ∈ rivals log ∨ l = k ∧ g.engine.run = .ended

section
variable {m after : Manager} {log : List Mark} {now k i : Nat} {step : Engine.Step}
  {acts : List Manager.Action} {host : Manager.Hosted} {f : Engine}

@[simp] theorem latecomers_hosted (log : List Mark) (k : Nat) (left : List Nat) :
    latecomers (log ++ [.hosted k left]) = [] := by
  simp [latecomers]

@[simp] theorem latecomers_ended (log : List Mark) (k : Nat) :
    latecomers (log ++ [.ended k]) = latecomers log ++ [k] := by
  simp [latecomers]

@[simp] theorem rivals_hosted (log : List Mark) (k : Nat) (left : List Nat) :
    rivals (log ++ [.hosted k left]) = left := by
  simp [rivals]

@[simp] theorem rivals_ended (log : List Mark) (k : Nat) :
    rivals (log ++ [.ended k]) = rivals log := by
  simp [rivals]

def endMark (k : Nat) (ends : Bool) : List Mark := if ends then [.ended k] else []

theorem mem_latecomers {l : Nat} {ends : Bool} : l ∈ latecomers (log ++ endMark k ends) ↔
    l ∈ latecomers log ∨ ends = true ∧ l = k := by
  cases ends <;> simp [endMark]

@[simp] theorem rivals_endMark (log : List Mark) (k : Nat) (ends : Bool) :
    rivals (log ++ endMark k ends) = rivals log := by
  cases ends <;> simp [endMark]

theorem mem_unended {l : Nat} {g : Manager.Hosted} (hl : m.engines[l]? = some g)
    (hon : g.engine.run ≠ .ended) : l ∈ unended m := by
  obtain ⟨hlt, -⟩ := List.getElem?_eq_some_iff.mp hl
  refine List.mem_filter.mpr ⟨List.mem_range.mpr hlt, ?_⟩
  rw [hl]
  simpa using hon

structure Ran (m after : Manager) (k : Nat) (step : Engine.Step) (host : Manager.Hosted)
    (f : Engine) : Prop where
  before : m.engines[k]? = some host
  steers : Engine.Steers host.engine step f
  engines : after.engines = m.engines.set k { host with engine := f }
  held : after.held = m.held
  sessions : after.sessions = if Manager.endsTask host.engine f step then
    (m.setActive host.session false).sessions else m.sessions

theorem engineStep_ran (h : m.engineStep now k step = some (after, acts)) :
    ∃ host f, Ran m after k step host f := by
  unfold Manager.engineStep at h
  obtain ⟨host, hk, h⟩ := Option.bind_eq_some_iff.mp h
  obtain ⟨⟨f, done⟩, hs, h⟩ := Option.bind_eq_some_iff.mp h
  cases h
  refine ⟨host, f, hk, Engine.step_steers hs, ?_, ?_, ?_⟩ <;> split <;> rfl

theorem ran_at (h : Ran m after k step host f) :
    after.engines[k]? = some { host with engine := f } := by
  obtain ⟨hlt, -⟩ := List.getElem?_eq_some_iff.mp h.before
  rw [h.engines, List.getElem?_set_self hlt]

theorem ran_other (h : Ran m after k step host f) {l : Nat} (hl : l ≠ k) :
    after.engines[l]? = m.engines[l]? := by
  rw [h.engines, List.getElem?_set_ne (Ne.symm hl)]

theorem ran_sessionOf (h : Ran m after k step host f) (l : Nat) :
    sessionOf after l = sessionOf m l := by
  unfold sessionOf
  by_cases hl : l = k
  · subst hl
    rw [ran_at h, h.before]
    rfl
  · rw [ran_other h hl]

theorem ran_active (h : Ran m after k step host f) (hhost : host.session < m.sessions.length)
    (i : Nat) : after.isActive i = true ↔ m.isActive i = true ∧
      ¬(Manager.endsTask host.engine f step = true ∧ host.session = i) := by
  have hsessions := h.sessions
  cases hends : Manager.endsTask host.engine f step with
  | false =>
    rw [hends] at hsessions
    rw [Manager.active_same hsessions]
    simp
  | true =>
    rw [hends, if_pos rfl] at hsessions
    rw [Manager.active_same hsessions]
    by_cases hi : host.session = i
    · subst hi
      simp [Manager.active_self m false hhost]
    · simp [Manager.active_other m false hi, hi]

theorem ran_back (h : Ran m after k step host f)
    (hs : step.isOwn = true ∨ step.isShutdown = true) {l : Nat} {g : Manager.Hosted}
    (hl : after.engines[l]? = some g) : ∃ g', m.engines[l]? = some g' ∧ g.session = g'.session ∧
      (g.engine.run ≠ .ended → g'.engine.run ≠ .ended) := by
  obtain ⟨g', hg', hsession, ⟨-, rfl⟩ | ⟨-, rfl, rfl⟩⟩ :=
    Manager.replaced_back h.before h.engines hl
  · exact ⟨g, hg', rfl, id⟩
  · exact ⟨g', hg', hsession, fun hon hoff => hon (Engine.steers_over h.steers hs hoff)⟩

/-- An engine goes on, and takes the flag of its session down when its accept task ends. -/
theorem flags_ran (h : Flags m log) (hr : Ran m after k step host f)
    (hs : step.isOwn = true ∨ step.isShutdown = true ∧ m.held ≠ some k) :
    Flags after (log ++ endMark k (Manager.endsTask host.engine f step)) := by
  have hkind : step.isOwn = true ∨ step.isShutdown = true := hs.imp_right And.left
  have hactive := ran_active hr (h.given k host hr.before)
  have hlength : after.sessions.length = m.sessions.length := by
    rw [hr.sessions]
    split <;> simp [Manager.setActive]
  have hown : m.held = some k → step.isOwn = true := fun hk =>
    hs.resolve_right fun hshut => hshut.2 hk
  refine ⟨fun l g hl => ?_, fun l g hl => ?_, fun l g hl hon => ?_, fun l g hl hon => ?_,
    fun n hn l g hl hon => ?_, fun n g hn l hl => ?_⟩
  · obtain ⟨g', hg', hsession, -⟩ := ran_back hr hkind hl
    rw [hlength, hsession]
    exact h.given l g' hg'
  · obtain ⟨hheld, hg⟩ := hl
    rw [hr.held] at hheld
    by_cases hlk : l = k
    · subst hlk
      obtain rfl := Option.some.inj (hg.symm.trans (ran_at hr))
      exact Engine.own_unstopped hr.steers (hown hheld) (h.upright l host ⟨hheld, hr.before⟩)
    · rw [ran_other hr hlk] at hg
      exact h.upright l g ⟨hheld, hg⟩
  · obtain ⟨g', hg', hsession, -⟩ := ran_back hr hkind hl
    obtain ⟨hbefore, hnot⟩ := (hactive g.session).mp hon
    obtain ⟨n, x, ⟨hheld, hx⟩, hxs, hrun⟩ := h.only l g' hg' (hsession ▸ hbefore)
    by_cases hnk : n = k
    · subst hnk
      obtain rfl := Option.some.inj (hx.symm.trans hr.before)
      refine ⟨n, _, ⟨hr.held ▸ hheld, ran_at hr⟩, hxs.trans hsession.symm, fun hoff => ?_⟩
      -- A held engine ends by itself, and then its session is no longer active.
      exact hnot
        ⟨(Engine.own_ends hr.steers (hown hheld)).mpr ⟨hrun, hoff⟩, hxs.trans hsession.symm⟩
    · exact ⟨n, x, ⟨hr.held ▸ hheld, (ran_other hr hnk).trans hx⟩, hxs.trans hsession.symm, hrun⟩
  · obtain ⟨hheld, hg⟩ := hl
    obtain ⟨g', hg', hsession, hback⟩ := ran_back hr hkind hg
    have hfollows := h.follows l g' ⟨hr.held ▸ hheld, hg'⟩ (hback hon)
    have hhost : sessionOf m k = some host.session := by rw [sessionOf, hr.before]; rfl
    rw [hactive, hsession, hfollows]
    simp only [mem_latecomers, ran_sessionOf hr]
    constructor
    · rintro ⟨hall, hnot⟩ l (hl | ⟨hends, rfl⟩)
      · exact hall l hl
      · rw [hhost]
        exact fun hsame => hnot ⟨hends, Option.some.inj hsame⟩
    · intro hall
      refine ⟨fun l hl => hall l (.inl hl), fun hown => ?_⟩
      exact hall k (.inr ⟨hown.1, rfl⟩) (by rw [hhost, hown.2])
  · obtain ⟨g', hg', -, hback⟩ := ran_back hr hkind hl
    rw [rivals_endMark]
    exact h.left n (hr.held ▸ hn) l g' hg' (hback hon)
  · obtain ⟨hheld, hg⟩ := hn
    rw [hr.held] at hheld
    rw [rivals_endMark]
    rcases mem_latecomers.mp hl with hl | ⟨hends, rfl⟩
    · obtain ⟨g', hg', -, hback⟩ := ran_back hr hkind hg
      refine (h.late n g' ⟨hheld, hg'⟩ l hl).imp_right fun hend => ⟨hend.1, ?_⟩
      by_contra hon
      exact hback hon hend.2
    · obtain ⟨hon, hoff, -⟩ := Engine.endsTask_ended hends
      refine (h.left n hheld l host hr.before hon).symm.imp_right fun hln => ⟨hln, ?_⟩
      obtain rfl := hln
      obtain rfl := Option.some.inj (hg.symm.trans (ran_at hr))
      exact hoff

theorem flags_off (h : Flags m log) (hoff : m.isServing = false) {l : Nat} {g : Manager.Hosted}
    (hl : m.engines[l]? = some g) : m.isActive g.session = false := by
  rw [Bool.eq_false_iff]
  intro hon
  obtain ⟨k, x, ⟨hheld, hx⟩, -, hrun⟩ := h.only l g hl hon
  have hlive := (h.upright k x ⟨hheld, hx⟩).live hrun
  have hserving : m.isServing = true := Manager.serving_iff.mpr ⟨k, x, hheld, hx, fun hstopped => by
    rw [hstopped] at hlive
    cases hlive⟩
  rw [hoff] at hserving
  cases hserving

theorem flags_host {s : Session} {tls : TlsContext} {pool : Pool} (h : Flags m log)
    (hoff : m.isServing = false) (hi : i < m.sessions.length) :
    Flags (m.host i s tls pool) (log ++ [.hosted m.engines.length (unended m)]) := by
  have hnew : (m.host i s tls pool).engines[m.engines.length]? =
      some ⟨i, .make (m.engineSetup s tls) pool⟩ := List.getElem?_concat_length
  have hholds : ∀ {k : Nat} {g : Manager.Hosted}, Holds (m.host i s tls pool) k g →
      k = m.engines.length ∧ g = ⟨i, .make (m.engineSetup s tls) pool⟩ := by
    rintro k g ⟨hheld, hg⟩
    obtain rfl : m.engines.length = k := Option.some.inj hheld
    exact ⟨rfl, Option.some.inj (hg.symm.trans hnew)⟩
  refine ⟨fun l g hl => ?_, fun k g hk => ?_, fun l g hl hon => ?_, fun k g hk _ => ?_,
    fun k hk l g hl hon => ?_, fun k g hk l hl => ?_⟩
  · have hlength : (m.host i s tls pool).sessions.length = m.sessions.length := by
      simp [Manager.host, Manager.setActive]
    rw [hlength]
    rcases Manager.host_engines hl with hold | ⟨-, rfl⟩
    · exact h.given l g hold
    · exact hi
  · obtain ⟨-, rfl⟩ := hholds hk
    exact ⟨fun _ => rfl, fun hended => by cases hended⟩
  · refine ⟨m.engines.length, _, ⟨rfl, hnew⟩, ?_, by simp [Engine.make]⟩
    by_contra hother
    rcases Manager.host_engines hl with hold | ⟨-, rfl⟩
    · have hsame : (m.host i s tls pool).isActive g.session = m.isActive g.session :=
        Manager.active_other m true hother
      rw [hsame, flags_off h hoff hold] at hon
      cases hon
    · exact hother rfl
  · obtain ⟨-, rfl⟩ := hholds hk
    have hraised : (m.host i s tls pool).isActive i = true := Manager.active_self m true hi
    simp [hraised]
  · rw [rivals_hosted]
    rcases Manager.host_engines hl with hold | ⟨rfl, -⟩
    · exact .inr (mem_unended hold hon)
    · exact .inl (Option.some.inj hk)
  · rw [latecomers_hosted] at hl
    cases hl

theorem flags_release {k : Nat} (h : Flags m log) (hr : m.release now = some (k, after, acts)) :
    Flags after log := by
  obtain ⟨hheld, host, hk, hengines, hnone, hsessions, -⟩ := Manager.release_spec hr
  have hback : ∀ {l : Nat} {g : Manager.Hosted}, after.engines[l]? = some g →
      ∃ g', m.engines[l]? = some g' ∧ g.session = g'.session := fun hl =>
    let ⟨g', hg', hsession, _⟩ := Manager.replaced_back hk hengines hl
    ⟨g', hg', hsession⟩
  have hempty : ∀ n, after.held ≠ some n := by simp [hnone]
  refine ⟨fun l g hl => ?_, fun n _ hn => absurd hn.1 (hempty n), fun l g hl hon => ?_,
    fun n _ hn => absurd hn.1 (hempty n), fun n hn => absurd hn (hempty n),
    fun n _ hn => absurd hn.1 (hempty n)⟩
  · obtain ⟨g', hg', hsession⟩ := hback hl
    have hlength : after.sessions.length = m.sessions.length := by
      simp [hsessions, Manager.setActive]
    rw [hlength, hsession]
    exact h.given l g' hg'
  · -- Only the session that was held can have been active, and now it is not.
    obtain ⟨g', hg', hsession⟩ := hback hl
    rw [Manager.active_same hsessions, hsession] at hon
    by_cases hsame : host.session = g'.session
    · rw [← hsame, Manager.active_self m false (h.given k host hk)] at hon
      cases hon
    · rw [Manager.active_other m false hsame] at hon
      obtain ⟨n, x, ⟨hheld', hx⟩, hxs, -⟩ := h.only l g' hg' hon
      obtain rfl := Option.some.inj (hheld.symm.trans hheld')
      obtain rfl := Option.some.inj (hk.symm.trans hx)
      exact absurd hxs hsame

theorem flags_give (h : Flags m log) (session : Session) : Flags (m.give session).1 log := by
  have hsame : ∀ {l : Nat} {g : Manager.Hosted}, m.engines[l]? = some g →
      (m.give session).1.isActive g.session = m.isActive g.session := fun hl => by
    simp [Manager.isActive, Manager.give, List.getElem?_append_left (h.given _ _ hl)]
  refine ⟨fun l g hl => ?_, h.upright, fun l g hl hon => ?_, fun k g hk hon => ?_, h.left, h.late⟩
  · have hlt := h.given l g hl
    simp only [Manager.give, List.length_append]
    omega
  · rw [hsame hl] at hon
    exact h.only l g hl hon
  · rw [hsame hk.2]
    exact h.follows k g hk hon

end

section
variable {t u : Slot} {log : List Mark} {sights said : List Sight} {now n : Nat} {s : Stop}

/-- A call to stop that goes on takes steps of its own engine only, and ends no accept task. -/
theorem resume_carries {late : Bool} (hr : t.resume now n s late = some (u, said)) :
    u.manager = t.manager ∨ ∃ step acts, step.isShutdown = true ∧
      t.manager.engineStep now s.engine step = some (u.manager, acts) := by
  obtain ⟨engine, stage, aborted⟩ := s
  cases stage with
  | joining =>
    obtain ⟨-, -, acts, hstep⟩ := carry_eq hr
    exact .inr ⟨_, acts, rfl, hstep⟩
  | draining =>
    cases late with
    | true =>
      obtain ⟨-, -, acts, hstep⟩ := carry_eq hr
      exact .inr ⟨_, acts, rfl, hstep⟩
    | false =>
      cases hr
      exact .inl rfl
  | closing =>
    cases late with
    | true =>
      obtain ⟨⟨v, more⟩, hc, heq⟩ := Option.map_eq_some_iff.mp hr
      obtain ⟨-, -, acts, hstep⟩ := carry_eq hc
      cases heq
      exact .inr ⟨_, acts, rfl, hstep⟩
    | false =>
      cases hr
      exact .inl rfl
  | returned outcome => cases hr

theorem flags_shutdown {m after : Manager} {k : Nat} {step : Engine.Step}
    {acts : List Manager.Action} (h : Flags m log)
    (hs : m.engineStep now k step = some (after, acts)) (hshut : step.isShutdown = true)
    (hfree : m.held ≠ some k) : Flags after log := by
  obtain ⟨host, f, hran⟩ := engineStep_ran hs
  have hkept := flags_ran h hran (.inr ⟨hshut, hfree⟩)
  rwa [Engine.shutdown_endless hshut, endMark, if_neg Bool.false_ne_true, List.append_nil] at hkept

theorem start_flags {m : Manager} {d : Draw} {i : Nat} (h : Flags m log) :
    Flags (m.start d i).2.1 (log ++ marks m (m.start d i).2.1 (.start d i)) := by
  have hstarted := Manager.start_started m d i
  have hidle : Flags m (log ++ marks m m (.start d i)) := by simpa [marks] using h
  generalize (m.start d i).1 = result, (m.start d i).2.1 = after at hstarted
  cases hstarted with
  | unknown => exact hidle
  | serving => exact hidle
  | unready => exact hidle
  | hosts off s tls pool present made =>
    have hgrown : m.engines.length < (m.host i s tls pool).engines.length := by
      simp [Manager.host, Manager.setActive]
    rw [marks, if_pos hgrown]
    exact flags_host h off (List.getElem?_eq_some_iff.mp present).1

/-- What one turn keeps. Calls to stop have engines that are not held. -/
theorem step_flags {turn : Turn} (hkept : Kept t sights) (h : Flags t.manager log)
    (hs : t.step now turn = some (u, said)) :
    Flags u.manager (log ++ marks t.manager u.manager turn) := by
  cases turn with
  | give session =>
    cases hs
    simpa [marks] using flags_give h session
  | start d i =>
    simp only [step, Option.ite_none_right_eq_some] at hs
    obtain ⟨-, hs⟩ := hs
    cases hs
    exact start_flags h
  | stop =>
    replace hs : t.stop now = (u, said) := Option.some.inj hs
    unfold stop at hs
    split at hs
    · cases hs
      simpa [marks] using h
    · rename_i k manager acts hrelease
      cases hs
      simpa [marks] using flags_release h hrelease
  | own k engineStep =>
    simp only [step, Option.ite_none_right_eq_some] at hs
    obtain ⟨hown, hs⟩ := hs
    obtain ⟨⟨manager, acts⟩, hengine, heq⟩ := Option.map_eq_some_iff.mp hs
    cases heq
    obtain ⟨host, f, hran⟩ := engineStep_ran hengine
    have hmarks : marks t.manager manager (.own k engineStep) =
        endMark k (Manager.endsTask host.engine f engineStep) := by
      simp [marks, endMark, hran.before, ran_at hran]
    rw [hmarks]
    exact flags_ran h hran (.inl hown)
  | resume l late =>
    obtain ⟨s, hl, hresume⟩ := Option.bind_eq_some_iff.mp hs
    have hfree := (hkept.taken l s (Option.join_eq_some_iff.mp hl)).2
    rcases resume_carries hresume with hsame | ⟨engineStep, acts, hshut, hengine⟩
    · simpa [marks, hsame] using h
    · simpa [marks] using flags_shutdown h hengine hshut hfree
  | drop l =>
    obtain ⟨s, hl, hdrop⟩ := Option.bind_eq_some_iff.mp hs
    have hfree := (hkept.taken l s (Option.join_eq_some_iff.mp hl)).2
    simp only [Option.ite_none_right_eq_some] at hdrop
    obtain ⟨-, -, acts, hengine⟩ := carry_eq hdrop.2
    have hshut : (Engine.Step.run .dropped).isShutdown = true := rfl
    simpa [marks] using flags_shutdown h hengine hshut hfree

theorem run_flags {m : Manager} {turns : List (Nat × Turn)} (hnone : m.held = none)
    (hnew : m.engines = []) (h : runAll watch turns ⟨m, []⟩ = some (t, log)) :
    Flags t.manager log := by
  suffices hall : (∃ sights, Kept t sights) ∧ Flags t.manager log from hall.2
  have hidle : runAll stepAt [] ⟨m, []⟩ = some (⟨m, []⟩, []) := rfl
  refine run_invariant (P := fun _ t log => (∃ sights, Kept t sights) ∧ Flags t.manager log)
    ?_ ⟨⟨[], run_kept hnone hidle⟩, ?_⟩ h
  · rintro - t log ⟨now, turn⟩ u marked ⟨⟨sights, hkept⟩, hflags⟩ hs
    obtain ⟨⟨v, said⟩, hstep, heq⟩ := Option.map_eq_some_iff.mp hs
    cases heq
    exact ⟨⟨sights ++ said, step_kept hkept hstep⟩, step_flags hkept hflags hstep⟩
  · constructor <;> simp [Holds, hnone, hnew]

end

/-- How the flags of sessions follow the held server. -/
structure Followed (m : Manager) (log : List Mark) : Prop where
  -- The session of a live server is active unless the accept task of an earlier server of that
  -- session has ended since the start.
  follows : ∀ k g, Holds m k g → g.engine.server.state.isLive = true →
    (m.isActive g.session = true ↔ ∀ l ∈ latecomers log, sessionOf m l ≠ some g.session)
  -- It is active for certain if no accept task of the session was left at the start.
  alone : ∀ k g, Holds m k g → g.engine.server.state.isLive = true →
    (∀ l ∈ rivals log, sessionOf m l ≠ some g.session) → m.isActive g.session = true
  -- Only the session of a live server is active.
  only : ∀ (l : Nat) (g : Manager.Hosted), m.engines[l]? = some g → m.isActive g.session = true →
    ∃ k h, Holds m k h ∧ h.session = g.session ∧ h.engine.server.state.isLive = true
  -- Without a server no session that was ever started is active.
  idle : m.held = none → ∀ (l : Nat) (g : Manager.Hosted), m.engines[l]? = some g →
    m.isActive g.session = false

theorem flags_followed {m : Manager} {log : List Mark} (h : Flags m log) : Followed m log := by
  have hon : ∀ k g, Holds m k g → g.engine.server.state.isLive = true → g.engine.run ≠ .ended :=
    fun k g hk hlive hoff => by
      rw [(h.upright k g hk).ended hoff] at hlive
      cases hlive
  refine ⟨fun k g hk hlive => h.follows k g hk (hon k g hk hlive), fun k g hk hlive hfree => ?_,
    fun l g hl hactive => ?_, fun hnone l g hl => ?_⟩
  · refine (h.follows k g hk (hon k g hk hlive)).mpr fun l hl => ?_
    rcases h.late k g hk l hl with hrival | ⟨-, hoff⟩
    · exact hfree l hrival
    · exact absurd hoff (hon k g hk hlive)
  · obtain ⟨k, x, hk, hsession, hrun⟩ := h.only l g hl hactive
    exact ⟨k, x, hk, hsession, (h.upright k x hk).live hrun⟩
  · rw [Bool.eq_false_iff]
    intro hactive
    obtain ⟨k, x, ⟨hheld, -⟩, -⟩ := h.only l g hl hactive
    rw [hnone] at hheld
    cases hheld

/-- However starts, calls to stop and accept tasks follow each other. -/
theorem flags_follow (t : Tuning) (p : ShutdownPolicy) (issuer : Option Issuer)
    (capture : Manager.Capture) {turns : List (Nat × Turn)} {u : Slot} {log : List Mark}
    (h : runAll watch turns ⟨.make t p issuer capture, []⟩ = some (u, log)) :
    Followed u.manager log :=
  flags_followed (run_flags rfl rfl h)

def listeningTurns (k : Nat) : List (Nat × Turn) :=
  [(1, .own k (.run .begun)), (1, .own k (.run .bound)), (1, .own k (.run (.located default))),
    (1, .own k (.run .opened))]

def openingTurns (k : Nat) : List (Nat × Turn) := (0, .start default 0) :: listeningTurns k

def restartTurns : List (Nat × Turn) :=
  (0, .give Service.shopSession) :: openingTurns 0 ++
    [(2, .stop), (2, .own 0 (.run .stopSeen))] ++ openingTurns 1

theorem flags_follow_restart : ∃ u log g,
    runAll watch restartTurns ⟨.make .default .default none default, []⟩ = some (u, log) ∧
    Followed u.manager log ∧ Holds u.manager 1 g ∧ g.engine.server.state = .accepting ∧
    u.manager.isActive 0 = true := by
  have hrun := show ∃ u log g,
      runAll watch restartTurns ⟨.make .default .default none default, []⟩ = some (u, log) ∧
      Holds u.manager 1 g ∧ g.session = 0 ∧ g.engine.server.state = .accepting ∧ rivals log = []
    from ⟨_, _, _, rfl, ⟨rfl, rfl⟩, rfl, rfl, rfl⟩
  obtain ⟨u, log, g, hrun, hk, hsession, haccepting, hfree⟩ := hrun
  have hfollowed := flags_follow .default .default none default hrun
  refine ⟨u, log, g, hrun, hfollowed, hk, haccepting, ?_⟩
  rw [← hsession]
  exact hfollowed.alone 1 g hk (by rw [haccepting]; rfl) (by simp [hfree])

/-- A session is started again before the accept task of its first server has seen the stop. The
task ends before the second server listens. -/
def overlapTurns : List (Nat × Turn) :=
  (0, .give Service.shopSession) :: openingTurns 0 ++
    [(2, .stop), (3, .start default 0), (3, .own 0 (.run .stopSeen))] ++ listeningTurns 1

/-- The second server accepts, and its session is not active: the last thing that the accept
task of the first one did was to take the flag down. -/
theorem flag_lost : ∃ u log g,
    runAll watch overlapTurns ⟨.make .default .default none default, []⟩ = some (u, log) ∧
    Holds u.manager 1 g ∧ g.engine.server.state = .accepting ∧
    u.manager.isActive g.session = false :=
  ⟨_, _, _, rfl, ⟨rfl, rfl⟩, rfl, rfl⟩

end Slot
end Wiretap
