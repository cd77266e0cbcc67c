import Wiretap.Proofs.Engine.Accepting
import Wiretap.Proofs.Service.Starts

/-! Engines are held one at a time. A manager lets an engine go when it is stopped, and
holds the next one in place of one that has stopped; from then on the old one is
withdrawn, whatever its run and its tasks still do. -/

set_option autoImplicit false

namespace Wiretap

def Server.IsWithdrawn (s : Server) : Prop := s.state = .stopping ∨ s.state = .stopped

namespace Engine

def Step.isOwn : Step → Bool
  | .run .dropped => false
  | .run _ => true
  | .resume _ => true
  | .handler _ _ => true
  | _ => false

section
variable {e f : Engine} {step : Step}

theorem advance_withdrawn {s : Server} (h : s.IsWithdrawn) (next : ServerState) :
    (s.advance next).state = s.state := by
  rw [Server.advance, if_pos (show s.state = .stopping ∨ s.state = .stopped from h)]

theorem stop_withdrawn (s : Server) : s.stop.IsWithdrawn := by
  rw [Server.IsWithdrawn, Server.stop_state]
  cases s.state <;> simp [ServerState.rank]

/-- A server that is withdrawn keeps its state, unless its run ends. -/
theorem steers_withdrawn (h : Steers e step f) (hw : e.server.IsWithdrawn) :
    f.server.state = e.server.state ∨ f.server.state = .stopped := by
  cases h with
  | called ended server run => exact .inl (by rw [server])
  | stopped server run =>
    rw [server, Server.stop_state]
    rcases hw with hw | hw <;> simp [hw, ServerState.rank]
  | other on server run => exact .inl (by rw [server])
  | meets move =>
    generalize e.run = phase, f.server = q, f.run = next at move
    cases move with
    | locates a line => exact .inl (advance_withdrawn (s := e.server.locate a) hw _)
    | opens a => exact .inl (advance_withdrawn hw _)
    | declines => exact .inr rfl
    | bindFails => exact .inr rfl
    | locateFails => exact .inr rfl
    | stops => exact .inr rfl
    | dropped => exact .inr rfl
    | _ => exact .inl rfl

theorem endsTask_ended (he : Manager.endsTask e f step = true) :
    e.run ≠ .ended ∧ f.run = .ended ∧ ∃ event, step = .run event ∧ event ≠ .dropped := by
  cases step with
  | run event =>
    unfold Manager.endsTask at he
    split at he
    · cases he
    · rename_i hne heq
      cases heq
      simp only [Bool.and_eq_true, bne_iff_ne, beq_iff_eq] at he
      exact ⟨he.1, he.2, event, rfl, hne⟩
    · cases he
  | _ => cases he

/-- An accept task that comes to its end leaves a server that is stopped. -/
theorem ended_stopped (h : Steers e step f) (he : Manager.endsTask e f step = true) :
    f.server.state = .stopped := by
  obtain ⟨hon, hended, event, rfl, hkept⟩ := endsTask_ended he
  cases h with
  | meets move =>
    generalize e.run = phase, f.server = q, f.run = next at move hended
    cases move with
    | declines => rfl
    | bindFails => rfl
    | locateFails => rfl
    | stops => rfl
    | dropped => rfl
    | unbegun => exact absurd rfl hkept
    | _ => cases hended
  | other on server run => exact absurd (run ▸ hended) hon

end
end Engine

namespace Manager

structure Numbered (m : Manager) : Prop where
  given : ∀ (k : Nat) (h : Hosted), m.engines[k]? = some h → h.session < m.sessions.length
  distinct : ∀ (k l : Nat) (g h : Hosted), m.engines[k]? = some g → m.engines[l]? = some h →
    g.session = h.session → k = l

def Rooted (m : Manager) : Prop := ∀ k, m.held = some k → ∃ g, m.engines[k]? = some g

/-- Engines are held one at a time. The held one belongs to the session that was started last,
which is active until its server has stopped; the others are withdrawn. -/
structure Ruled (m : Manager) (current : Option Nat) : Prop extends Numbered m where
  past : ∀ (k : Nat) (h : Hosted), m.engines[k]? = some h → m.held ≠ some k →
    h.engine.server.IsWithdrawn
  held : ∀ k, m.held = some k → ∃ h, m.engines[k]? = some h ∧ current = some h.session ∧
    (h.engine.server.state ≠ .stopped → m.isActive h.session = true)

section
variable {m after : Manager} {current : Option Nat} {now k i : Nat} {step : Engine.Step}
  {acts : List Action} {host : Hosted} {f : Engine}

theorem active_other {j : Nat} (m : Manager) (active : Bool) (hij : i ≠ j) :
    (m.setActive i active).isActive j = m.isActive j := by
  simp [setActive, isActive, hij]

theorem active_self (m : Manager) (active : Bool) (hi : i < m.sessions.length) :
    (m.setActive i active).isActive i = active := by
  simp [setActive, isActive, hi, Session.setActive]

/-- The engines before one of them went on. -/
theorem replaced_back (hk : m.engines[k]? = some host)
    (hengines : after.engines = m.engines.set k { host with engine := f }) {l : Nat} {g : Hosted}
    (hl : after.engines[l]? = some g) : ∃ g', m.engines[l]? = some g' ∧ g.session = g'.session ∧
      (l ≠ k ∧ g = g' ∨ l = k ∧ g' = host ∧ g.engine = f) := by
  obtain ⟨hlt, -⟩ := List.getElem?_eq_some_iff.mp hk
  rw [hengines] at hl
  by_cases hlk : l = k
  · subst hlk
    rw [List.getElem?_set_self hlt] at hl
    cases hl
    exact ⟨host, hk, rfl, .inr ⟨rfl, rfl, rfl⟩⟩
  · rw [List.getElem?_set_ne (Ne.symm hlk)] at hl
    exact ⟨g, hl, rfl, .inl ⟨hlk, rfl⟩⟩

theorem numbered_replace (h : Numbered m) (hk : m.engines[k]? = some host)
    (hengines : after.engines = m.engines.set k { host with engine := f })
    (hlength : after.sessions.length = m.sessions.length) : Numbered after := by
  refine ⟨fun l g hg => ?_, fun l j g g' hg hg' hsame => ?_⟩
  · obtain ⟨old, hold, hsession, -⟩ := replaced_back hk hengines hg
    rw [hlength, hsession]
    exact h.given l old hold
  · obtain ⟨old, hold, hsession, -⟩ := replaced_back hk hengines hg
    obtain ⟨old', hold', hsession', -⟩ := replaced_back hk hengines hg'
    exact h.distinct l j old old' hold hold' (by rw [← hsession, ← hsession', hsame])

theorem engineStep_spec (h : m.engineStep now k step = some (after, acts)) :
    ∃ host f done, m.engines[k]? = some host ∧ host.engine.step now step = some (f, done) ∧
      acts = done.map (.engine k) ∧ after.engines = m.engines.set k { host with engine := f } ∧
      after.held = m.held ∧ (after.sessions = m.sessions ∨ endsTask host.engine f step = true ∧
        after.sessions = (m.setActive host.session false).sessions) := by
  unfold engineStep at h
  obtain ⟨host, hk, h⟩ := Option.bind_eq_some_iff.mp h
  obtain ⟨⟨f, done⟩, hs, h⟩ := Option.bind_eq_some_iff.mp h
  cases h
  refine ⟨host, f, done, hk, hs, rfl, ?_⟩
  split
  · exact ⟨rfl, rfl, .inr ⟨‹_›, rfl⟩⟩
  · exact ⟨rfl, rfl, .inl rfl⟩

theorem active_same {m' : Manager} (h : after.sessions = m'.sessions) (i : Nat) :
    after.isActive i = m'.isActive i := by
  rw [isActive, isActive, h]

theorem ruled_engineStep (h : Ruled m current) (hs : m.engineStep now k step = some (after, acts)) :
    Ruled after current := by
  obtain ⟨host, f, done, hk, hstep, -, hengines, hheld, hsessions⟩ := engineStep_spec hs
  have hsteers := Engine.step_steers hstep
  have hlength : after.sessions.length = m.sessions.length := by
    rcases hsessions with heq | ⟨-, heq⟩ <;> simp [heq, setActive]
  refine ⟨numbered_replace h.toNumbered hk hengines hlength, fun l g hg hl => ?_, fun l hl => ?_⟩
  · obtain ⟨g', hg', -, hcase⟩ := replaced_back hk hengines hg
    have hpast := h.past l g' hg' (hheld ▸ hl)
    obtain ⟨-, rfl⟩ | ⟨rfl, rfl, rfl⟩ := hcase
    · exact hpast
    · rcases Engine.steers_withdrawn hsteers hpast with hstate | hstate
      · unfold Server.IsWithdrawn
        rwa [hstate]
      · exact .inr hstate
  · obtain ⟨g', hg', hcurrent, hactive⟩ := h.held l (hheld ▸ hl)
    obtain ⟨hlt, -⟩ := List.getElem?_eq_some_iff.mp hg'
    have hlt' : l < after.engines.length := by simpa [hengines] using hlt
    have hg := List.getElem?_eq_getElem hlt'
    obtain ⟨old, hold, hsession, hcase⟩ := replaced_back hk hengines hg
    obtain rfl := Option.some.inj (hold.symm.trans hg')
    refine ⟨_, hg, by rw [hsession, hcurrent], fun hon => ?_⟩
    rw [hsession]
    obtain ⟨hne, heq⟩ | ⟨rfl, rfl, rfl⟩ := hcase
    · rw [heq] at hon
      -- An engine that ends its task ends the activity of its own session only.
      rcases hsessions with hsame | ⟨-, hsame⟩
      · rw [active_same hsame]
        exact hactive hon
      · rw [active_same hsame, active_other _ _ fun hs => hne (h.distinct l k _ _ hold hk hs.symm)]
        exact hactive hon
    · rcases hsessions with hsame | ⟨hends, -⟩
      · rw [active_same hsame]
        refine hactive fun hstopped => hon ?_
        rcases Engine.steers_withdrawn hsteers (.inr hstopped) with hstate | hstate
        · rw [hstate, hstopped]
        · exact hstate
      · exact absurd (Engine.ended_stopped hsteers hends) hon

theorem release_spec (h : m.release now = some (k, after, acts)) : m.held = some k ∧
    ∃ host, m.engines[k]? = some host ∧ after.engines = m.engines.set k { host with
        engine := { host.engine with server := host.engine.server.stop } } ∧
      after.held = none ∧ after.sessions = (m.setActive host.session false).sessions ∧
      ∀ a ∈ acts, ∀ number b, a ≠ .engine number b := by
  unfold release at h
  obtain ⟨k', hheld, h⟩ := Option.bind_eq_some_iff.mp h
  obtain ⟨host, hk, h⟩ := Option.bind_eq_some_iff.mp h
  obtain ⟨⟨f, done⟩, hs, h⟩ := Option.bind_eq_some_iff.mp h
  cases hs
  cases h
  exact ⟨hheld, host, hk, rfl, rfl, rfl, by simp [note]⟩

/-- An engine that is let go is withdrawn. -/
theorem ruled_release (h : Ruled m current) (hs : m.release now = some (k, after, acts)) :
    Ruled after current ∧ ∃ g, after.engines[k]? = some g ∧ current = some g.session := by
  obtain ⟨hheld, host, hk, hengines, hnone, hsessions, -⟩ := release_spec hs
  have hlength : after.sessions.length = m.sessions.length := by simp [hsessions, setActive]
  refine ⟨⟨numbered_replace h.toNumbered hk hengines hlength, fun l g hg _ => ?_, ?_⟩, ?_⟩
  · obtain ⟨g', hg', -, ⟨hne, rfl⟩ | ⟨-, rfl, hf⟩⟩ := replaced_back hk hengines hg
    · exact h.past l g hg' fun hl => hne (Option.some.inj (hl.symm.trans hheld))
    · rw [hf]
      exact Engine.stop_withdrawn _
  · rw [hnone]
    intro l hl
    cases hl
  · obtain ⟨hlt, -⟩ := List.getElem?_eq_some_iff.mp hk
    obtain ⟨g, hg, hcurrent, -⟩ := h.held k hheld
    obtain rfl := Option.some.inj (hk.symm.trans hg)
    have hafter : after.engines[k]? = some { host with
        engine := { host.engine with server := host.engine.server.stop } } := by
      rw [hengines, List.getElem?_set_self hlt]
    exact ⟨_, hafter, hcurrent⟩

theorem ruled_rooted (h : Ruled m current) : Rooted m := fun k hk =>
  let ⟨g, hg, _⟩ := h.held k hk
  ⟨g, hg⟩

/-- There is nothing to let go only when no engine is held. -/
theorem release_none (h : Rooted m) (hs : m.release now = none) : m.held = none := by
  cases hheld : m.held with
  | none => rfl
  | some k =>
    obtain ⟨g, hg⟩ := h k hheld
    simp [release, hheld, hg, Engine.step] at hs

theorem ruled_quit (h : Ruled m current)
    (hother : ∀ k g, m.held = some k → m.engines[k]? = some g → g.session ≠ i) :
    Ruled (m.setActive i false) current := by
  refine ⟨⟨fun k g hg => ?_, h.distinct⟩, h.past, fun k hk => ?_⟩
  · simpa [setActive] using h.given k g hg
  · obtain ⟨g, hg, hcurrent, hactive⟩ := h.held k hk
    refine ⟨g, hg, hcurrent, fun hon => ?_⟩
    rw [active_other _ _ (hother k g hk hg).symm]
    exact hactive hon

theorem serving_iff : m.isServing = true ↔ ∃ k h, m.held = some k ∧ m.engines[k]? = some h ∧
    h.engine.server.state ≠ .stopped := by
  simp only [isServing, serverState?, hosted?, Option.any_map, Option.any_eq_true,
    Option.bind_eq_some_iff]
  constructor
  · rintro ⟨h, ⟨k, hk, hh⟩, hon⟩
    exact ⟨k, h, hk, hh, by simpa using hon⟩
  · rintro ⟨k, h, hk, hh, hon⟩
    exact ⟨h, ⟨k, hk, hh⟩, by simpa using hon⟩

theorem ruled_serving (h : Ruled m current) (hs : m.isServing = true) :
    current.any m.isActive = true := by
  obtain ⟨k, g, hk, hg, hon⟩ := serving_iff.mp hs
  obtain ⟨g', hg', hcurrent, hactive⟩ := h.held k hk
  obtain rfl := Option.some.inj (hg.symm.trans hg')
  rw [hcurrent]
  exact hactive hon

theorem ruled_give (h : Ruled m current) (session : Session) :
    Ruled (m.give session).1 current := by
  refine ⟨⟨fun k g hg => ?_, h.distinct⟩, h.past, fun k hk => ?_⟩
  · have hlt := h.given k g hg
    simp only [give, List.length_append]
    omega
  · obtain ⟨g, hg, hcurrent, hactive⟩ := h.held k hk
    refine ⟨g, hg, hcurrent, fun hon => ?_⟩
    have hsame : (m.give session).1.isActive g.session = m.isActive g.session := by
      simp [isActive, give, List.getElem?_append_left (h.given k g hg)]
    rw [hsame]
    exact hactive hon

theorem host_engines {s : Session} {tls : TlsContext} {pool : Pool} {l : Nat} {g : Hosted}
    (hl : (m.host i s tls pool).engines[l]? = some g) : m.engines[l]? = some g ∨
      l = m.engines.length ∧ g = ⟨i, .make (m.engineSetup s tls) pool⟩ := by
  change (m.engines ++ [_])[l]? = some g at hl
  rw [List.getElem?_append] at hl
  split at hl
  · exact .inl hl
  · obtain ⟨hlt, heq⟩ := List.getElem?_eq_some_iff.mp hl
    simp only [List.length_singleton] at hlt
    simp only [List.getElem_singleton] at heq
    exact .inr ⟨by omega, heq.symm⟩

/-- The engine of a new session takes the place of one that has stopped. -/
theorem ruled_host {s : Session} {tls : TlsContext} {pool : Pool} (h : Ruled m current)
    (hoff : m.isServing = false) (hi : i < m.sessions.length)
    (hnew : ∀ (k : Nat) (g : Hosted), m.engines[k]? = some g → g.session < i) :
    Ruled (m.host i s tls pool) (some i) := by
  have hlast : ∀ (k : Nat) (g : Hosted), (m.host i s tls pool).engines[k]? = some g →
      m.engines[k]? = some g ∨ k = m.engines.length ∧ g.session = i := by
    intro k g hg
    rcases host_engines hg with hold | ⟨rfl, rfl⟩
    · exact .inl hold
    · exact .inr ⟨rfl, rfl⟩
  refine ⟨⟨fun k g hg => ?_, fun k l g g' hg hg' hsame => ?_⟩, fun k g hg hk => ?_, fun k hk => ?_⟩
  · simp only [host, setActive, List.length_modify]
    obtain hg | ⟨-, rfl⟩ := hlast k g hg
    · exact h.given k g hg
    · exact hi
  · obtain hg | ⟨rfl, hs⟩ := hlast k g hg <;> obtain hg' | ⟨rfl, hs'⟩ := hlast l g' hg'
    · exact h.distinct k l g g' hg hg' hsame
    · have := hnew k g hg
      omega
    · have := hnew l g' hg'
      omega
    · rfl
  · obtain hg | ⟨rfl, -⟩ := hlast k g hg
    · by_cases hheld : m.held = some k
      · refine .inr ?_
        by_contra hon
        rw [serving_iff.mpr ⟨k, g, hheld, hg, hon⟩] at hoff
        cases hoff
      · exact h.past k g hg hheld
    · exact absurd rfl hk
  · obtain rfl := Option.some.inj hk
    refine ⟨_, List.getElem?_concat_length, rfl, fun _ => ?_⟩
    exact active_self m true hi

structure Grows (m after : Manager) : Prop where
  kept : ∀ (k : Nat) (g : Hosted), m.engines[k]? = some g →
    ∃ g', after.engines[k]? = some g' ∧ g'.session = g.session
  held : ∀ k, after.held = some k → m.held = some k ∨ m.engines.length ≤ k

theorem grows_same (hengines : after.engines = m.engines) (hheld : after.held = m.held) :
    Grows m after :=
  ⟨fun _ g hg => ⟨g, hengines ▸ hg, rfl⟩, fun _ hk => .inl (hheld ▸ hk)⟩

theorem grows_replace (hk : m.engines[k]? = some host)
    (hengines : after.engines = m.engines.set k { host with engine := f })
    (hheld : ∀ l, after.held = some l → m.held = some l) : Grows m after := by
  refine ⟨fun l g hg => ?_, fun l hl => .inl (hheld l hl)⟩
  obtain ⟨hlt, -⟩ := List.getElem?_eq_some_iff.mp hg
  have hlt' : l < after.engines.length := by simpa [hengines] using hlt
  obtain ⟨g', hg', hsession, -⟩ :=
    replaced_back hk hengines (List.getElem?_eq_getElem hlt')
  obtain rfl := Option.some.inj (hg'.symm.trans hg)
  exact ⟨_, List.getElem?_eq_getElem hlt', hsession⟩

theorem grows_host (m : Manager) (i : Nat) (s : Session) (tls : TlsContext) (pool : Pool) :
    Grows m (m.host i s tls pool) := by
  refine ⟨fun k g hg => ⟨g, ?_, rfl⟩, fun k hk => .inr (Nat.le_of_eq (Option.some.inj hk))⟩
  obtain ⟨hlt, -⟩ := List.getElem?_eq_some_iff.mp hg
  exact (List.getElem?_append_left hlt).trans hg

end
end Manager

end Wiretap
