import Wiretap.Proofs.Run
import Wiretap.Server

/-! What one event can do to the run of a server, and the runs of a server that
is asked to stop at any moment. A call to stop has two halves, of which one
raises the flag and the other takes the state back; the run may go on between
them. After every turn somebody looks at the state and at the bound address. -/

set_option autoImplicit false

namespace Wiretap.Server

inductive Move (s : Server) : Phase → Event → Server → Phase → List Action → Prop where
  | begins (down : s.stopRequested = false) : Move s .waiting .begun s .binding []
  | declines (up : s.stopRequested = true) (line : LogLine) :
    Move s .waiting .begun s.leave .ended [.logged line]
  | unbegun : Move s .waiting .dropped s .ended []
  | bound : Move s .binding .bound s .locating []
  | bindFails (e : NetworkFailure) (line : LogLine) : Move s .binding (.bindFailed e) s.leave .ended
    [.logged line, .reported (.network e) .proxyServer]
  | locates (a : SocketAddress) (line : LogLine) : Move s .locating (.located a)
    ((s.locate a).advance .bound) (.opening a) [.logged line]
  | locateFails (e : IoFailure) : Move s .locating (.locateFailed e) s.leave .ended
    [.reported (.network (.bind e)) .proxyServer]
  | opens (a : SocketAddress) :
    Move s (.opening a) .opened (s.advance .accepting) (.accepting a) []
  | accepts (a : SocketAddress) (c : Client) (v : Verdict) (down : s.stopRequested = false) :
    Move s (.accepting a) (.accepted c v) s (.accepting a) (dispatch c v)
  | rests (a : SocketAddress) (e : IoFailure) (resume : Nat) (down : s.stopRequested = false) :
    Move s (.accepting a) (.acceptFailed e) s (.resting a resume)
      [.reported (.network (.accept e)) .proxyServer]
  | stops (a : SocketAddress) (e : Event) (up : s.stopRequested = true) (first last : LogLine)
    (why : e = .stopSeen ∨ ∃ error, e = .acceptFailed error) :
    Move s (.accepting a) e s.leave .ended [.logged first, .logged last]
  | wakes (a : SocketAddress) (resume : Nat) :
    Move s (.resting a resume) .rested s (.accepting a) []
  | dropped {phase : Phase} (begun : phase ≠ .waiting) (on : phase ≠ .ended) :
    Move s phase .dropped s.leave .ended []

section
variable {setup : Setup} {now : Nat} {s t : Server} {phase next : Phase} {e : Event}
  {acts : List Action} {bound : SocketAddress}

theorem move_of_accept (h : s.acceptStep now bound e = some (t, next, acts)) :
    Move s (.accepting bound) e t next acts := by
  cases e with
  | stopSeen =>
    simp only [acceptStep, Option.ite_none_right_eq_some] at h
    obtain ⟨up, h⟩ := h
    cases h
    exact .stops bound _ up _ _ (.inl rfl)
  | accepted c v =>
    simp only [acceptStep, Option.ite_none_left_eq_some] at h
    obtain ⟨down, h⟩ := h
    cases h
    exact .accepts bound c v (by simpa using down)
  | acceptFailed error =>
    simp only [acceptStep] at h
    split at h <;> cases h
    · exact .stops bound _ ‹_› _ _ (.inr ⟨error, rfl⟩)
    · exact .rests bound error _ (by simp_all)
  | _ => cases h

theorem move_of_step (h : s.step setup now phase e = some (t, next, acts)) :
    Move s phase e t next acts := by
  unfold step at h
  split at h
  · split at h <;> cases h
    · exact .declines ‹_› _
    · exact .begins (by simp_all)
  · cases h
    exact .unbegun
  · cases h
    exact .bound
  · cases h
    exact .bindFails _ _
  · cases h
    exact .locates _ _
  · cases h
    exact .locateFails _
  · cases h
    exact .opens _
  · simp only [Option.ite_none_right_eq_some] at h
    obtain ⟨-, h⟩ := h
    cases h
    exact .wakes _ _
  · cases h
  · rename_i begun on
    cases h
    exact .dropped begun on
  · exact move_of_accept h
  · cases h

end

structure Tenure where
  server : Server
  phase : Phase

namespace Tenure

inductive Turn where
  | meets (now : Nat) (event : Event)
  | raise
  | retreat

inductive Sight where
  | did (action : Action)
  | saw (state : ServerState) (address : Option SocketAddress)

def start : Tenure := ⟨.fresh, .waiting⟩

def look (t : Tenure) : Sight := .saw t.server.state t.server.localAddress

def step (setup : Setup) (t : Tenure) : Turn → Option (Tenure × List Sight)
  | .meets now e => (t.server.step setup now t.phase e).map fun (server, phase, acts) =>
    (⟨server, phase⟩, acts.map .did ++ [look ⟨server, phase⟩])
  | .raise => some (⟨t.server.raise, t.phase⟩, [look ⟨t.server.raise, t.phase⟩])
  | .retreat =>
    if t.server.stopRequested then
      some (⟨t.server.retreat, t.phase⟩, [look ⟨t.server.retreat, t.phase⟩])
    else none

inductive Does (t : Tenure) : Turn → Tenure → List Sight → Prop where
  | meets {now : Nat} {e : Event} {u : Tenure} {acts : List Action}
    (move : Move t.server t.phase e u.server u.phase acts) :
    Does t (.meets now e) u (acts.map .did ++ [u.look])
  | raises : Does t .raise ⟨t.server.raise, t.phase⟩ [look ⟨t.server.raise, t.phase⟩]
  | retreats (up : t.server.stopRequested = true) :
    Does t .retreat ⟨t.server.retreat, t.phase⟩ [look ⟨t.server.retreat, t.phase⟩]

theorem step_does {setup : Setup} {t u : Tenure} {turn : Turn} {said : List Sight}
    (h : step setup t turn = some (u, said)) : Does t turn u said := by
  cases turn with
  | meets now e =>
    obtain ⟨⟨server, phase, acts⟩, hs, heq⟩ := Option.map_eq_some_iff.mp h
    cases heq
    exact .meets (u := ⟨server, phase⟩) (move_of_step hs)
  | raise =>
    cases h
    exact .raises
  | retreat =>
    simp only [step, Option.ite_none_right_eq_some] at h
    obtain ⟨up, h⟩ := h
    cases h
    exact .retreats up

end Tenure

end Wiretap.Server
