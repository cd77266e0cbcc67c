import Wiretap.Proofs.Failure.Severity
import Wiretap.Proofs.Server.Progress

/-! What comes of a run that cannot listen. The server has stopped and the reason was
reported once, but the program learns of it only when the reason denies the port. After
any other reason it goes on waiting for a server that has stopped. -/

set_option autoImplicit false

namespace Wiretap.Server.Tenure

inductive Fails (setup : Setup) : Phase → Turn → NetworkFailure → Prop where
  | binding (now : Nat) (h : Hindrance) : Fails setup .binding
    (.meets now (.bindFailed (h.failure setup.address setup.port)))
    (h.failure setup.address setup.port)
  | locating (now : Nat) (error : IoFailure) :
    Fails setup .locating (.meets now (.locateFailed error)) (.bind error)

def Denied (cause : NetworkFailure) : Prop :=
  ∃ error, cause = .bind error ∧ (Failure.io error).DeniesPort

structure Unheard (t : Tenure) (log : List Sight) (cause : NetworkFailure) : Prop where
  ended : t.phase = .ended
  stopped : t.server.state = .stopped
  once : reports log = [(.network cause, .proxyServer)]
  fatal : (Failure.network cause).severity .proxyServer = .fatal ↔ Denied cause
  sent : ∀ r : Reporter, (r.report (.network cause) .proxyServer).2 =
      some ((Failure.network cause).classify .proxyServer) ↔
    r.channel = true ∧ r.listening = true ∧ Denied cause
  noticed : (Program.fatal? (reports log)).isSome = true ↔ Denied cause

section
variable {setup : Setup} {turns others : List Turn} {turn : Turn} {t u v : Tenure}
  {log said more : List Sight} {cause : NetworkFailure}

/-- A run that has ended does nothing more. -/
theorem run_over (h : runAll (step setup) others u = some (v, more)) (he : u.phase = .ended)
    (hs : u.server.state = .stopped) :
    v.phase = .ended ∧ v.server.state = .stopped ∧ reports more = [] := by
  refine run_invariant (P := fun _ v more => v.phase = .ended ∧ v.server.state = .stopped ∧
    reports more = []) ?_ ⟨he, hs, rfl⟩ h
  rintro - v more turn w said ⟨hv, hstate, hnone⟩ hturn
  cases step_does hturn with
  | meets move => exact absurd hv (move_failure 0 move).1
  | raises => exact ⟨hv, hstate, by rw [reports_append, hnone]; rfl⟩
  | retreats up => exact ⟨hv, retreat_stopped hstate, by rw [reports_append, hnone]; rfl⟩

theorem fails_step (h : Fails setup t.phase turn cause) : t.phase.isEarly = true ∧
    ∃ said, step setup t turn = some (⟨t.server.leave, .ended⟩, said) ∧
      reports said = [(.network cause, .proxyServer)] := by
  obtain ⟨server, phase⟩ := t
  cases h with
  | binding now hindrance => exact ⟨rfl, _, rfl, rfl⟩
  | locating now error => exact ⟨rfl, _, rfl, rfl⟩

theorem fails_denied (h : Fails setup t.phase turn cause) :
    (Failure.network cause).DeniesPort ↔ Denied cause := by
  rw [Failure.network_denies_iff]
  generalize t.phase = phase at h
  cases h with
  | binding now hindrance =>
    cases hindrance <;> simp [Denied, Hindrance.failure, NetworkFailure.socketError?]
  | locating now error => simp [Denied, NetworkFailure.socketError?]

/-- Wherever the server listens and however the attempt fails, whatever came before it and
whatever calls to stop come after it. -/
theorem failed_listening (h : runAll (step setup) turns start = some (t, log))
    (hf : Fails setup t.phase turn cause) : ∃ u said, step setup t turn = some (u, said) ∧
      ∀ others v more, runAll (step setup) others u = some (v, more) →
        Unheard v (log ++ said ++ more) cause := by
  obtain ⟨hearly, said, hstep, hsaid⟩ := fails_step hf
  refine ⟨_, said, hstep, fun others v more hothers => ?_⟩
  obtain ⟨hended, hstopped, hmore⟩ := run_over hothers rfl rfl
  have honce : reports (log ++ said ++ more) = [(.network cause, .proxyServer)] := by
    obtain ⟨-, hlog, -⟩ := (run_tried h).early hearly
    rw [reports_append, reports_append, hlog, hsaid, hmore]
    rfl
  have hfatal : (Failure.network cause).severity .proxyServer = .fatal ↔ Denied cause := by
    rw [Failure.server_fatal_iff, fails_denied hf]
  refine ⟨hended, hstopped, honce, hfatal, fun r => ?_, ?_⟩
  · rw [Reporter.sends_iff, hfatal]
  · rw [Program.fatal_iff, honce, ← hfatal]
    simp

end

def takenSetup : Setup := ⟨"127.0.0.1", 8080, "example.org", 80⟩

/-- Somebody else has the port, and the server is asked to stop afterwards. -/
theorem failed_listening_taken : ∃ t log u said v more,
    runAll (step takenSetup) [.meets 0 .begun] start = some (t, log) ∧
    Fails takenSetup t.phase (.meets 1 (.bindFailed (.bind (.system 98)))) (.bind (.system 98)) ∧
    step takenSetup t (.meets 1 (.bindFailed (.bind (.system 98)))) = some (u, said) ∧
    runAll (step takenSetup) [.raise, .retreat] u = some (v, more) ∧
    Unheard v (log ++ said ++ more) (.bind (.system 98)) ∧
    (Program.fatal? (reports (log ++ said ++ more))).isSome = true := by
  have hfails : Fails takenSetup .binding (.meets 1 (.bindFailed (.bind (.system 98))))
      (.bind (.system 98)) := .binding 1 (.socket (.system 98))
  have hbegun : runAll (step takenSetup) [.meets 0 .begun] start =
      some (⟨.fresh, .binding⟩, [look ⟨.fresh, .binding⟩]) := rfl
  obtain ⟨u, said, hstep, hleft⟩ := failed_listening hbegun hfails
  cases hstep
  have hunheard := hleft [.raise, .retreat] _ _ rfl
  refine ⟨_, _, _, _, _, _, hbegun, hfails, rfl, rfl, hunheard, hunheard.noticed.mpr ?_⟩
  exact ⟨.system 98, rfl, (Failure.system_denies_iff 98).mpr (by decide)⟩

/-- This machine does not have the address. The server stops, and the program is not told. -/
theorem missing_address_unnoticed : ∃ t log,
    runAll (step ⟨"203.0.113.7", 8080, "example.org", 80⟩) [.meets 0 .begun,
      .meets 0 (.bindFailed (Hindrance.failure "203.0.113.7" 8080 (.socket (.system 99))))]
      start = some (t, log) ∧
    t.server.state = .stopped ∧
    reports log = [(.network (.bind (.system 99)), .proxyServer)] ∧
    (Failure.network (.bind (.system 99))).severity .proxyServer = .recoverable ∧
    ((⟨true, true⟩ : Reporter).report (.network (.bind (.system 99))) .proxyServer).2 = none ∧
    Program.fatal? (reports log) = none := by
  have hseverity : (Failure.network (.bind (.system 99))).severity .proxyServer = .recoverable :=
    rfl
  refine ⟨_, _, rfl, rfl, rfl, hseverity, ?_, ?_⟩
  · rw [Reporter.report_sent, hseverity]
    rfl
  · change Program.fatal? [(.network (.bind (.system 99)), .proxyServer)] = none
    rw [← Option.not_isSome_iff_eq_none, Program.fatal_iff]
    simp [hseverity]

end Wiretap.Server.Tenure
