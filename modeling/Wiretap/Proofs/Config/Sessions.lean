import Wiretap.Session

/-! What validation promises. A configuration is accepted when none of its rules is broken,
and then it describes a session. -/

set_option autoImplicit false

namespace Wiretap
open Wiretap.Text

theorem passed_iff {α : Type} {p : Prop} [Decidable p] {e : ConfigFailure}
    {rest : Except ConfigFailure α} {x : α} :
    (if p then .error e else rest) = .ok x ↔ ¬p ∧ rest = .ok x := by
  by_cases h : p <;> simp [h]

namespace Config

structure Valid (c : Config) : Prop where
  listenAddress : isBlank c.session.listenAddress = false ∧ hasSpace c.session.listenAddress = false
  listenPort : c.session.listenPort ≠ 0
  targetHost : isBlank c.session.targetHost = false
  targetPort : c.session.targetPort ≠ 0
  serverName : c.session.tls = true →
    ∃ name, c.session.serverName = some name ∧ isBlank name = false
  bufferSize : c.tuning.bufferSize ≠ 0
  validityDays : c.tuning.validityDays ≠ 0

theorem validate_iff (c : Config) : c.validate = .ok () ↔ Valid c := by
  have hname : (c.session.tls && c.session.serverName.all isBlank) = false ↔
      (c.session.tls = true →
        ∃ name, c.session.serverName = some name ∧ isBlank name = false) := by
    cases c.session.tls <;> cases c.session.serverName <;> simp
  simp only [validate, passed_iff, Bool.not_eq_true, Bool.or_eq_false_iff, hname]
  constructor
  · rintro ⟨haddress, hlisten, hhost, htarget, hserver, hbuffer, hdays, -⟩
    exact ⟨haddress, hlisten, hhost, htarget, hserver, hbuffer, hdays⟩
  · rintro ⟨haddress, hlisten, hhost, htarget, hserver, hbuffer, hdays⟩
    exact ⟨haddress, hlisten, hhost, htarget, hserver, hbuffer, hdays, trivial⟩

def sessionName (c : Config) : Option String := if c.session.tls then c.session.serverName else none

/-- A valid configuration describes a session. -/
theorem valid_session {c : Config} (h : Valid c) : Session.ofSettings c.session =
    .ok ⟨c.session.listenAddress, c.session.listenPort, c.session.targetHost, c.session.targetPort,
      c.session.tls, c.sessionName, false⟩ := by
  simp only [Session.ofSettings, Session.make, passed_iff, sessionName, h.listenAddress.1,
    h.targetHost, h.listenPort, h.targetPort, Bool.false_eq_true, not_false_eq_true, or_self,
    true_and]
  cases htls : c.session.tls with
  | false => rfl
  | true =>
    obtain ⟨name, hname, hblank⟩ := h.serverName htls
    simp [hname, hblank]

end Config
end Wiretap
