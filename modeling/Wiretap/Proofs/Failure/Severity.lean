import Wiretap.Program

/-! When a failure is fatal. Under the category of the server it is fatal when an error that
denies the port stands anywhere in its chain of causes, whichever call gave that error. What
is fatal is sent on by a reporter, and ends the program. -/

set_option autoImplicit false

namespace Wiretap

def IoKind.DeniesPort (k : IoKind) : Prop := k = .addrInUse ∨ k = .permissionDenied

def Failure.DeniesPort (f : Failure) : Prop :=
  ∃ error, .io error ∈ f.chain ∧ error.kind.DeniesPort

namespace Failure

variable {f : Failure}

theorem bindKind_iff : f.bindKind?.isSome = true ↔ f.DeniesPort := by
  simp only [bindKind?, List.find?_isSome, List.mem_filterMap, DeniesPort]
  constructor
  · rintro ⟨k, ⟨g, hg, hk⟩, hbind⟩
    cases g with
    | io error =>
      cases hk
      exact ⟨error, hg, by simpa [isBindKind, IoKind.DeniesPort] using hbind⟩
    | _ => cases hk
  · rintro ⟨error, hin, hdenies⟩
    exact ⟨error.kind, ⟨.io error, hin, rfl⟩,
      by simpa [isBindKind, IoKind.DeniesPort] using hdenies⟩

theorem severity_fatal_iff (c : Category) :
    f.severity c = .fatal ↔ c = .initialization ∨ c = .proxyServer ∧ f.DeniesPort := by
  rw [← bindKind_iff]
  cases c with
  | proxyServer => cases h : f.bindKind? <;> simp [severity, h]
  | _ => simp [severity]

theorem server_fatal_iff : f.severity .proxyServer = .fatal ↔ f.DeniesPort := by
  rw [severity_fatal_iff]
  simp

theorem network_denies_iff (cause : NetworkFailure) : (Failure.network cause).DeniesPort ↔
    ∃ error, cause.socketError? = some error ∧ (Failure.io error).DeniesPort := by
  cases cause <;>
    simp [DeniesPort, chain, causes, NetworkFailure.causes, NetworkFailure.socketError?]

theorem system_denies_iff (code : Int) :
    (Failure.io (.system code)).DeniesPort ↔ code = 1 ∨ code = 13 ∨ code = 98 := by
  have hkind : (Failure.io (.system code)).DeniesPort ↔ (IoKind.ofCode code).DeniesPort := by
    simp [DeniesPort, chain, causes, IoFailure.causes, IoFailure.kind]
  rw [hkind]
  unfold IoKind.ofCode IoKind.DeniesPort
  split <;> simp_all

theorem classify_severity (f : Failure) (c : Category) :
    (f.classify c).severity = f.severity c := by
  unfold classify Report.make
  by_cases hmessage : Text.isBlank (f.userMessage c) = true
  · simp [hmessage]
  · by_cases hdetails : Text.isBlank f.details = true <;> simp [hmessage, hdetails]

end Failure

/-- A report is sent when it is fatal and somebody listens to the channel. -/
theorem Reporter.report_sent (r : Reporter) (f : Failure) (c : Category) :
    (r.report f c).2 = if f.severity c = .fatal ∧ r.channel = true ∧ r.listening = true
      then some (f.classify c) else none := by
  cases h : f.severity c with
  | recoverable => simp [report, Failure.classify_severity, h]
  | fatal =>
    simp only [report, Failure.classify_severity, h]
    cases r.channel <;> cases r.listening <;> rfl

theorem Reporter.sends_iff (r : Reporter) (f : Failure) (c : Category) :
    (r.report f c).2 = some (f.classify c) ↔
      r.channel = true ∧ r.listening = true ∧ f.severity c = .fatal := by
  rw [report_sent]
  by_cases h : f.severity c = .fatal ∧ r.channel = true ∧ r.listening = true
  · obtain ⟨hfatal, hchannel, hlistening⟩ := h
    simp [hfatal, hchannel, hlistening]
  · rw [if_neg h]
    exact iff_of_false nofun fun ⟨hchannel, hlistening, hfatal⟩ => h ⟨hfatal, hchannel, hlistening⟩

/-- The program does not go on waiting once a fatal failure was reported. -/
theorem Program.fatal_iff (rs : List Service.Reported) :
    (fatal? rs).isSome = true ↔ ∃ r ∈ rs, r.1.severity r.2 = .fatal := by
  simp only [fatal?, List.findSome?_isSome_iff, Reporter.report_sent, reporter]
  simp

end Wiretap
