import Wiretap.Proofs.Failure.Severity

/-! What wrapping does to the severity of a failed bind. The search for a denied port sees through
failures of the network and through errors that take another failure over, however deep they
are nested. A failure of a session names no cause, so it hides whatever it wraps, and only an
error outside of it can still make the failure fatal. -/

set_option autoImplicit false

namespace Wiretap.Failure

inductive Wrapper where
  | session
  | network
  | around (kind : IoKind)
  deriving DecidableEq, Repr

/-- The failure to bind that `error` caused, nested in wrappers of which the outermost comes
first. -/
inductive Nested (error : IoFailure) : List Wrapper → Failure → Prop where
  | bind : Nested error [] (.network (.bind error))
  | session {ws cause} : Nested error ws (.network cause) →
      Nested error (.session :: ws) (.session (.network cause))
  | network {ws cause carried} : cause.socketError? = some carried →
      Nested error ws (.io carried) → Nested error (.network :: ws) (.network cause)
  | around {ws f} (kind : IoKind) : Nested error ws f →
      Nested error (.around kind :: ws) (.io (.wrapping kind f))

def CarriedOutside (ws : List Wrapper) : Prop :=
  ∃ before k after, ws = before ++ .network :: .around k :: after ∧ .session ∉ before ∧
    k.DeniesPort

def DeniedInFront (ws : List Wrapper) : Prop := ∃ k after, ws = .around k :: after ∧ k.DeniesPort

theorem carried_session (ws : List Wrapper) : ¬ CarriedOutside (.session :: ws) := by
  rintro ⟨before, k, after, hws, hout, -⟩
  cases before with
  | nil => cases hws
  | cons w before =>
    obtain ⟨rfl, -⟩ := List.cons.inj hws
    exact hout (List.mem_cons_self ..)

theorem carried_around (kind : IoKind) (ws : List Wrapper) :
    CarriedOutside (.around kind :: ws) ↔ CarriedOutside ws := by
  constructor
  · rintro ⟨before, k, after, hws, hout, hk⟩
    cases before with
    | nil => cases hws
    | cons w before =>
      obtain ⟨rfl, rfl⟩ := List.cons.inj hws
      exact ⟨before, k, after, rfl, fun h => hout (List.mem_cons_of_mem _ h), hk⟩
  · rintro ⟨before, k, after, rfl, hout, hk⟩
    exact ⟨.around kind :: before, k, after, rfl, by simpa using hout, hk⟩

theorem carried_network (ws : List Wrapper) :
    CarriedOutside (.network :: ws) ↔ DeniedInFront ws ∨ CarriedOutside ws := by
  constructor
  · rintro ⟨before, k, after, hws, hout, hk⟩
    cases before with
    | nil => exact .inl ⟨k, after, (List.cons.inj hws).2, hk⟩
    | cons w before =>
      obtain ⟨rfl, rfl⟩ := List.cons.inj hws
      exact .inr ⟨before, k, after, rfl, fun h => hout (List.mem_cons_of_mem _ h), hk⟩
  · rintro (⟨k, after, rfl, hk⟩ | ⟨before, k, after, rfl, hout, hk⟩)
    · exact ⟨[], k, after, rfl, List.not_mem_nil, hk⟩
    · exact ⟨.network :: before, k, after, rfl, by simpa using hout, hk⟩

section
variable {f : Failure} {error : IoFailure} {ws : List Wrapper}

def CauseDenies (f : Failure) : Prop := ∃ e, .io e ∈ f.causes ∧ e.kind.DeniesPort

theorem denies_cases : f.DeniesPort ↔ (∃ e, f = .io e ∧ e.kind.DeniesPort) ∨ f.CauseDenies := by
  simp only [DeniesPort, CauseDenies, chain, List.mem_cons, or_and_right, exists_or, eq_comm]

theorem cause_network {cause : NetworkFailure} {carried : IoFailure}
    (h : cause.socketError? = some carried) :
    (Failure.network cause).CauseDenies ↔ (Failure.io carried).DeniesPort := by
  have hnot : ¬ ∃ e, Failure.network cause = .io e ∧ e.kind.DeniesPort := by simp
  rw [← or_iff_right (b := CauseDenies _) hnot, ← denies_cases, network_denies_iff, h]
  simp

theorem nested_front (h : Nested error ws f) :
    (∃ e, f = .io e ∧ e.kind.DeniesPort) ↔ DeniedInFront ws := by
  cases h with
  | around kind h => simp [DeniedInFront, IoFailure.kind]
  | _ => simp [DeniedInFront]

/-- Induction from the bind outwards: a failure of the network shows the error it carries, an error
passes on the causes of what it wraps without showing that itself, and a session ends the search. -/
theorem nested_causes (hdenies : error.kind.DeniesPort) (h : Nested error ws f) :
    f.CauseDenies ↔ .session ∉ ws ∨ CarriedOutside ws := by
  induction h with
  | bind =>
    have hbind : (Failure.io error).DeniesPort := denies_cases.mpr (.inl ⟨error, rfl, hdenies⟩)
    have hcause : (Failure.network (.bind error)).CauseDenies := (cause_network rfl).mpr hbind
    simp [hcause]
  | session h ih => simp [CauseDenies, causes, carried_session]
  | @network ws cause carried hcarried h ih =>
    rw [cause_network hcarried, denies_cases, nested_front h, ih, carried_network]
    simp [or_left_comm]
  | @around ws f kind h ih =>
    have hpassed : (Failure.io (.wrapping kind f)).CauseDenies ↔ f.CauseDenies := .rfl
    rw [hpassed, ih, carried_around]
    simp

/-- However a failed bind is nested, it is fatal for the server unless a failure of a session is
among the wrappers; then it is fatal only through an error outside of all of those, which denies
a port by a kind of its own and is the failure itself or carried by a failure of the network. -/
theorem nested_severity (hdenies : error.kind.DeniesPort) (h : Nested error ws f) :
    (Failure.network (.bind error)).severity .proxyServer = .fatal ∧
    (f.severity .proxyServer = .fatal ↔
      .session ∉ ws ∨ DeniedInFront ws ∨ CarriedOutside ws) := by
  refine ⟨server_fatal_iff.mpr ?_, ?_⟩
  · exact denies_cases.mpr (.inr ((nested_causes hdenies .bind).mpr (.inl List.not_mem_nil)))
  · rw [server_fatal_iff, denies_cases, nested_front h, nested_causes hdenies h, or_left_comm]

end

def deeply : Failure :=
  .io (.wrapping .other (.network (.accept (.wrapping .timedOut (.network (.bind (.system 98)))))))

theorem deeply_nested :
    Nested (.system 98) [.around .other, .network, .around .timedOut] deeply :=
  .around .other (.network rfl (.around .timedOut .bind))

theorem nested_severity_deep : (IoFailure.system 98).kind.DeniesPort ∧
    Nested (.system 98) [.around .other, .network, .around .timedOut] deeply ∧
    deeply.severity .proxyServer = .fatal := by
  have hdenies : (IoFailure.system 98).kind.DeniesPort := .inl rfl
  exact ⟨hdenies, deeply_nested, (nested_severity hdenies deeply_nested).2.mpr (.inl (by decide))⟩

/-- A port that is taken is fatal for the server, and no longer so once a session has wrapped the
failure. -/
theorem session_hides_bind :
    Nested (.plain .addrInUse) [.session] (.session (.network (.bind (.plain .addrInUse)))) ∧
    (Failure.network (.bind (.plain .addrInUse))).severity .proxyServer = .fatal ∧
    (Failure.session (.network (.bind (.plain .addrInUse)))).severity .proxyServer = .recoverable :=
  ⟨.session .bind, rfl, rfl⟩

end Wiretap.Failure
