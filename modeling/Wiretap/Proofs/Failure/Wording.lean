import Wiretap.Proofs.Failure.Severity
import Wiretap.Proofs.Handler.Closing

/-! How a failure is worded. The nearest error that denies a port decides, under every
category: a target that cannot be reached is called a server that failed to start. The
severity looks at the category first, so the two disagree about such a failure unless it
was met while the proxy was set up or by its server. -/

set_option autoImplicit false

namespace Wiretap

namespace Text

def first? (s : String) : Option Char := s.toList.head?

theorem first_append {s : String} {c : Char} (h : first? s = some c) (t : String) :
    first? (s ++ t) = some c := by
  unfold first? at h ⊢
  rw [String.toList_append, List.head?_append, h]
  rfl

theorem first_visible {s : String} {c : Char} (h : first? s = some c) (hc : isSpace c = false) :
    isBlank s = false := by
  obtain ⟨rest, hs⟩ := List.head?_eq_some_iff.mp h
  simp [isBlank, hs, hc]

end Text

open Wiretap.Text

namespace Failure

def NearestDenial (f : Failure) (k : IoKind) : Prop :=
  k.DeniesPort ∧ ∃ before error after, f.chain = before ++ .io error :: after ∧ error.kind = k ∧
    ∀ e, .io e ∈ before → ¬ e.kind.DeniesPort

def BlamesPort (f : Failure) (c : Category) : Prop :=
  f.userMessage c = portInUse ∨ f.userMessage c = portDenied

/-- How a failure is worded, and what its severity makes of it. -/
structure Worded (f : Failure) (c : Category) : Prop where
  inUse : f.userMessage c = portInUse ↔ f.NearestDenial .addrInUse
  denied : f.userMessage c = portDenied ↔ f.NearestDenial .permissionDenied
  own : f.userMessage c = f.plainMessage c ↔ ¬ f.DeniesPort
  -- Of the failures of the network those count that have a socket error.
  network : ∀ cause, f = .network cause → (f.BlamesPort c ↔
    ∃ error, cause.socketError? = some error ∧ (Failure.io error).DeniesPort)
  server : c = .proxyServer → (f.BlamesPort c ↔ f.severity c = .fatal)
  contradicts : f.BlamesPort c ∧ f.severity c = .recoverable ↔
    f.DeniesPort ∧ c ≠ .initialization ∧ c ≠ .proxyServer
  shown : f.classify c = ⟨c, f.severity c, f.userMessage c, f.details⟩

section
variable {f : Failure} {c : Category} {k : IoKind}

theorem isBind_iff : isBindKind k = true ↔ k.DeniesPort := by
  simp [isBindKind, IoKind.DeniesPort]

theorem bindKind_some_iff : f.bindKind? = some k ↔ f.NearestDenial k := by
  have hany (g : Failure) : g.ioKind?.any isBindKind = true ↔
      ∃ e, g = .io e ∧ e.kind.DeniesPort := by
    cases g <;> simp [ioKind?, isBind_iff]
  simp only [bindKind?, List.find?_filterMap, Option.bind_eq_some_iff,
    List.find?_eq_some_iff_append, NearestDenial]
  constructor
  · rintro ⟨g, ⟨hg, before, after, hchain, hbefore⟩, hk⟩
    obtain ⟨error, rfl, hdenies⟩ := (hany g).mp hg
    cases hk
    refine ⟨hdenies, before, error, after, hchain, rfl, fun e he hd => ?_⟩
    simpa [(hany _).mpr ⟨e, rfl, hd⟩] using hbefore (.io e) he
  · rintro ⟨hdenies, before, error, after, hchain, rfl, hbefore⟩
    refine ⟨.io error, ⟨(hany _).mpr ⟨error, rfl, hdenies⟩, before, after, hchain, fun g hg => ?_⟩,
      rfl⟩
    rw [Bool.not_eq_true', ← Bool.not_eq_true, hany]
    rintro ⟨e, rfl, hd⟩
    exact hbefore e hg hd

theorem plain_initialization (f : Failure) :
    f.plainMessage .initialization = (default : Failure).plainMessage .initialization := rfl

theorem plain_first (f : Failure) (hc : c ≠ .initialization) :
    first? (f.plainMessage c) = some 'A' := by
  cases c with
  | initialization => exact absurd rfl hc
  | proxyServer => exact first_append (by decide +kernel) _
  | connectionHandling => exact first_append (first_append (by decide +kernel) _) _
  | dataProcessing =>
    exact first_append (first_append (first_append (by decide +kernel) _) _) _
  | networkIo => exact first_append (by decide +kernel) _

theorem plain_ne (f : Failure) (c : Category) :
    f.plainMessage c ≠ portInUse ∧ f.plainMessage c ≠ portDenied := by
  by_cases hc : c = .initialization
  · rw [hc, plain_initialization]
    decide +kernel
  · have hfirst := plain_first f hc
    constructor <;> intro h <;> rw [h] at hfirst <;> revert hfirst <;> decide +kernel

theorem message_inUse (h : f.bindKind? = some .addrInUse) : f.userMessage c = portInUse := by
  rw [userMessage, h]

theorem message_denied (h : f.bindKind? = some .permissionDenied) :
    f.userMessage c = portDenied := by
  rw [userMessage, h]

theorem message_plain (h : f.bindKind? = none) : f.userMessage c = f.plainMessage c := by
  rw [userMessage, h]

theorem bindKind_cases (f : Failure) : f.bindKind? = none ∨ f.bindKind? = some .addrInUse ∨
    f.bindKind? = some .permissionDenied := by
  cases h : f.bindKind? with
  | none => exact .inl rfl
  | some k => exact .inr ((bindKind_some_iff.mp h).1.imp (congrArg some) (congrArg some))

theorem texts_ne : portInUse ≠ portDenied := by decide +kernel

theorem inUse_iff : f.userMessage c = portInUse ↔ f.bindKind? = some .addrInUse := by
  refine ⟨fun h => ?_, message_inUse⟩
  rcases bindKind_cases f with hk | hk | hk
  · exact absurd ((message_plain hk).symm.trans h) (plain_ne f c).1
  · exact hk
  · exact absurd (h.symm.trans (message_denied hk)) texts_ne

theorem denied_iff : f.userMessage c = portDenied ↔ f.bindKind? = some .permissionDenied := by
  refine ⟨fun h => ?_, message_denied⟩
  rcases bindKind_cases f with hk | hk | hk
  · exact absurd ((message_plain hk).symm.trans h) (plain_ne f c).2
  · exact absurd ((message_inUse hk).symm.trans h) texts_ne
  · exact hk

theorem blames_iff : f.BlamesPort c ↔ f.DeniesPort := by
  rw [BlamesPort, inUse_iff, denied_iff, ← bindKind_iff]
  rcases bindKind_cases f with hk | hk | hk <;> simp [hk]

theorem own_iff : f.userMessage c = f.plainMessage c ↔ ¬ f.DeniesPort := by
  rw [← blames_iff (c := c)]
  constructor
  · rintro h (hport | hport)
    · exact (plain_ne f c).1 (h.symm.trans hport)
    · exact (plain_ne f c).2 (h.symm.trans hport)
  · intro h
    rcases bindKind_cases f with hk | hk | hk
    · exact message_plain hk
    · exact absurd (.inl (message_inUse hk)) h
    · exact absurd (.inr (message_denied hk)) h

theorem message_visible (f : Failure) (c : Category) : isBlank (f.userMessage c) = false := by
  rcases bindKind_cases f with hk | hk | hk
  · rw [message_plain hk]
    by_cases hc : c = .initialization
    · rw [hc, plain_initialization]
      decide +kernel
    · exact first_visible (plain_first f hc) rfl
  · rw [message_inUse hk]
    decide +kernel
  · rw [message_denied hk]
    decide +kernel

theorem details_visible (f : Failure) : isBlank f.details = false :=
  first_visible (c := 'E') (first_append (first_append (first_append
    (first_append (by decide +kernel) _) _) _) _) rfl

theorem classify_eq (f : Failure) (c : Category) :
    f.classify c = ⟨c, f.severity c, f.userMessage c, f.details⟩ := by
  simp [classify, Report.make, message_visible, details_visible]

/-- Whatever the failure, its causes and the category: the message blames the port exactly when
an error that denies a port is the failure or one of its causes, and is the category's own
otherwise. Such a message contradicts the severity under every category but two. -/
theorem worded (f : Failure) (c : Category) : Worded f c where
  inUse := inUse_iff.trans bindKind_some_iff
  denied := denied_iff.trans bindKind_some_iff
  own := own_iff
  network cause hf := by rw [blames_iff, hf, network_denies_iff]
  server hc := by rw [blames_iff, hc, server_fatal_iff]
  contradicts := by
    rw [blames_iff]
    cases c with
    | proxyServer =>
      refine iff_of_false ?_ (by simp)
      rintro ⟨hdenies, hmild⟩
      rw [server_fatal_iff.mpr hdenies] at hmild
      cases hmild
    | _ => simp [severity]
  shown := classify_eq f c

end

def barredTarget : Failure := .network (.connect "example.org:80" (.system 13))

/-- The handler of a client reports that its target cannot be reached. The report can be
recovered from, and says that the server failed to start. -/
theorem target_blames_port : ∃ acts,
    runAll (Handler.stepAt default) [(0, .begun), (0, .clientReady),
      (1, .targetFailed (.connect "example.org:80" (.system 13)))] .waiting = some (.gone, acts) ∧
    acts.head? = some (.reported barredTarget .networkIo) ∧
    barredTarget.severity .networkIo = .recoverable ∧
    barredTarget.userMessage .networkIo = portDenied ∧
    barredTarget.userMessage .networkIo ≠ barredTarget.plainMessage .networkIo := by
  refine ⟨_, rfl, rfl, rfl, rfl, (plain_ne _ _).2.symm⟩

end Failure
end Wiretap
