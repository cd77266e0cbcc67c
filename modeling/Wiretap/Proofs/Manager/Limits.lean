import Wiretap.Manager
import Wiretap.Proofs.Config.Sessions
import Wiretap.Proofs.ServerName.Spelling
import Wiretap.Proofs.Timestamp.Calendar

/-! What validation does not promise. There are limits that no rule of a configuration knows
of: the calendar ends before some validities do, and a pool has only so many permits. The
start of a session breaks off where they are passed, and comes to a result otherwise. -/

set_option autoImplicit false

namespace Wiretap

namespace Issuer

def calendarEnd : Int := 253402300800

def Breaks (i : Issuer) (d : Draw) (days : Nat) : IssueBreak → Prop
  | .beyondCalendar => calendarEnd ≤ d.now.second + days * 86400
  | .identifier fault => d.now.second + days * 86400 < calendarEnd ∧
    WrittenAttribute.write i.name = .error fault

theorem beyond_iff (second : Int) :
    lastYear < (Date.ofDays (second / 86400)).year ↔ calendarEnd ≤ second := by
  have hyear : lastYear < (Date.ofDays (second / 86400)).year ↔ 2932897 ≤ second / 86400 :=
    Date.le_year_iff 10000 (second / 86400)
  rw [hyear, calendarEnd]
  omega

theorem issue_broken_iff {i : Issuer} {d : Draw} {name : String} {days : Nat} {reason : IssueBreak}
    {target : ServerName} (h : ServerName.read? name = some target) :
    i.issue d name days = .error (.broken reason) ↔ days ≠ 0 ∧ i.Breaks d days reason := by
  obtain ⟨hsome, hspelling⟩ := ServerName.read_spelling h
  have hfilled : name.isEmpty = false := by
    rw [Bool.eq_false_iff, ne_eq, String.isEmpty_iff]
    rintro rfl
    exact hsome rfl
  have hplain : name.toList.all (fun c => c.toNat < 128) = true :=
    List.all_eq_true.mpr fun c hc => decide_eq_true (spelling_plain (hspelling c hc)).1
  simp only [issue, ServerName.read_trim h, hfilled, hplain, beyond_iff, Bool.false_eq_true,
    if_false, Bool.not_true]
  by_cases hdays : days = 0
  · simp [hdays]
  rw [if_neg hdays]
  by_cases hend : calendarEnd ≤ d.now.second + days * 86400
  · rw [if_pos hend]
    cases reason with
    | beyondCalendar => simp [Breaks, hdays, hend]
    | identifier fault => simp [Breaks, Int.not_lt.mpr hend]
  · rw [if_neg hend]
    have hbefore : d.now.second + days * 86400 < calendarEnd := Int.not_le.mp hend
    cases hwrite : WrittenAttribute.write i.name with
    | error fault => cases reason <;> simp [Breaks, hdays, hend, hbefore, hwrite]
    | ok written =>
      dsimp only
      split <;> cases reason <;> simp [Breaks, hend, hwrite]

end Issuer

namespace TlsContext

structure Certifies (s : Session) (t : Tuning) (issuer : Option Issuer) (i : Issuer) : Prop where
  tls : s.tls = true
  intercepts : t.interceptClients = true
  issuer : issuer = some i
  named : ∃ name target, s.serverName = some name ∧ ServerName.read? name = some target

theorem present_broken {issuer : Option Issuer} {d : Draw} {name : String} {days : Nat}
    {reason : IssueBreak} (h : present issuer d name days = .error (.broken reason)) :
    ∃ i, issuer = some i ∧ i.issue d name days = .error (.broken reason) := by
  unfold present at h
  split at h
  · cases h
  · rename_i i
    split at h
    · rename_i hissue
      cases h
      exact ⟨i, rfl, hissue⟩
    · cases h
    · split at h <;> cases h

theorem forSession_broken_iff {s : Session} {t : Tuning} {issuer : Option Issuer} {d : Draw}
    {reason : IssueBreak} : forSession s t issuer d = .error (.broken reason) ↔
      ∃ i, Certifies s t issuer i ∧ t.validityDays ≠ 0 ∧ i.Breaks d t.validityDays reason := by
  constructor
  · intro h
    unfold forSession at h
    split at h
    · cases h
    · rename_i htls
      split at h
      · cases h
      · rename_i name hname
        split at h
        · cases h
        · rename_i target htarget
          dsimp only at h
          split at h
          · rename_i hintercepts
            cases hpresent : present issuer d name t.validityDays with
            | ok issued =>
              rw [hpresent] at h
              cases h
            | error stop =>
              rw [hpresent] at h
              cases h
              obtain ⟨i, hi, hissue⟩ := present_broken hpresent
              exact ⟨i, ⟨by simpa using htls, hintercepts, hi, name, target, hname, htarget⟩,
                (Issuer.issue_broken_iff htarget).mp hissue⟩
          · cases h
  · rintro ⟨i, ⟨htls, hintercepts, rfl, name, target, hname, htarget⟩, hdays, hbreaks⟩
    have hissue := (Issuer.issue_broken_iff htarget).mpr ⟨hdays, hbreaks⟩
    simp [forSession, present, htls, hintercepts, hname, htarget, hissue]

end TlsContext

namespace Manager

section
variable {m : Manager} {d : Draw} {i : Nat} {s : Session} {reason : IssueBreak} {e : SessionFailure}
  {tls : TlsContext} {log : List LogLine}

theorem start_serving (hs : m.sessions[i]? = some s) (hon : m.isServing = true) :
    m.start d i = (.error (.failed .alreadyRunning), m, []) := by
  simp [start, hs, hon]

theorem start_broken (hs : m.sessions[i]? = some s) (hoff : m.isServing = false)
    (h : TlsContext.forSession s m.tuning m.issuer d = .error (.broken reason)) :
    m.start d i = (.error (.broken reason), m, m.discarded ++ m.warned s) := by
  simp [start, hs, hoff, h]

theorem start_unready (hs : m.sessions[i]? = some s) (hoff : m.isServing = false)
    (h : TlsContext.forSession s m.tuning m.issuer d = .error (.failed e)) :
    m.start d i = (.error (.failed e), m, m.discarded ++ m.warned s ++
      [.reported (.session e) .initialization]) := by
  simp [start, hs, hoff, h]

theorem start_crowded (hs : m.sessions[i]? = some s) (hoff : m.isServing = false)
    (h : TlsContext.forSession s m.tuning m.issuer d = .ok (tls, log))
    (hmax : Pool.maxPermits < m.tuning.maxConnections) :
    m.start d i = (.error .tooManyConnections, m, m.discarded ++ log.map .logged) := by
  simp [start, hs, hoff, h, Pool.make, Nat.not_le.mpr hmax]

theorem start_hosts (hs : m.sessions[i]? = some s) (hoff : m.isServing = false)
    (h : TlsContext.forSession s m.tuning m.issuer d = .ok (tls, log))
    (hmax : m.tuning.maxConnections ≤ Pool.maxPermits) :
    ∃ pool, Pool.make m.tuning.maxConnections = .ok pool ∧
      m.start d i = (.ok (), m.host i s tls pool, m.discarded ++ log.map .logged ++
        [note .info s!"Proxy server started: {s.info}"]) := by
  refine ⟨_, if_pos hmax, ?_⟩
  simp [start, hs, hoff, h, Pool.make, hmax]

end

/-- What the start of a validated configuration comes to. -/
structure Starts (c : Config) (s : Session) (issuer : Option Issuer) (d : Draw)
    (result : Except StartStop Unit) : Prop where
  -- A certificate is asked for that ends after the calendar or cannot be written.
  breaks : ∀ reason, result = .error (.broken reason) ↔
    ∃ i, TlsContext.Certifies s c.tuning issuer i ∧ i.Breaks d c.tuning.validityDays reason
  -- TLS is set up, and there are not that many permits.
  crowded : result = .error .tooManyConnections ↔
    (∃ ready, TlsContext.forSession s c.tuning issuer d = .ok ready) ∧
      Pool.maxPermits < c.tuning.maxConnections
  -- Within these limits the start succeeds or fails.
  returns : c.tuning.maxConnections ≤ Pool.maxPermits →
    (∀ i, TlsContext.Certifies s c.tuning issuer i →
      d.now.second + c.tuning.validityDays * 86400 < Issuer.calendarEnd ∧
        ∃ written, WrittenAttribute.write i.name = .ok written) →
    result = .ok () ∨ ∃ e, result = .error (.failed e)

theorem starts_given {c : Config} {m : Manager} {s : Session} {issuer : Option Issuer} {d : Draw}
    (hdays : c.tuning.validityDays ≠ 0) (htuning : m.tuning = c.tuning)
    (hissuer : m.issuer = issuer) (hs : m.sessions[0]? = some s) (hoff : m.isServing = false) :
    Starts c s issuer d (m.start d 0).1 := by
  subst hissuer
  have hbroken : ∀ reason, (∃ i, TlsContext.Certifies s c.tuning m.issuer i ∧
      i.Breaks d c.tuning.validityDays reason) ↔
      TlsContext.forSession s m.tuning m.issuer d = .error (.broken reason) := fun reason => by
    rw [TlsContext.forSession_broken_iff, htuning]
    simp [hdays]
  cases hprepared : TlsContext.forSession s m.tuning m.issuer d with
  | error stop =>
    cases stop with
    | broken reason =>
      rw [start_broken hs hoff hprepared]
      refine ⟨fun other => ?_, ?_, fun _ hclear => ?_⟩
      · rw [hbroken, hprepared]
        simp
      · rw [← htuning, hprepared]
        simp
      · obtain ⟨i, hcertifies, hbreaks⟩ := (hbroken reason).mpr hprepared
        obtain ⟨hbefore, written, hwritten⟩ := hclear i hcertifies
        cases reason with
        | beyondCalendar => exact absurd hbefore (Int.not_lt.mpr hbreaks)
        | identifier fault =>
          rw [hbreaks.2] at hwritten
          cases hwritten
    | failed e =>
      rw [start_unready hs hoff hprepared]
      refine ⟨fun reason => ?_, ?_, fun _ _ => .inr ⟨e, rfl⟩⟩
      · rw [hbroken, hprepared]
        simp
      · rw [← htuning, hprepared]
        simp
  | ok ready =>
    obtain ⟨tls, log⟩ := ready
    rcases Nat.lt_or_ge Pool.maxPermits m.tuning.maxConnections with hmax | hmax
    · rw [start_crowded hs hoff hprepared hmax]
      refine ⟨fun reason => ?_, ?_, fun hle => ?_⟩
      · rw [hbroken, hprepared]
        simp
      · rw [← htuning, hprepared]
        simp [hmax]
      · rw [← htuning] at hle
        omega
    · obtain ⟨pool, -, hstart⟩ := start_hosts hs hoff hprepared hmax
      rw [hstart]
      refine ⟨fun reason => ?_, ?_, fun _ _ => .inl rfl⟩
      · rw [hbroken, hprepared]
        simp
      · rw [← htuning, hprepared]
        simp [hmax]

/-- Every configuration that is accepted, with any issuer, and whatever is drawn. -/
theorem validated_start {c : Config} (h : c.validate = .ok ()) :
    ∃ s, Session.ofSettings c.session = .ok s ∧
      ∀ policy issuer capture d, Starts c s issuer d
        (((make c.tuning policy issuer capture).give s).1.start d 0).1 := by
  have hvalid := (Config.validate_iff c).mp h
  exact ⟨_, Config.valid_session hvalid, fun policy issuer capture d =>
    starts_given hvalid.validityDays rfl rfl rfl rfl⟩

def longConfig : Config :=
  ⟨⟨"127.0.0.1", 8080, "example.org", 443, true, some "example.org"⟩,
    { Tuning.default with validityDays := 4294967295 }⟩

def crowdedConfig : Config :=
  ⟨⟨"127.0.0.1", 8080, "example.org", 80, false, none⟩,
    { Tuning.default with maxConnections := 2305843009213693952 }⟩

theorem validated_start_limits :
    (∃ s, longConfig.validate = .ok () ∧ Session.ofSettings longConfig.session = .ok s ∧
      (((make longConfig.tuning .default (some default) default).give s).1.start default 0).1 =
        .error (.broken .beyondCalendar)) ∧
    ∃ s, crowdedConfig.validate = .ok () ∧ Session.ofSettings crowdedConfig.session = .ok s ∧
      (((make crowdedConfig.tuning .default none default).give s).1.start default 0).1 =
        .error .tooManyConnections := by
  have hlong : longConfig.validate = .ok () := rfl
  have hcrowded : crowdedConfig.validate = .ok () := rfl
  obtain ⟨s, hs, hstarts⟩ := validated_start hlong
  obtain ⟨r, hr, hplain⟩ := validated_start hcrowded
  cases hs
  cases hr
  refine ⟨⟨_, hlong, rfl, ?_⟩, _, hcrowded, rfl, ?_⟩
  · refine ((hstarts .default (some default) default default).breaks .beyondCalendar).mpr
      ⟨default, ⟨rfl, rfl, rfl, "example.org", .host "example.org", rfl, ?_⟩, ?_⟩
    · decide
    · show Issuer.calendarEnd ≤ 0 + (4294967295 : Nat) * 86400
      decide
  · exact (hplain .default none default default).crowded.mpr ⟨⟨(.plain, []), rfl⟩, by decide⟩

end Manager
end Wiretap
