import Wiretap.Program
import Wiretap.Proofs.Config.Sessions

/-! From the options to the session. The options and the file they name are merged
setting by setting, and the rules of a configuration are asked of the result. They
are stricter than those of a session, so what they let through describes one. -/

set_option autoImplicit false

namespace Wiretap
open Wiretap.Text

def Takes {α : Type} (given : Option α) (was now : α) : Prop :=
  (∀ v, given = some v → now = v) ∧ (given = none → now = was)

namespace Options

inductive Loads (o : Options) (read : String → Except IoFailure (List UInt8)) : Config → Prop where
  | default (unnamed : o.configFile = none) : Loads o read .default
  | file {path : String} {bytes : List UInt8} {c : Config} (named : o.configFile = some path)
    (found : read path = .ok bytes) (parsed : Config.ofBytes bytes = .ok c) : Loads o read c

/-- The merge of the options over `base`, which switches never turn the other way. -/
structure Merged (o : Options) (base c : Config) : Prop where
  listenAddress : Takes o.listenAddress base.session.listenAddress c.session.listenAddress
  listenPort : Takes o.listenPort base.session.listenPort c.session.listenPort
  targetHost : Takes o.targetHost base.session.targetHost c.session.targetHost
  targetPort : Takes o.targetPort base.session.targetPort c.session.targetPort
  serverName : Takes (o.serverName.map some) base.session.serverName c.session.serverName
  tls : c.session.tls = true ↔ base.session.tls = true ∨ o.tls = true
  intercepts : c.tuning.interceptClients = true ↔
    base.tuning.interceptClients = true ∧ o.noIntercept = false
  verifies : c.tuning.verifyTarget = true ↔
    base.tuning.verifyTarget = true ∧ o.insecureTarget = false
  others : c.tuning = { base.tuning with
    interceptClients := c.tuning.interceptClients, verifyTarget := c.tuning.verifyTarget }

end Options

/-- The session of a configuration: its two ends, and a server name exactly when it uses TLS. -/
structure Config.Describes (c : Config) (s : Session) : Prop where
  localAddress : s.localAddress = c.session.listenAddress
  localPort : s.localPort = c.session.listenPort
  targetHost : s.targetHost = c.session.targetHost
  targetPort : s.targetPort = c.session.targetPort
  tls : s.tls = c.session.tls
  named : c.session.tls = true → s.serverName = c.session.serverName
  serverName : (∃ name, s.serverName = some name ∧ isBlank name = false) ↔ c.session.tls = true
  dropped : c.session.tls = false → s.serverName = none
  idle : s.active = false

section
variable {o : Options} {read : String → Except IoFailure (List UInt8)} {base c : Config}

theorem bind_ok_iff {ε α β : Type} {x : Except ε α} {f : α → Except ε β} {b : β} :
    x >>= f = .ok b ↔ ∃ a, x = .ok a ∧ f a = .ok b := by
  cases x <;> simp [bind, Except.bind]

theorem bind_error_iff {ε α β : Type} {x : Except ε α} {f : α → Except ε β} {e : ε} :
    x >>= f = .error e ↔ x = .error e ∨ ∃ a, x = .ok a ∧ f a = .error e := by
  cases x <;> simp [bind, Except.bind]

theorem mapError_ok_iff {ε δ α : Type} {x : Except ε α} {f : ε → δ} {a : α} :
    x.mapError f = .ok a ↔ x = .ok a := by
  cases x <;> constructor <;> intro h <;> cases h <;> rfl

theorem mapError_error_iff {ε δ α : Type} {x : Except ε α} {f : ε → δ} {e : δ} :
    x.mapError f = .error e ↔ ∃ d, x = .error d ∧ f d = e := by
  cases x with
  | error d =>
    constructor
    · intro h
      cases h
      exact ⟨d, rfl, rfl⟩
    · rintro ⟨_, h, rfl⟩
      cases h
      rfl
  | ok a =>
    constructor
    · intro h
      cases h
    · rintro ⟨_, h, -⟩
      cases h

theorem takes_iff {α : Type} {given : Option α} {was now : α} :
    Takes given was now ↔ now = given.getD was := by
  cases given <;> simp [Takes]

namespace Options

theorem loads_iff : Loads o read c ↔ o.base read = .ok c := by
  unfold Options.base
  constructor
  · intro h
    cases h with
    | default unnamed => rw [unnamed]
    | file named found parsed => simp only [named, found, parsed]
  · intro h
    cases hname : o.configFile with
    | none =>
      simp only [hname, Except.ok.injEq] at h
      exact h ▸ .default hname
    | some path =>
      cases hread : read path with
      | error e => simp only [hname, hread, reduceCtorEq] at h
      | ok bytes =>
        simp only [hname, hread] at h
        exact .file hname hread h

theorem merged_applyTo (o : Options) (base : Config) : Merged o base (o.applyTo base) := by
  refine ⟨takes_iff.mpr rfl, takes_iff.mpr rfl, takes_iff.mpr rfl, takes_iff.mpr rfl,
    takes_iff.mpr ?_, ?_, ?_, ?_, rfl⟩
  · cases hname : o.serverName <;> simp [applyTo, hname]
  · simp [applyTo, or_comm]
  · simp [applyTo]
  · simp [applyTo]

/-- The rules of the merge leave nothing open. -/
theorem merged_unique {c d : Config} (hc : Merged o base c) (hd : Merged o base d) : c = d := by
  have htuning : c.tuning = d.tuning := by
    rw [hc.others, hd.others, Bool.eq_iff_iff.mpr (hc.intercepts.trans hd.intercepts.symm),
      Bool.eq_iff_iff.mpr (hc.verifies.trans hd.verifies.symm)]
  have hsession : c.session = d.session := by
    rw [SessionSettings.mk.injEq]
    exact ⟨(takes_iff.mp hc.listenAddress).trans (takes_iff.mp hd.listenAddress).symm,
      (takes_iff.mp hc.listenPort).trans (takes_iff.mp hd.listenPort).symm,
      (takes_iff.mp hc.targetHost).trans (takes_iff.mp hd.targetHost).symm,
      (takes_iff.mp hc.targetPort).trans (takes_iff.mp hd.targetPort).symm,
      Bool.eq_iff_iff.mpr (hc.tls.trans hd.tls.symm),
      (takes_iff.mp hc.serverName).trans (takes_iff.mp hd.serverName).symm⟩
  calc c = ⟨c.session, c.tuning⟩ := rfl
    _ = ⟨d.session, d.tuning⟩ := by rw [hsession, htuning]
    _ = d := rfl

theorem merged_iff : Merged o base c ↔ c = o.applyTo base :=
  ⟨fun h => merged_unique h (merged_applyTo o base), fun h => h ▸ merged_applyTo o base⟩

theorem config_iff : o.config read = .ok c ↔
    ∃ base, o.base read = .ok base ∧ c = o.applyTo base ∧ c.validate = .ok () := by
  simp only [Options.config, bind_ok_iff]
  constructor
  · rintro ⟨base, hbase, ⟨⟩, hvalid, hc⟩
    cases hc
    exact ⟨base, hbase, rfl, hvalid⟩
  · rintro ⟨base, hbase, rfl, hvalid⟩
    exact ⟨base, hbase, (), hvalid, rfl⟩

end Options

theorem Config.session_described (h : c.validate = .ok ()) :
    ∃ s, Session.ofSettings c.session = .ok s ∧ c.Describes s := by
  have hvalid := (Config.validate_iff c).mp h
  refine ⟨_, Config.valid_session hvalid, rfl, rfl, rfl, rfl, rfl, ?_, ?_, ?_, rfl⟩
  · intro htls
    simp [Config.sessionName, htls]
  · cases htls : c.session.tls with
    | false => simp [Config.sessionName, htls]
    | true => simpa [Config.sessionName, htls] using hvalid.serverName htls
  · intro htls
    simp [Config.sessionName, htls]

/-- No program finds its session at fault after it has found its configuration in order. -/
theorem Program.session_sound (e : ConfigFailure) :
    Program.prepare o read ≠ .error (.session e) := by
  intro h
  rcases bind_error_iff.mp h with h | ⟨c, hc, h⟩
  · obtain ⟨failure, -, h⟩ := mapError_error_iff.mp h
    cases h
  · obtain ⟨-, -, -, hvalid⟩ := Options.config_iff.mp (mapError_ok_iff.mp hc)
    obtain ⟨s, hs, -⟩ := Config.session_described hvalid
    rcases bind_error_iff.mp h with h | ⟨s, -, h⟩
    · obtain ⟨failure, h, -⟩ := mapError_error_iff.mp h
      rw [hs] at h
      cases h
    · split at h
      · rcases bind_error_iff.mp h with h | ⟨issuer, -, h⟩
        · obtain ⟨failure, -, h⟩ := mapError_error_iff.mp h
          cases h
        · cases h
      · cases h

/-- Whatever the options and the files are: a configuration comes of them exactly when the file
is read and the merge over it breaks no rule, and it is that merge. A configuration that
breaks no rule describes a session, so the session is never what a program fails for. -/
theorem Options.settled (o : Options) (read : String → Except IoFailure (List UInt8)) :
    (∀ c, o.config read = .ok c ↔
      ∃ base, o.Loads read base ∧ o.Merged base c ∧ c.validate = .ok ()) ∧
    (∀ c : Config, c.validate = .ok () →
      ∃ s, Session.ofSettings c.session = .ok s ∧ c.Describes s) ∧
    ∀ e, Program.prepare o read ≠ .error (.session e) := by
  refine ⟨fun c => ?_, fun c h => Config.session_described h, Program.session_sound⟩
  simp only [config_iff, loads_iff, merged_iff]

end

def tunedText : String := "[proxy]\nmax_connections = 8\n"

def tunedFile : List UInt8 := tunedText.toList.map (fun c => UInt8.ofNat c.toNat)

def tuned : Config := ⟨.default, { Tuning.default with maxConnections := 8 }⟩

theorem tunedFile_parsed : Config.ofBytes tunedFile = .ok tuned := by
  have hparsed : (Config.ofBytes tunedFile).toOption = some tuned := by decide +kernel
  cases h : Config.ofBytes tunedFile <;> rw [h] at hparsed <;> cases hparsed
  rfl

def plainOptions : Options where
  configFile := some "tap.toml"
  listenAddress := none
  listenPort := some 8080
  targetHost := some "example.org"
  targetPort := some 80
  tls := false
  serverName := some "example.org"
  noIntercept := true
  insecureTarget := false
  json := false

theorem Options.settled_plain : ∃ c s, plainOptions.config (fun _ => .ok tunedFile) = .ok c ∧
    Session.ofSettings c.session = .ok s ∧ c.Describes s ∧
    c.tuning = { Tuning.default with maxConnections := 8, interceptClients := false } ∧
    c.session.serverName = some "example.org" ∧ s.serverName = none := by
  obtain ⟨hconfig, hsession, -⟩ := Options.settled plainOptions (fun _ => .ok tunedFile)
  have hvalid : (plainOptions.applyTo tuned).validate = .ok () := rfl
  obtain ⟨s, hs, hdescribes⟩ := hsession _ hvalid
  refine ⟨plainOptions.applyTo tuned, s, (hconfig _).mpr ?_, hs, hdescribes, rfl, rfl,
    hdescribes.dropped rfl⟩
  exact ⟨tuned, .file rfl rfl tunedFile_parsed, Options.merged_applyTo _ _, hvalid⟩

end Wiretap
