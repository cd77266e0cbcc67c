import Wiretap.Config
import Wiretap.Text.Utf8
import Wiretap.Toml.Document

/-!
# Reading a configuration

A configuration text has a session table and a tuning table, both of which
may be left out. Unknown keys and values of the wrong type or range are
refused. A table may also be written as an array of its settings in order,
where the end may be cut off as far as the settings have defaults.
-/

set_option autoImplicit false

namespace Wiretap
open Wiretap.Toml

def knownKeys (names : List String) (entries : Entries) : Bool :=
  entries.all (fun e => names.contains e.1)

def settings? (names : List String) : Value → Option (List (Option Value))
  | .table entries =>
    if knownKeys names entries then some (names.map (fun n => find? n entries)) else none
  | .array items => some (names.mapIdx (fun i _ => items[i]?))
  | _ => none

def required {α : Type} (read : Value → Option α) (v : Option Value) : Option α := v.bind read

/-- A setting that may be left out, but not be given wrongly. -/
def withDefault {α : Type} (default : α) (read : Value → Option α) (v : Option Value) :
    Option α :=
  match v with
  | none => some default
  | some v => read v

def portValue (v : Value) : Option UInt16 := (v.natural? 65536).map UInt16.ofNat

namespace SessionSettings

def names : List String :=
  ["listen_address", "listen_port", "target_host", "target_port", "tls", "sni_host"]

def ofValue? (v : Value) : Option SessionSettings := do
  match ← settings? names v with
  | [address, port, host, targetPort, tls, serverName] =>
    some ⟨← withDefault SessionSettings.default.listenAddress (·.string?) address,
      ← required portValue port, ← required (·.string?) host,
      ← required portValue targetPort, ← withDefault false (·.boolean?) tls,
      ← withDefault none (fun v => v.string?.map some) serverName⟩
  | _ => none

end SessionSettings

namespace Tuning

def names : List String :=
  ["buffer_size", "drain_quiescence_ms", "max_packet_size", "graceful_shutdown_secs",
   "forced_shutdown_secs", "max_connections", "certificate_validity_days",
   "intercept_client_tls", "verify_upstream_certificates"]

def long (v : Value) : Option Nat := v.natural? (Nat.pow 2 64)

def ofValue? (v : Value) : Option Tuning := do
  let d := Tuning.default
  match ← settings? names v with
  | [buffer, quiescence, packet, graceful, forced, connections, days, intercept, verify] =>
    some ⟨← withDefault d.bufferSize long buffer,
      ← withDefault d.quiescenceMillis long quiescence,
      ← withDefault d.maxPacketSize long packet,
      ← withDefault d.gracefulSeconds long graceful,
      ← withDefault d.forcedSeconds long forced,
      ← withDefault d.maxConnections long connections,
      ← withDefault d.validityDays (·.natural? (Nat.pow 2 32)) days,
      ← withDefault d.interceptClients (·.boolean?) intercept,
      ← withDefault d.verifyTarget (·.boolean?) verify⟩
  | _ => none

end Tuning

namespace Config

def ofEntries? (entries : Entries) : Option Config := do
  if knownKeys ["session", "proxy"] entries then
    let session ← withDefault .default SessionSettings.ofValue? (find? "session" entries)
    let tuning ← withDefault .default Tuning.ofValue? (find? "proxy" entries)
    some ⟨session, tuning⟩
  else none

def parse (text : String) : Except ConfigFailure Config :=
  match (document? text.toList).bind ofEntries? with
  | some c => .ok c
  | none => .error (.syntaxError "not a configuration")

def ofBytes (bytes : List UInt8) : Except ConfigFailure Config :=
  match Text.Utf8.toString? bytes with
  | some text => parse text
  | none =>
    .error (.unreadable (.described .invalidData "stream did not contain valid UTF-8"))

end Config
end Wiretap
