import Wiretap.Failure
import Wiretap.Text.Blank

/-!
# Configuration

Where to listen, where to relay to, and how the engine is tuned. Every setting
has a default; a configuration that passes validation describes a session and
an engine that can be set up.
-/

set_option autoImplicit false

namespace Wiretap
open Wiretap.Text

structure SessionSettings where
  listenAddress : String
  listenPort : UInt16
  targetHost : String
  targetPort : UInt16
  tls : Bool
  serverName : Option String
  deriving DecidableEq, Repr

def SessionSettings.default : SessionSettings := ⟨"127.0.0.1", 0, "", 0, false, none⟩

instance : Inhabited SessionSettings := ⟨.default⟩

/-- How the engine is tuned. No limit on connections is written as zero. -/
structure Tuning where
  bufferSize : Nat
  quiescenceMillis : Nat
  maxPacketSize : Nat
  gracefulSeconds : Nat
  forcedSeconds : Nat
  maxConnections : Nat
  validityDays : Nat
  interceptClients : Bool
  verifyTarget : Bool
  deriving DecidableEq, Repr

def Tuning.default : Tuning := ⟨8192, 50, 1048576, 10, 5, 0, 30, true, true⟩

instance : Inhabited Tuning := ⟨.default⟩

structure Config where
  session : SessionSettings
  tuning : Tuning
  deriving DecidableEq, Repr, Inhabited

def Config.default : Config := ⟨.default, .default⟩

namespace Config

def validate (c : Config) : Except ConfigFailure Unit :=
  let s := c.session
  if isBlank s.listenAddress || hasSpace s.listenAddress then
    .error (.badAddress s!"invalid listen address '{s.listenAddress}'")
  else if s.listenPort = 0 then
    .error (.badPort "listen_port must be between 1 and 65535")
  else if isBlank s.targetHost then
    .error (.badAddress "target_host must not be empty")
  else if s.targetPort = 0 then
    .error (.badPort "target_port must be between 1 and 65535")
  else if s.tls && s.serverName.all isBlank then
    .error .missingServerName
  else if c.tuning.bufferSize = 0 then
    .error (.outOfRange "buffer_size must be greater than 0")
  else if c.tuning.validityDays = 0 then
    .error (.outOfRange "certificate_validity_days must be greater than 0")
  else .ok ()

end Config

/-- A burst ends after `quiescence` milliseconds of silence, or once it has `maxPacket` bytes. -/
structure DrainSettings where
  bufferSize : Nat
  quiescence : Nat
  maxPacket : Nat
  deriving DecidableEq, Repr

def DrainSettings.default : DrainSettings := ⟨8192, 50, 1048576⟩

instance : Inhabited DrainSettings := ⟨.default⟩

def DrainSettings.ofTuning (t : Tuning) : DrainSettings :=
  ⟨max t.bufferSize 1, t.quiescenceMillis, max t.maxPacketSize 1⟩

/-- How long each stage of a shutdown may take, in milliseconds. -/
structure ShutdownPolicy where
  acceptLoop : Nat
  graceful : Nat
  forced : Nat
  deriving DecidableEq, Repr

def ShutdownPolicy.ofTuning (t : Tuning) : ShutdownPolicy :=
  ⟨1000, t.gracefulSeconds * 1000, t.forcedSeconds * 1000⟩

def ShutdownPolicy.default : ShutdownPolicy := .ofTuning .default

instance : Inhabited ShutdownPolicy := ⟨.default⟩

end Wiretap
