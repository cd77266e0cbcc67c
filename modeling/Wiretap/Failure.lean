import Wiretap.Failure.SystemError
import Wiretap.Text.Quoted

/-!
# Failures

Everything that can go wrong is a value that keeps its causes. A failure has a
message for people, a structure text for logs, and a chain of causes. Only
network failures and failures from outside name a cause; an error that wraps
another one takes over its message and passes on that one's own causes.
-/

set_option autoImplicit false

namespace Wiretap

inductive CertificateFailure where
  | missingMaterial (what : String)
  | malformedMaterial (what : String)
  | generation (what : String)
  | verification (what : String)
  | keyStore (what : String)
  deriving DecidableEq, Repr, Inhabited

mutual

inductive IoFailure where
  | system (code : Int)
  | plain (kind : IoKind)
  | described (kind : IoKind) (message : String)
  | wrapping (kind : IoKind) (inner : Failure)

inductive ConfigFailure where
  | unreadable (error : IoFailure)
  | syntaxError (message : String)
  | badAddress (message : String)
  | badPort (message : String)
  | missingServerName
  | outOfRange (message : String)

inductive NetworkFailure where
  | bind (error : IoFailure)
  | accept (error : IoFailure)
  | resolution (target : String)
  | connect (target : String) (error : IoFailure)
  | handshake (peer : String) (error : IoFailure)
  | serverName (name : String)
  | tlsSetup (message : String)

inductive SessionFailure where
  | alreadyActive
  | alreadyRunning
  | invalid (error : ConfigFailure)
  | network (error : NetworkFailure)
  | certificate (error : CertificateFailure)
  | callback (message : String)
  | poolClosed

inductive Failure where
  | io (error : IoFailure)
  | config (error : ConfigFailure)
  | network (error : NetworkFailure)
  | certificate (error : CertificateFailure)
  | session (error : SessionFailure)
  | foreign (message : String)
  | foreignDueTo (message : String) (cause : Failure)

end

instance : Inhabited IoFailure := ⟨.plain .other⟩
instance : Inhabited ConfigFailure := ⟨.missingServerName⟩
instance : Inhabited NetworkFailure := ⟨.serverName ""⟩
instance : Inhabited SessionFailure := ⟨.poolClosed⟩
instance : Inhabited Failure := ⟨.foreign ""⟩

def IoFailure.kind : IoFailure → IoKind
  | .system code => IoKind.ofCode code
  | .plain kind => kind
  | .described kind _ => kind
  | .wrapping kind _ => kind

def CertificateFailure.kinds : List (String × (String → CertificateFailure)) :=
  [("MissingMaterial", .missingMaterial), ("MalformedMaterial", .malformedMaterial),
   ("Generation", .generation), ("Verification", .verification), ("KeyStore", .keyStore)]

def CertificateFailure.signing : List (String × CertificateFailure) :=
  [("CouldNotParseCertificate", .generation "Could not parse certificate"),
   ("KeyGenerationUnavailable",
    .generation "There is no support for generating keys for the given algorithm"),
   ("RemoteKeyError", .generation "Remote key error")]

def CertificateFailure.tag : CertificateFailure → String
  | .missingMaterial _ => "MissingMaterial"
  | .malformedMaterial _ => "MalformedMaterial"
  | .generation _ => "Generation"
  | .verification _ => "Verification"
  | .keyStore _ => "KeyStore"

def CertificateFailure.what : CertificateFailure → String
  | .missingMaterial what => what
  | .malformedMaterial what => what
  | .generation what => what
  | .verification what => what
  | .keyStore what => what

def ConfigFailure.tag : ConfigFailure → String
  | .unreadable _ => "IoError"
  | .syntaxError _ => "TomlError"
  | .badAddress _ => "BadIPFormatting"
  | .badPort _ => "BadPortsRange"
  | .missingServerName => "MissingSniHost"
  | .outOfRange _ => "NotInRange"

def ConfigFailure.ofTag? (tag message : String) (error : IoFailure) : Option ConfigFailure :=
  [("IoError", .unreadable error), ("TomlError", .syntaxError message),
   ("BadIPFormatting", .badAddress message), ("BadPortsRange", .badPort message),
   ("MissingSniHost", .missingServerName), ("NotInRange", .outOfRange message)].lookup tag

def NetworkFailure.tag : NetworkFailure → String
  | .bind _ => "BindError"
  | .accept _ => "AcceptError"
  | .resolution _ => "AddressResolution"
  | .connect _ _ => "ConnectFailed"
  | .handshake _ _ => "TlsHandshake"
  | .serverName _ => "InvalidServerName"
  | .tlsSetup _ => "TlsConfig"

def NetworkFailure.ofTag? (tag message : String) (error : IoFailure) : Option NetworkFailure :=
  [("BindError", .bind error), ("AcceptError", .accept error),
   ("AddressResolution", .resolution message), ("ConnectFailed", .connect message error),
   ("TlsHandshake", .handshake message error), ("InvalidServerName", .serverName message),
   ("TlsConfig", .tlsSetup message)].lookup tag

def SessionFailure.tag : SessionFailure → String
  | .alreadyActive => "AlreadyActive"
  | .alreadyRunning => "AlreadyRunning"
  | .invalid _ => "InvalidSession"
  | .network _ => "NetworkError"
  | .certificate _ => "CertificateError"
  | .callback _ => "CallbackFailed"
  | .poolClosed => "PoolClosed"

def CertificateFailure.message : CertificateFailure → String
  | .missingMaterial what => s!"CA material not found: {what}"
  | .malformedMaterial what => s!"Malformed CA material: {what}"
  | .generation what => s!"Certificate generation failed: {what}"
  | .verification what => s!"Certificate verification failed: {what}"
  | .keyStore what => s!"Key store error: {what}"

mutual

def IoFailure.message : IoFailure → String
  | .system code => s!"{SystemError.text code} (os error {code})"
  | .plain kind => kind.text
  | .described _ message => message
  | .wrapping _ inner => inner.message

def ConfigFailure.message : ConfigFailure → String
  | .unreadable error => s!"IO error: {error.message}"
  | .syntaxError message => s!"TOML parsing error: {message}"
  | .badAddress message => s!"IP formatting error: {message}"
  | .badPort message => s!"Port range error: {message}"
  | .missingServerName => "An SNI host name is required when TLS is enabled"
  | .outOfRange message => s!"Value out of range: {message}"

def NetworkFailure.message : NetworkFailure → String
  | .bind error => s!"Network bind error: {error.message}"
  | .accept error => s!"Accept failed: {error.message}"
  | .resolution target => s!"Unable to resolve address: {target}"
  | .connect target error => s!"Connection to {target} failed: {error.message}"
  | .handshake peer error => s!"TLS handshake with {peer} failed: {error.message}"
  | .serverName name => s!"Invalid TLS server name: {name}"
  | .tlsSetup message => s!"TLS configuration error: {message}"

def SessionFailure.message : SessionFailure → String
  | .alreadyActive => "A proxy session is already active"
  | .alreadyRunning => "A proxy server is already running"
  | .invalid error => s!"Invalid session: {error.message}"
  | .network error => s!"Network error: {error.message}"
  | .certificate error => s!"Certificate error: {error.message}"
  | .callback message => s!"Callback failed: {message}"
  | .poolClosed => "Worker pool no longer accepts tasks"

def Failure.message : Failure → String
  | .io error => error.message
  | .config error => error.message
  | .network error => error.message
  | .certificate error => error.message
  | .session error => error.message
  | .foreign message => message
  | .foreignDueTo message _ => message

end

def inBraces (name fields : String) : String := s!"{name} \x7b {fields} \x7d"

def inParens (name argument : String) : String := s!"{name}({argument})"

def CertificateFailure.structureText (e : CertificateFailure) : String :=
  inParens e.tag (Text.Quoted.text e.what)

mutual

def IoFailure.structureText : IoFailure → String
  | .system code => inBraces "Os" (s!"code: {code}, kind: {(IoKind.ofCode code).name}, message: "
      ++ Text.Quoted.text (SystemError.text code))
  | .plain kind => inParens "Kind" kind.name
  | .described kind message =>
    inBraces "Custom" (s!"kind: {kind.name}, error: " ++ Text.Quoted.text message)
  | .wrapping kind inner =>
    inBraces "Custom" (s!"kind: {kind.name}, error: " ++ inner.structureText)

def ConfigFailure.structureText : ConfigFailure → String
  | .unreadable error => inParens "IoError" error.structureText
  | .syntaxError message => inParens "TomlError" (Text.Quoted.text message)
  | .badAddress message => inParens "BadIPFormatting" (Text.Quoted.text message)
  | .badPort message => inParens "BadPortsRange" (Text.Quoted.text message)
  | .missingServerName => "MissingSniHost"
  | .outOfRange message => inParens "NotInRange" (Text.Quoted.text message)

def NetworkFailure.structureText : NetworkFailure → String
  | .bind error => inParens "BindError" error.structureText
  | .accept error => inParens "AcceptError" error.structureText
  | .resolution target => inParens "AddressResolution" (Text.Quoted.text target)
  | .connect target error => inBraces "ConnectFailed"
      ("target: " ++ Text.Quoted.text target ++ ", source: " ++ error.structureText)
  | .handshake peer error => inBraces "TlsHandshake"
      ("peer: " ++ Text.Quoted.text peer ++ ", source: " ++ error.structureText)
  | .serverName name => inParens "InvalidServerName" (Text.Quoted.text name)
  | .tlsSetup message => inParens "TlsConfig" (Text.Quoted.text message)

def SessionFailure.structureText : SessionFailure → String
  | .alreadyActive => "AlreadyActive"
  | .alreadyRunning => "AlreadyRunning"
  | .invalid error => inParens "InvalidSession" error.structureText
  | .network error => inParens "NetworkError" error.structureText
  | .certificate error => inParens "CertificateError" error.structureText
  | .callback message => inParens "CallbackFailed" (Text.Quoted.text message)
  | .poolClosed => "PoolClosed"

def Failure.structureText : Failure → String
  | .io error => error.structureText
  | .config error => error.structureText
  | .network error => error.structureText
  | .certificate error => error.structureText
  | .session error => error.structureText
  | .foreign _ => "Custom"
  | .foreignDueTo _ _ => "Custom"

end

def NetworkFailure.socketError? : NetworkFailure → Option IoFailure
  | .bind error => some error
  | .accept error => some error
  | .connect _ error => some error
  | .handshake _ error => some error
  | .resolution _ => none
  | .serverName _ => none
  | .tlsSetup _ => none

mutual

def IoFailure.causes : IoFailure → List Failure
  | .wrapping _ inner => inner.causes
  | .system _ => []
  | .plain _ => []
  | .described _ _ => []

def NetworkFailure.causes : NetworkFailure → List Failure
  | .bind error => .io error :: error.causes
  | .accept error => .io error :: error.causes
  | .connect _ error => .io error :: error.causes
  | .handshake _ error => .io error :: error.causes
  | .resolution _ => []
  | .serverName _ => []
  | .tlsSetup _ => []

def Failure.causes : Failure → List Failure
  | .io error => error.causes
  | .network error => error.causes
  | .foreignDueTo _ cause => cause :: cause.causes
  | .config _ => []
  | .certificate _ => []
  | .session _ => []
  | .foreign _ => []

end

def Failure.chain (f : Failure) : List Failure := f :: f.causes

end Wiretap
