import Wiretap.Connection.Stored
import Wiretap.Options
import Wiretap.Service

/-!
# The program

What the program does from its options to its end, apart from the sockets: it
imports the configuration, makes the session and its issuer, runs the service
until it is interrupted or a fatal failure is reported, and shows each packet.
Only log lines of some weight are shown; the lines of one message after its
first are indented.
-/

set_option autoImplicit false

namespace Wiretap.Program

def title : String := "tcptap"

def version : String := "0.1.0"

def versionLine : String := s!"{title} {version}\n"

def optionText (o : CommandLine.Spec) : String :=
  let value := o.long.toUpper.replace "-" "_"
  (o.short.elim "    " (fun c => s!"-{c}, ")) ++ s!"--{o.long}" ++
    if o.kind.takesValue then s!" <{value}>" else ""

def usage : String :=
  s!"Usage: {title} [OPTIONS]\n\nOptions:\n" ++
    String.join (Options.specs.map (fun o => s!"  {optionText o}\n"))

def refusal (usage : String) : CommandLine.Refusal → Nat × String
  | .help => (0, usage)
  | .version => (0, versionLine)
  | _ => (2, "")

def rule : String := String.ofList (List.replicate 78 '=')

def banner : String :=
  s!"\n{rule}\n            {title} v{version} - intercepting TCP/TLS proxy\n{rule}\n\n"

structure Launch where
  options : Options
  config : Config
  session : Session
  issuer : Option Issuer
  deriving Inhabited

inductive LaunchFailure where
  | configuration (error : ConfigFailure)
  | session (error : ConfigFailure)
  | issuer (error : CertificateFailure)
  deriving Inhabited

def reporter : Reporter := ⟨true, true⟩

def reportLines (r : Service.Reported) : List LogLine := (reporter.report r.1 r.2).1

def fatal? (rs : List Service.Reported) : Option Report :=
  rs.findSome? (fun r => (reporter.report r.1 r.2).2)

def LaunchFailure.log : LaunchFailure → List LogLine
  | .configuration e => [⟨.error, s!"Invalid configuration: {e.message}"⟩]
  | .session e => [⟨.error, s!"Invalid session: {e.message}"⟩]
  | .issuer e => reportLines (.certificate e, .initialization)

def needsIssuer (c : Config) (s : Session) : Bool := s.tls && c.tuning.interceptClients

def prepare (o : Options) (read : String → Except IoFailure Bytes) :
    Except LaunchFailure Launch := do
  let config ← (o.config read).mapError .configuration
  let session ← (Session.ofSettings config.session).mapError .session
  if needsIssuer config session then
    let issuer ← Issuer.embedded.mapError .issuer
    return ⟨o, config, session, some issuer⟩
  return ⟨o, config, session, none⟩

def importing : LogLine := ⟨.info, "Importing configuration"⟩

def Launch.log (l : Launch) : List LogLine :=
  importing :: l.issuer.toList.map (fun i => Issuer.loaded i.certificate)

def Launch.service (l : Launch) : Service :=
  l.log.foldl Service.log (.make (.make l.config.tuning (.ofTuning l.config.tuning) l.issuer
    ⟨some .quiet, none⟩))

def unstarted (e : SessionFailure) : LogLine :=
  ⟨.error, s!"Unable to start proxy session: {e.message}"⟩

def interrupted : LogLine := ⟨.info, "Interrupted, shutting down"⟩

def failed (r : Report) : LogLine := ⟨.error, s!"Fatal failure: {r.userMessage}"⟩

def summary (r : Registry) : LogLine :=
  ⟨.info, s!"{r.total} connections captured, {r.activeCount} still active"⟩

def isMilestone (l : LogLine) : Bool :=
  [importing.message, interrupted.message, "Proxy server stopped", "Proxy session stopped"].any
    (fun start => l.message.startsWith start) || l.message.endsWith "still active"

def isShown (l : LogLine) : Bool :=
  match l.level with
  | .trace => false
  | .debug => false
  | _ => true

def indented (message : String) : String := message.replace "\n" "\n    "

def logText (time : Timestamp) (l : LogLine) : String :=
  let level := l.level.name ++ String.ofList (List.replicate (5 - l.level.name.length) ' ')
  "[" ++ { time with nano := 0 }.text ++ " " ++ level ++ "] " ++ indented l.message

def fellBehind (count : Nat) : LogLine :=
  ⟨.warn, s!"Display fell behind, {count} events skipped"⟩

def packetText (p : Packet) : String :=
  s!"{p.direction.arrow} {p.size} bytes ({p.content.tag})\n{p.display}"

def packetLine (id : ConnectionId) (p : Packet) : LogLine :=
  ⟨.info, s!"[{id.text}] {packetText p}"⟩

def packetMembers (p : Packet) : List (String × Json.Text) :=
  [("data_type", Stored.writeContent p.content),
   ("direction", Stored.writeDirection p.direction),
   ("display_text", Json.quoted p.display.toList), ("size", Json.nat p.size)]

def packetRecord (id : ConnectionId) (p : Packet) : String :=
  String.ofList (Json.object (("connection_id", Json.quoted id.chars) :: packetMembers p ++
    [("timestamp", Stored.writeTime p.time)]))

end Wiretap.Program
