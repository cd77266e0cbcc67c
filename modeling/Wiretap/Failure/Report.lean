import Wiretap.Failure
import Wiretap.Text.Blank

/-!
# Classifying and reporting failures

A failure is reported under the category of the part it came from. The
category and the failure together decide severity and wording. A reporter
logs each failure and hands fatal ones to a channel when it has one.
-/

set_option autoImplicit false

namespace Wiretap
open Wiretap.Text

inductive LogLevel where
  | trace
  | debug
  | info
  | warn
  | error
  deriving DecidableEq, Repr, Inhabited

def LogLevel.name : LogLevel → String
  | .trace => "TRACE"
  | .debug => "DEBUG"
  | .info => "INFO"
  | .warn => "WARN"
  | .error => "ERROR"

structure LogLine where
  level : LogLevel
  message : String
  deriving DecidableEq, Repr, Inhabited

def LogLine.text (l : LogLine) : String := s!"{l.level.name} {l.message}"

inductive Category where
  | initialization
  | proxyServer
  | connectionHandling
  | dataProcessing
  | networkIo
  deriving DecidableEq, Repr, Inhabited

namespace Category

def all : List Category :=
  [.initialization, .proxyServer, .connectionHandling, .dataProcessing, .networkIo]

def label : Category → String
  | .initialization => "INITIALIZATION"
  | .proxyServer => "PROXY_SERVER"
  | .connectionHandling => "CONNECTION_HANDLING"
  | .dataProcessing => "DATA_PROCESSING"
  | .networkIo => "NETWORK_IO"

def name : Category → String
  | .initialization => "Initialization"
  | .proxyServer => "ProxyServer"
  | .connectionHandling => "ConnectionHandling"
  | .dataProcessing => "DataProcessing"
  | .networkIo => "NetworkIo"

end Category

inductive Severity where
  | fatal
  | recoverable
  deriving DecidableEq, Repr, Inhabited

def Severity.name : Severity → String
  | .fatal => "Fatal"
  | .recoverable => "Recoverable"

structure Report where
  category : Category
  severity : Severity
  userMessage : String
  details : String
  deriving DecidableEq, Repr, Inhabited

inductive BlankReport where
  | userMessage
  | details
  deriving DecidableEq, Repr

def BlankReport.message : BlankReport → String
  | .userMessage => "user message is required"
  | .details => "technical details are required"

namespace Report

def isFatal (r : Report) : Bool := r.severity == .fatal

def make (category : Category) (severity : Severity) (userMessage details : String) :
    Except BlankReport Report :=
  if isBlank userMessage then .error .userMessage
  else if isBlank details then .error .details
  else .ok ⟨category, severity, userMessage, details⟩

end Report

namespace Failure

def isBindKind (k : IoKind) : Bool := k == .addrInUse || k == .permissionDenied

def ioKind? : Failure → Option IoKind
  | .io error => some error.kind
  | _ => none

def bindKind? (f : Failure) : Option IoKind :=
  (f.chain.filterMap ioKind?).find? isBindKind

def severity (f : Failure) : Category → Severity
  | .initialization => .fatal
  | .proxyServer => if f.bindKind?.isSome then .fatal else .recoverable
  | .connectionHandling => .recoverable
  | .dataProcessing => .recoverable
  | .networkIo => .recoverable

def longestMessage : Nat := 200

def shortMessage (f : Failure) : String :=
  let message := f.message
  if isBlank message then "unknown error"
  else if message.length > longestMessage then
    String.ofList (message.toList.take (longestMessage - 3)) ++ "..."
  else message

def portInUse : String :=
  "Failed to start proxy server. The port is already in use by another application. " ++
  "Please choose a different port or stop the other application."

def portDenied : String :=
  "Failed to start proxy server. Permission denied. You may need administrator privileges " ++
  "to bind to this port."

def plainMessage (f : Failure) : Category → String
  | .initialization =>
    "Failed to initialize the application. Please check the logs for details and restart."
  | .proxyServer => s!"An error occurred while running the proxy server: {f.shortMessage}"
  | .connectionHandling =>
    s!"A connection error occurred: {f.shortMessage}. The proxy will continue running."
  | .dataProcessing => s!"An error occurred while processing data: {f.shortMessage}. " ++
    "Some data may not be displayed correctly."
  | .networkIo => s!"A network error occurred: {f.shortMessage}"

def userMessage (f : Failure) (c : Category) : String :=
  match f.bindKind? with
  | some .addrInUse => portInUse
  | some .permissionDenied => portDenied
  | _ => f.plainMessage c

def details (f : Failure) : String :=
  s!"Error: {f.structureText}\nMessage: {f.message}" ++
    String.join (f.causes.map (fun c => s!"\nCaused by: {c.message}"))

def classify (f : Failure) (c : Category) : Report :=
  match Report.make c (f.severity c) (f.userMessage c) f.details with
  | .ok r => r
  | .error _ =>
    ⟨c, f.severity c, s!"An unexpected {c.label} error occurred", "(no details)"⟩

end Failure

structure Reporter where
  channel : Bool
  listening : Bool
  deriving DecidableEq, Repr, Inhabited

namespace Reporter

def report (r : Reporter) (f : Failure) (c : Category) : List LogLine × Option Report :=
  let classified := f.classify c
  match classified.severity with
  | .recoverable => ([⟨.warn, s!"[{c.label}] {classified.userMessage}"⟩], none)
  | .fatal =>
    let lines : List LogLine :=
      [⟨.error, s!"[{c.label}] {classified.userMessage}"⟩,
       ⟨.error, s!"[{c.label}] {classified.details}"⟩]
    if !r.channel then (lines, none)
    else if r.listening then (lines, some classified)
    else (lines ++ [⟨.warn, s!"[{c.label}] fatal failure could not be forwarded"⟩], none)

end Reporter
end Wiretap
