import Wiretap.CommandLine
import Wiretap.Config.Source

/-!
# Options of the program

The options given on the command line or in the environment, and the merge of
options over the configuration file over the defaults. Switches only turn TLS
on and interception and verification off.
-/

set_option autoImplicit false

namespace Wiretap

structure Options where
  configFile : Option String
  listenAddress : Option String
  listenPort : Option UInt16
  targetHost : Option String
  targetPort : Option UInt16
  tls : Bool
  serverName : Option String
  noIntercept : Bool
  insecureTarget : Bool
  json : Bool
  deriving DecidableEq, Repr, Inhabited

namespace Options
open CommandLine

def specs : List Spec :=
  [⟨"config-file", some 'c', some "TCPTAP_CONFIG", .path⟩,
   ⟨"listen-address", none, some "TCPTAP_LISTEN_ADDRESS", .text⟩,
   ⟨"listen-port", none, some "TCPTAP_LISTEN_PORT", .port⟩,
   ⟨"target-host", none, some "TCPTAP_TARGET_HOST", .text⟩,
   ⟨"target-port", none, some "TCPTAP_TARGET_PORT", .port⟩,
   ⟨"tls", none, none, .switch⟩,
   ⟨"sni-host", none, some "TCPTAP_SNI_HOST", .text⟩,
   ⟨"no-intercept", none, none, .switch⟩,
   ⟨"insecure-upstream", none, none, .switch⟩,
   ⟨"json", none, none, .switch⟩,
   ⟨"help", some 'h', none, .help⟩,
   ⟨"version", some 'V', none, .version⟩]

def ofReading (r : Reading) : Options :=
  let text (long : String) : Option String :=
    match r.get? long with
    | some (.text s) => some s
    | _ => none
  let port (long : String) : Option UInt16 :=
    match r.get? long with
    | some (.port n) => some (UInt16.ofNat n)
    | _ => none
  let on (long : String) : Bool := r.get? long == some .on
  ⟨text "config-file", text "listen-address", port "listen-port", text "target-host",
    port "target-port", on "tls", text "sni-host", on "no-intercept", on "insecure-upstream",
    on "json"⟩

def read (argv : List String) (lookup : String → Option String) : Except Refusal Options :=
  (CommandLine.read specs argv lookup).map ofReading

def applyTo (o : Options) (c : Config) : Config :=
  { session :=
      { listenAddress := o.listenAddress.getD c.session.listenAddress
        listenPort := o.listenPort.getD c.session.listenPort
        targetHost := o.targetHost.getD c.session.targetHost
        targetPort := o.targetPort.getD c.session.targetPort
        tls := o.tls || c.session.tls
        serverName := o.serverName.or c.session.serverName }
    tuning :=
      { c.tuning with
        interceptClients := c.tuning.interceptClients && !o.noIntercept
        verifyTarget := c.tuning.verifyTarget && !o.insecureTarget } }

def base (o : Options) (read : String → Except IoFailure (List UInt8)) :
    Except ConfigFailure Config :=
  match o.configFile with
  | none => .ok .default
  | some path =>
    match read path with
    | .ok bytes => Config.ofBytes bytes
    | .error e => .error (.unreadable e)

def config (o : Options) (read : String → Except IoFailure (List UInt8)) :
    Except ConfigFailure Config := do
  let merged := o.applyTo (← o.base read)
  merged.validate
  .ok merged

end Options
end Wiretap
