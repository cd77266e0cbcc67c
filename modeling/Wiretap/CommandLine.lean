import Wiretap.Text.Blank

/-!
# Command lines

Words are read from left to right against a table of options with and without
values. A value that stands in the word after its option is taken when the
next option or the end settles it, so of two faults the left one is reported,
except that an unknown word is reported before a bad value in front of it.
Options that are not given take their value from the environment.
-/

set_option autoImplicit false

namespace Wiretap.CommandLine

inductive Refusal where
  | help
  | version
  | unknownWord
  | repeated
  | missingValue
  | unneededValue
  | badValue
  deriving DecidableEq, Repr

def Refusal.name : Refusal → String
  | .help => "DisplayHelp"
  | .version => "DisplayVersion"
  | .unknownWord => "UnknownArgument"
  | .repeated => "ArgumentConflict"
  | .missingValue => "InvalidValue"
  | .unneededValue => "TooManyValues"
  | .badValue => "ValueValidation"

inductive Kind where
  | switch
  | text
  | path
  | port
  | help
  | version
  deriving DecidableEq, Repr

def Kind.takesValue : Kind → Bool
  | .text => true
  | .path => true
  | .port => true
  | _ => false

structure Spec where
  long : String
  short : Option Char
  env : Option String
  kind : Kind
  deriving Repr

inductive Setting where
  | on
  | text (s : String)
  | port (n : Nat)
  deriving DecidableEq, Repr

structure Reading where
  settings : List (String × Setting)
  pending : Option (Spec × Option String)

namespace Reading

def get? (r : Reading) (long : String) : Option Setting :=
  (r.settings.find? (fun s => s.1 == long)).map (·.2)

end Reading

def port? (s : String) : Option Nat :=
  let (negative, ds) := match s.toList with
    | '-' :: rest => (true, rest)
    | '+' :: rest => (false, rest)
    | cs => (false, cs)
  if ds.isEmpty || !ds.all (fun c => '0' ≤ c && c ≤ '9') then none
  else
    let n := ds.foldl (fun n c => 10 * n + (c.toNat - 48)) 0
    if n < 65536 && (!negative || n == 0) then some n else none

def setting (kind : Kind) (value : Option String) : Except Refusal Setting :=
  match kind, value with
  | .switch, _ => .ok .on
  | .help, _ => .error .help
  | .version, _ => .error .version
  | _, none => .error .missingValue
  | .text, some s => .ok (.text s)
  | .path, some s => if s.isEmpty then .error .missingValue else .ok (.text s)
  | .port, some s =>
    match port? s with
    | some n => .ok (.port n)
    | none => .error .badValue

def take (r : Reading) (spec : Spec) (value : Option String) : Except Refusal Reading :=
  if spec.kind.takesValue && value.isNone then .error .missingValue
  else if (r.get? spec.long).isSome then .error .repeated
  else do
    let s ← setting spec.kind value
    .ok { r with settings := r.settings ++ [(spec.long, s)] }

def settle (r : Reading) : Except Refusal Reading :=
  match r.pending with
  | none => .ok r
  | some (spec, value) => take { r with pending := none } spec value

def meet (r : Reading) (spec : Spec) (attached : Option String) : Except Refusal Reading := do
  let r ← settle r
  if spec.kind.takesValue && attached.isNone then .ok { r with pending := some (spec, none) }
  else take r spec attached

def letters (specs : List Spec) : List Char → Reading → Except Refusal Reading
  | [], r => .ok r
  | c :: cs, r =>
    match specs.find? (fun s => s.short == some c) with
    | none => .error .unknownWord
    | some spec =>
      if spec.kind.takesValue then
        match cs with
        | [] => meet r spec none
        | '=' :: value => meet r spec (some (String.ofList value))
        | value => meet r spec (some (String.ofList value))
      else do letters specs cs (← meet r spec none)

def longWord (specs : List Spec) (word : List Char) (r : Reading) : Except Refusal Reading :=
  let name := word.takeWhile (· != '=')
  let attached := word.drop name.length
  match specs.find? (fun s => s.long.toList == name) with
  | none => .error .unknownWord
  | some spec =>
    match attached with
    | [] => meet r spec none
    | _ :: value =>
      if spec.kind.takesValue then meet r spec (some (String.ofList value))
      else .error .unneededValue

def plainWord (word : String) (r : Reading) : Except Refusal Reading :=
  match r.pending with
  | some (spec, none) => .ok { r with pending := some (spec, some word) }
  | _ => .error .unknownWord

def words (specs : List Spec) : List String → Reading → Except Refusal Reading
  | [], r => settle r
  | word :: rest, r =>
    match word.toList with
    | ['-', '-'] => if rest.isEmpty then settle r else .error .unknownWord
    | '-' :: '-' :: name => do words specs rest (← longWord specs name r)
    | ['-'] => do words specs rest (← plainWord word r)
    | '-' :: cs => do words specs rest (← letters specs cs r)
    | _ => do words specs rest (← plainWord word r)

def fromEnvironment (lookup : String → Option String) :
    List Spec → Reading → Except Refusal Reading
  | [], r => .ok r
  | spec :: specs, r =>
    match spec.env.bind lookup with
    | some value =>
      if (r.get? spec.long).isSome then fromEnvironment lookup specs r
      else do fromEnvironment lookup specs (← take r spec (some value))
    | none => fromEnvironment lookup specs r

def read (specs : List Spec) (argv : List String) (lookup : String → Option String) :
    Except Refusal Reading := do
  fromEnvironment lookup specs (← words specs argv ⟨[], none⟩)

end Wiretap.CommandLine
