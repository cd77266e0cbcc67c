import Wiretap.Text.Hex

/-!
# TOML values

A document is a table. Integers keep their digits: they are read, and are
right or wrong, only when somebody asks for the number, who also says which
range it has to be in. Floats and date-times keep their text.
-/

set_option autoImplicit false

namespace Wiretap.Toml
open Wiretap.Text

def inRadix (radix : Nat) (ds : List Char) : Nat :=
  ds.foldl (fun n c => radix * n + (Hex.digit? c).getD 0) 0

def signedNumber (radix : Nat) (cs : List Char) : Option Int :=
  let digits (ds : List Char) : Option Nat :=
    if !ds.isEmpty && ds.all (fun c => (Hex.digit? c).any (· < radix)) then
      some (inRadix radix ds)
    else none
  match cs with
  | '+' :: ds => (digits ds).map Int.ofNat
  | '-' :: ds => (digits ds).map (fun n => -(n : Int))
  | _ => (digits cs).map Int.ofNat

inductive Value where
  | string (text : String)
  | integer (radix : Nat) (digits : String)
  | boolean (b : Bool)
  | float (text : String)
  | dateTime (text : String)
  | array (items : List Value)
  | table (entries : List (String × Value))
  deriving Inhabited

abbrev Entries := List (String × Value)

namespace Value

def string? : Value → Option String
  | .string s => some s
  | _ => none

def boolean? : Value → Option Bool
  | .boolean b => some b
  | _ => none

def natural? (bound : Nat) : Value → Option Nat
  | .integer radix digits =>
    match signedNumber radix digits.toList with
    | some (.ofNat n) => if n < bound then some n else none
    | _ => none
  | _ => none

end Value
end Wiretap.Toml
