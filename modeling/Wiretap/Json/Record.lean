import Wiretap.Json.Reader

/-!
# Reading JSON records

A record is read from an object, whose unknown members are passed over, or
from an array that holds all fields in order. A field given twice and a
missing field are mismatches, the latter found at the end of the object.
-/

set_option autoImplicit false

namespace Wiretap.Json

structure RecordField (ρ : Type) where
  name : List Char
  isSet : ρ → Bool
  read : ρ → Reader ρ

def members {ρ : Type} (fields : List (RecordField ρ)) :
    Nat → Bool → ρ → Text → Except ReadError (ρ × Text)
  | 0, _, _, _ => .error .ended
  | fuel + 1, first, draft, cs => do
    match ← nextKey first cs with
    | none => .ok (draft, cs)
    | some (key, rest) =>
      match fields.find? (fun f => f.name == key) with
      | some f =>
        if f.isSet draft then .error .mismatched
        else
          let rest ← colon rest
          let (draft, rest) ← f.read draft rest
          members fields fuel false draft rest
      | none =>
        let rest ← colon rest
        let (_, rest) ← skipValue rest
        members fields fuel false draft rest

def positions {ρ : Type} :
    List (RecordField ρ) → Bool → ρ → Text → Except ReadError (ρ × Text)
  | [], _, draft, cs => .ok (draft, cs)
  | f :: fields, first, draft, cs => do
    let (draft, rest) ← element first (f.read draft) cs
    positions fields false draft rest

def record {ρ α : Type} (fields : List (RecordField ρ)) (blank : ρ) (finish : ρ → Option α) :
    Reader α := fun cs =>
  match skip cs with
  | '[' :: rest => do
    let (draft, rest) ← positions fields true blank rest
    match finish draft with
    | some a => .ok (a, ← endArray rest)
    | none => .error .mismatched
  | '\x7b' :: rest => do
    let (draft, rest) ← members fields (rest.length + 1) true blank rest
    match finish draft with
    | some a => .ok (a, ← endObject rest)
    | none => .error .mismatched
  | rest => .error (mismatch rest)

def field {ρ α β : Type} (name : String) (got : ρ → Option β) (value : Reader α)
    (put : ρ → α → ρ) : RecordField ρ where
  name := name.toList
  isSet draft := (got draft).isSome
  read draft cs := (value cs).map (fun (a, rest) => (put draft a, rest))

end Wiretap.Json
