import Wiretap.Text.Utf8

/-!
# Reading JSON text value by value

A reader takes one value of a known shape off the front of the text, so what
is wrong first in the text is what is reported. Three kinds of failure are
told apart: text that is not JSON, text that ends too early, and JSON that
does not have the expected shape.
-/

set_option autoImplicit false

namespace Wiretap.Json

inductive ReadError where
  | malformed
  | ended
  | mismatched
  deriving DecidableEq, Repr

def ReadError.tag : ReadError → String
  | .malformed => "Syntax"
  | .ended => "Eof"
  | .mismatched => "Data"

abbrev Text := List Char

abbrev Reader (α : Type) := Text → Except ReadError (α × Text)

def isBlank (c : Char) : Bool := c == ' ' || c == '\n' || c == '\t' || c == '\r'

def skip (cs : Text) : Text := cs.dropWhile isBlank

def isDigit (c : Char) : Bool := '0' ≤ c && c ≤ '9'

def word : List Char → Text → Except ReadError Text
  | [], cs => .ok cs
  | _ :: _, [] => .error .ended
  | w :: ws, c :: cs => if w = c then word ws cs else .error .malformed

def hexDigit? (c : Char) : Option Nat :=
  if '0' ≤ c && c ≤ '9' then some (c.toNat - 48)
  else if 'a' ≤ c && c ≤ 'f' then some (c.toNat - 87)
  else if 'A' ≤ c && c ≤ 'F' then some (c.toNat - 55)
  else none

def hexUnit (cs : Text) : Except ReadError (Nat × Text) :=
  if (cs.take 4).foldl (fun n c => n + c.utf8Size) 0 < 4 then .error .ended
  else match cs with
    | a :: b :: c :: d :: rest =>
      match hexDigit? a, hexDigit? b, hexDigit? c, hexDigit? d with
      | some w, some x, some y, some z => .ok (((w * 16 + x) * 16 + y) * 16 + z, rest)
      | _, _, _, _ => .error .malformed
    | _ => .error .malformed

def simpleEscape? : Char → Option Char
  | '"' => some '"'
  | '\\' => some '\\'
  | '/' => some '/'
  | 'b' => some '\x08'
  | 'f' => some '\x0c'
  | 'n' => some '\n'
  | 'r' => some '\r'
  | 't' => some '\t'
  | _ => none

def unicodeEscape (cs : Text) : Except ReadError (Char × Text) := do
  let (n, cs) ← hexUnit cs
  if 0xDC00 ≤ n ∧ n ≤ 0xDFFF then .error .malformed
  else if n < 0xD800 ∨ 0xDBFF < n then .ok (Char.ofNat n, cs)
  else match cs with
    | [] => .error .ended
    | '\\' :: rest =>
      match rest with
      | [] => .error .ended
      | 'u' :: rest => do
        let (m, rest) ← hexUnit rest
        if 0xDC00 ≤ m ∧ m ≤ 0xDFFF then
          .ok (Char.ofNat ((n - 0xD800) * 1024 + (m - 0xDC00) + 0x10000), rest)
        else .error .malformed
      | _ => .error .malformed
    | _ => .error .malformed

/-- Fuel covers one character a step. -/
def stringFrom : Nat → List Char → Text → Except ReadError (List Char × Text)
  | 0, _, _ => .error .ended
  | _ + 1, _, [] => .error .ended
  | fuel + 1, seen, c :: cs =>
    if c = '"' then .ok (seen.reverse, cs)
    else if c = '\\' then
      match cs with
      | [] => .error .ended
      | e :: rest =>
        if e = 'u' then do
          let (d, rest) ← unicodeEscape rest
          stringFrom fuel (d :: seen) rest
        else match simpleEscape? e with
          | some d => stringFrom fuel (d :: seen) rest
          | none => .error .malformed
    else if c.toNat < 0x20 then .error .malformed
    else stringFrom fuel (c :: seen) cs

def stringTail (cs : Text) : Except ReadError (List Char × Text) :=
  stringFrom (cs.length + 1) [] cs

def skipStringFrom : Nat → Text → Except ReadError Text
  | 0, _ => .error .ended
  | _ + 1, [] => .error .ended
  | fuel + 1, c :: cs =>
    if c = '"' then .ok cs
    else if c = '\\' then
      match cs with
      | [] => .error .ended
      | e :: rest =>
        if e = 'u' then do
          let (_, rest) ← hexUnit rest
          skipStringFrom fuel rest
        else if (simpleEscape? e).isSome then skipStringFrom fuel rest
        else .error .malformed
    else if c.toNat < 0x20 then .error .malformed
    else skipStringFrom fuel cs

def skipStringTail (cs : Text) : Except ReadError Text := skipStringFrom (cs.length + 1) cs

inductive Number where
  | natural (n : Nat)
  | negative (n : Nat)
  | fractional
  deriving DecidableEq, Repr

def appendDigits (significand : Nat) : List Char → Nat × List Char
  | [] => (significand, [])
  | d :: ds =>
    let longer := 10 * significand + (d.toNat - 48)
    if longer < Nat.pow 2 64 then appendDigits longer ds else (significand, d :: ds)

def nearestDouble (n : Nat) : Nat :=
  let unit := Nat.pow 2 (Nat.log2 n - 52)
  let (q, r) := (n / unit, n % unit)
  if unit < 2 * r ∨ (2 * r = unit ∧ q % 2 = 1) then (q + 1) * unit else q * unit

def tooLarge (significand : Nat) (exponent : Int) : Bool :=
  significand ≠ 0 && exponent ≥ 0 && (exponent > 308 ||
    nearestDouble significand * nearestDouble (Nat.pow 10 exponent.toNat) ≥
      Nat.pow 2 1024 - Nat.pow 2 970)

def inRange (significand : Nat) (exponent : Int) (rest : Text) : Except ReadError Text :=
  if tooLarge significand exponent then .error .malformed else .ok rest

def exponentPart (significand : Nat) (exponent : Int) (cs : Text) :
    Except ReadError Text := do
  let (negative, cs) := match cs with
    | '+' :: rest => (false, rest)
    | '-' :: rest => (true, rest)
    | _ => (false, cs)
  match cs with
  | [] => .error .ended
  | c :: _ =>
    if !isDigit c then .error .malformed
    else
      let n : Int := (cs.takeWhile isDigit).foldl (fun n c => 10 * n + (c.toNat - 48)) 0
      inRange significand (if negative then exponent - n else exponent + n)
        (cs.dropWhile isDigit)

def isExponentMark (c : Char) : Bool := c == 'e' || c == 'E'

def afterDigits (significand : Nat) (exponent : Int) (cs : Text) : Except ReadError Text :=
  match cs with
  | c :: rest =>
    if isExponentMark c then exponentPart significand exponent rest
    else inRange significand exponent cs
  | [] => inRange significand exponent cs

def fractionPart (significand : Nat) (exponent : Int) (cs : Text) : Except ReadError Text :=
  let ds := cs.takeWhile isDigit
  let rest := cs.dropWhile isDigit
  if ds.isEmpty then (if rest.isEmpty then .error .ended else .error .malformed)
  else
    let (significand, dropped) := appendDigits significand ds
    afterDigits significand (exponent - (ds.length - dropped.length : Nat)) rest

/-- The number whose sign has been read. Digits of the whole part that the significand cannot hold
count as zeros. -/
def numberTail (positive : Bool) (cs : Text) : Except ReadError (Number × Text) :=
  match cs with
  | [] => .error .ended
  | c :: after =>
    if !isDigit c then .error .malformed
    else if c = '0' && (after.head?.any isDigit) then .error .malformed
    else
      let rest := cs.dropWhile isDigit
      let (n, dropped) := appendDigits 0 (cs.takeWhile isDigit)
      match rest with
      | '.' :: frac => (fractionPart n dropped.length frac).map (.fractional, ·)
      | _ =>
        if dropped.isEmpty && !rest.head?.any isExponentMark then .ok (whole n, rest)
        else (afterDigits n dropped.length rest).map (.fractional, ·)
where
  whole (n : Nat) : Number :=
    if positive then .natural n
    else if 0 < n ∧ n ≤ Nat.pow 2 63 then .negative n
    else .fractional

def mismatch (cs : Text) : ReadError :=
  let of {α : Type} (r : Except ReadError α) : ReadError :=
    match r with
    | .ok _ => .mismatched
    | .error e => e
  match cs with
  | 'n' :: rest => of (word ['u', 'l', 'l'] rest)
  | 't' :: rest => of (word ['r', 'u', 'e'] rest)
  | 'f' :: rest => of (word ['a', 'l', 's', 'e'] rest)
  | '-' :: rest => of (numberTail false rest)
  | '"' :: rest => of (stringTail rest)
  | '[' :: _ => .mismatched
  | '\x7b' :: _ => .mismatched
  | c :: _ => if isDigit c then of (numberTail true cs) else .malformed
  | [] => .ended

def string : Reader (List Char) := fun cs =>
  match skip cs with
  | '"' :: rest => stringTail rest
  | rest => .error (mismatch rest)

def bool : Reader Bool := fun cs =>
  match skip cs with
  | 't' :: rest => (word ['r', 'u', 'e'] rest).map (true, ·)
  | 'f' :: rest => (word ['a', 'l', 's', 'e'] rest).map (false, ·)
  | rest => .error (mismatch rest)

def unit : Reader Unit := fun cs =>
  match skip cs with
  | 'n' :: rest => (word ['u', 'l', 'l'] rest).map ((), ·)
  | rest => .error (mismatch rest)

def natural (bound : Nat) : Reader Nat := fun cs => do
  let rest := skip cs
  let (n, rest) ← match rest with
    | '-' :: r => numberTail false r
    | c :: _ => if isDigit c then numberTail true rest else .error (mismatch rest)
    | [] => .error .ended
  match n with
  | .natural n => if n < bound then .ok (n, rest) else .error .mismatched
  | _ => .error .mismatched

def optional {α : Type} (value : Reader α) : Reader (Option α) := fun cs =>
  match skip cs with
  | 'n' :: rest => (word ['u', 'l', 'l'] rest).map (none, ·)
  | rest => (value rest).map (fun (a, r) => (some a, r))

def named {α : Type} (find : List Char → Option α) : Reader α := fun cs => do
  let (s, rest) ← string cs
  match find s with
  | some a => .ok (a, rest)
  | none => .error .mismatched

def colon (cs : Text) : Except ReadError Text :=
  match skip cs with
  | ':' :: rest => .ok rest
  | _ :: _ => .error .malformed
  | [] => .error .ended

def choice {α : Type} (find : List Char → Option α) : Reader α := fun cs =>
  match skip cs with
  | '"' :: rest => named find ('"' :: rest)
  | '\x7b' :: rest =>
    match skip rest with
    | '"' :: rest => do
      let (a, rest) ← named find ('"' :: rest)
      let rest ← colon rest
      let (_, rest) ← unit rest
      match skip rest with
      | '\x7d' :: rest => .ok (a, rest)
      | _ :: _ => .error .malformed
      | [] => .error .ended
    | _ :: _ => .error .malformed
    | [] => .error .ended
  | _ :: _ => .error .malformed
  | [] => .error .ended

def nextElement (first : Bool) (cs : Text) : Except ReadError (Option Text) :=
  match skip cs with
  | ']' :: _ => .ok none
  | ',' :: rest =>
    if first then .ok (some (',' :: rest))
    else match skip rest with
      | ']' :: _ => .error .malformed
      | [] => .error .ended
      | rest => .ok (some rest)
  | [] => .error .ended
  | rest => if first then .ok (some rest) else .error .malformed

def endArray (cs : Text) : Except ReadError Text :=
  match skip cs with
  | ']' :: rest => .ok rest
  | _ :: _ => .error .malformed
  | [] => .error .ended

def elements {α : Type} (value : Reader α) :
    Nat → Bool → List α → Text → Except ReadError (List α × Text)
  | 0, _, _, _ => .error .ended
  | fuel + 1, first, seen, cs => do
    match ← nextElement first cs with
    | none => .ok (seen.reverse, ← endArray cs)
    | some rest =>
      let (a, rest) ← value rest
      elements value fuel false (a :: seen) rest

def array {α : Type} (value : Reader α) : Reader (List α) := fun cs =>
  match skip cs with
  | '[' :: rest => elements value (rest.length + 1) true [] rest
  | rest => .error (mismatch rest)

def element {α : Type} (first : Bool) (value : Reader α) : Reader α := fun cs => do
  match ← nextElement first cs with
  | some rest => value rest
  | none => .error .mismatched

def nextKey (first : Bool) (cs : Text) : Except ReadError (Option (List Char × Text)) :=
  match skip cs with
  | '\x7d' :: _ => .ok none
  | ',' :: rest =>
    if first then .error .malformed
    else match skip rest with
      | '"' :: rest => (stringTail rest).map some
      | _ :: _ => .error .malformed
      | [] => .error .ended
  | '"' :: rest => if first then (stringTail rest).map some else .error .malformed
  | _ :: _ => .error .malformed
  | [] => .error .ended

def endObject (cs : Text) : Except ReadError Text :=
  match skip cs with
  | '\x7d' :: rest => .ok rest
  | _ :: _ => .error .malformed
  | [] => .error .ended

def skipNumber (cs : Text) : Except ReadError Text :=
  let exponent (cs : Text) : Except ReadError Text :=
    let cs := match cs with
      | '+' :: rest => rest
      | '-' :: rest => rest
      | _ => cs
    if cs.head?.any isDigit then .ok (cs.dropWhile isDigit) else .error .malformed
  match cs with
  | c :: after =>
    if !isDigit c then .error .malformed
    else if c = '0' && after.head?.any isDigit then .error .malformed
    else match cs.dropWhile isDigit with
      | '.' :: frac =>
        if frac.head?.any isDigit then
          match frac.dropWhile isDigit with
          | d :: rest => if isExponentMark d then exponent rest else .ok (d :: rest)
          | [] => .ok []
        else .error .malformed
      | d :: rest => if isExponentMark d then exponent rest else .ok (d :: rest)
      | [] => .ok []
  | [] => .error .malformed

inductive Frame where
  | list
  | object
  deriving DecidableEq, Repr

def skipKey (frame : Frame) (cs : Text) : Except ReadError Text :=
  match frame with
  | .list => .ok cs
  | .object =>
    match skip cs with
    | '"' :: rest => do
      let rest ← skipStringTail rest
      colon rest
    | _ :: _ => .error .malformed
    | [] => .error .ended

def skipValues : Nat → List Frame → Text → Except ReadError Text
  | 0, _, _ => .error .ended
  | fuel + 1, frames, cs =>
    match skip cs with
    | [] => .error .ended
    | '[' :: rest => opened fuel .list frames rest
    | '\x7b' :: rest => opened fuel .object frames rest
    | 'n' :: rest => do closeOrNext fuel frames (← word ['u', 'l', 'l'] rest)
    | 't' :: rest => do closeOrNext fuel frames (← word ['r', 'u', 'e'] rest)
    | 'f' :: rest => do closeOrNext fuel frames (← word ['a', 'l', 's', 'e'] rest)
    | '-' :: rest => do closeOrNext fuel frames (← skipNumber rest)
    | '"' :: rest => do closeOrNext fuel frames (← skipStringTail rest)
    | c :: rest => do
      if isDigit c then closeOrNext fuel frames (← skipNumber (c :: rest))
      else .error .malformed
where
  opened (fuel : Nat) (frame : Frame) (frames : List Frame) (cs : Text) :
      Except ReadError Text :=
    match frame, skip cs with
    | .list, ']' :: rest => closeOrNext fuel frames rest
    | .object, '\x7d' :: rest => closeOrNext fuel frames rest
    | _, [] => .error .ended
    | frame, rest => do skipValues fuel (frame :: frames) (← skipKey frame rest)
  closeOrNext (fuel : Nat) : List Frame → Text → Except ReadError Text
    | [], cs => .ok cs
    | frame :: frames, cs =>
      match frame, skip cs with
      | _, ',' :: rest => do skipValues fuel (frame :: frames) (← skipKey frame rest)
      | .list, ']' :: rest => closeOrNext fuel frames rest
      | .object, '\x7d' :: rest => closeOrNext fuel frames rest
      | _, [] => .error .ended
      | _, _ => .error .malformed

def skipValue : Reader Unit := fun cs => (skipValues (cs.length + 1) [] cs).map ((), ·)

def whole {α : Type} (value : Reader α) (cs : Text) : Except ReadError α := do
  let (a, rest) ← value cs
  if (skip rest).isEmpty then .ok a else .error .malformed

end Wiretap.Json
