import Wiretap.Text.Blank
import Wiretap.Timestamp

/-!
# Timestamps as text

Points in time are written as RFC 3339 in UTC with the shortest of 0, 3, 6 or
9 fraction digits, and years outside four digits carry a sign. Reading is more
lenient: a blank may stand for the T, blanks may precede numbers and
separators, digits past nanoseconds are dropped, and any offset shorter than a
day is accepted and removed.
-/

set_option autoImplicit false

namespace Wiretap.Timestamp
open Wiretap.Text

def digits (width n : Nat) : List Char :=
  List.replicate (width - (Nat.toDigits 10 n).length) '0' ++ Nat.toDigits 10 n

def yearText (year : Int) : List Char :=
  if year < 0 then '-' :: digits 4 year.natAbs
  else if year ≤ 9999 then digits 4 year.toNat
  else '+' :: digits 4 year.toNat

def fractionText (nano : Nat) : List Char :=
  if nano = 0 then []
  else if nano % 1000000 = 0 then '.' :: digits 3 (nano / 1000000)
  else if nano % 1000 = 0 then '.' :: digits 6 (nano / 1000)
  else '.' :: digits 9 nano

def chars (t : Timestamp) : List Char :=
  let d := t.date
  let s := t.secondOfDay
  let extra := t.nano / billion
  yearText d.year ++ ['-'] ++ digits 2 d.month ++ ['-'] ++ digits 2 d.day ++ ['T'] ++
    digits 2 (s / 3600) ++ [':'] ++ digits 2 (s / 60 % 60) ++ [':'] ++
    digits 2 (s % 60 + extra) ++ fractionText (t.nano % billion) ++ ['Z']

def text (t : Timestamp) : String := String.ofList t.chars

def skipSpace (cs : List Char) : List Char := cs.dropWhile isSpace

def isDigit (c : Char) : Bool := '0' ≤ c && c ≤ '9'

def valueOf (ds : List Char) : Nat := ds.foldl (fun n c => 10 * n + (c.toNat - 48)) 0

def number (most : Nat) (cs : List Char) : Option (Nat × List Char) :=
  let ds := (cs.take most).takeWhile isDigit
  if ds.isEmpty then none else some (valueOf ds, cs.drop ds.length)

def longNumber (cs : List Char) : Option (Nat × List Char) := do
  let (n, rest) ← number cs.length cs
  if n < Nat.pow 2 63 then some (n, rest) else none

def field (most : Nat) (cs : List Char) : Option (Nat × List Char) := number most (skipSpace cs)

def yearField (cs : List Char) : Option (Int × List Char) :=
  match skipSpace cs with
  | '-' :: rest => (longNumber rest).map (fun (n, r) => (-(n : Int), r))
  | '+' :: rest => (longNumber rest).map (fun (n, r) => ((n : Int), r))
  | rest => (number 4 rest).map (fun (n, r) => ((n : Int), r))

def separator (c : Char) (cs : List Char) : Option (List Char) :=
  match skipSpace cs with
  | d :: rest => if d = c then some rest else none
  | [] => none

def dateField (cs : List Char) : Option (Date × List Char) := do
  let (year, cs) ← yearField cs
  let cs ← separator '-' cs
  let (month, cs) ← field 2 cs
  let cs ← separator '-' cs
  let (day, cs) ← field 2 cs
  some (⟨year, month, day⟩, cs)

def fractionField (cs : List Char) : Option (Nat × List Char) :=
  match cs with
  | '.' :: rest => do
    let (n, after) ← number 9 rest
    let used := rest.length - after.length
    some (n * Nat.pow 10 (9 - used), after.dropWhile isDigit)
  | _ => some (0, cs)

/-- Second of the day with nanoseconds; second sixty is the leap second. -/
def clockField (cs : List Char) : Option (Nat × Nat × List Char) := do
  let (hour, cs) ← field 2 cs
  let cs ← separator ':' cs
  let (minute, cs) ← field 2 cs
  let cs ← separator ':' cs
  let (second, cs) ← field 2 cs
  let (nano, cs) ← fractionField cs
  if hour < 24 ∧ minute < 60 ∧ second ≤ 60 then
    let whole := hour * 3600 + minute * 60
    if second = 60 then some (whole + 59, billion + nano, cs)
    else some (whole + second, nano, cs)
  else none

def twoDigits (cs : List Char) : Option (Nat × List Char) :=
  match cs with
  | a :: b :: rest => if isDigit a && isDigit b then some (valueOf [a, b], rest) else none
  | _ => none

def offsetField (cs : List Char) : Option (Int × List Char) :=
  match cs with
  | 'Z' :: rest => some (0, rest)
  | 'z' :: rest => some (0, rest)
  | sign :: rest =>
    if (cs.take 3).map Char.toUpper = ['U', 'T', 'C'] then some (0, cs.drop 3)
    else if sign = '+' ∨ sign = '-' ∨ sign = '\u2212' then do
      let (hours, rest) ← twoDigits rest
      let (minutes, rest) ← twoDigits (rest.dropWhile (fun c => c == ':' || isSpace c))
      if minutes < 60 then
        let seconds : Int := hours * 3600 + minutes * 60
        some (if sign = '+' then seconds else -seconds, rest)
      else none
    else none
  | [] => none

def firstYear : Int := -262143
def lastYear : Int := 262142

def inCalendar (year : Int) : Bool := firstYear ≤ year && year ≤ lastYear

def read? (cs : List Char) : Option Timestamp := do
  let (date, cs) ← dateField cs
  let cs ← match cs with
    | 'T' :: rest => some rest
    | 't' :: rest => some rest
    | ' ' :: rest => some rest
    | _ => none
  let (second, nano, cs) ← clockField cs
  let (offset, cs) ← offsetField (skipSpace cs)
  if !(skipSpace cs).isEmpty then none
  else if !date.isValid || !inCalendar date.year || offset.natAbs ≥ secondsPerDay then none
  else
    let t : Timestamp := ⟨date.toDays * secondsPerDay + second - offset, nano⟩
    if inCalendar t.date.year then some t else none

end Wiretap.Timestamp
