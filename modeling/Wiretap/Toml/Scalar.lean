import Wiretap.Toml.Value

/-!
# TOML scalars and keys

Readers for the pieces of a TOML 1.1 text that hold no other values: blanks
and comments, the four kinds of strings, keys, and unquoted scalars, which are
booleans, integers, floats, dates and times. Keys have a greatest number of
parts.
-/

set_option autoImplicit false

namespace Wiretap.Toml
open Wiretap.Text

abbrev Text := List Char

def isBlank (c : Char) : Bool := c == ' ' || c == '\t'

def skipBlank (cs : Text) : Text := cs.dropWhile isBlank

def isForbidden (c : Char) : Bool := (c.toNat < 0x20 && c != '\t') || c.toNat == 0x7F

def newline? : Text → Option Text
  | '\n' :: rest => some rest
  | '\r' :: '\n' :: rest => some rest
  | _ => none

def skipComment (cs : Text) : Option Text :=
  match cs with
  | '#' :: rest =>
    let body := rest.takeWhile (· != '\n')
    let after := rest.drop body.length
    let body := if !after.isEmpty && body.getLast? == some '\r' then body.dropLast else body
    if body.any isForbidden then none else some after
  | _ => some cs

def endLine (cs : Text) : Option Text := do
  let cs ← skipComment (skipBlank cs)
  if cs.isEmpty then some [] else newline? cs

def skipLinesFrom : Nat → Text → Option Text
  | 0, cs => some cs
  | fuel + 1, cs => do
    let cs ← skipComment (skipBlank cs)
    match newline? cs with
    | some rest => skipLinesFrom fuel rest
    | none => some cs

def skipLines (cs : Text) : Option Text := skipLinesFrom (cs.length + 1) cs

def codePoint (count : Nat) (cs : Text) : Option (Char × Text) := do
  let ds := cs.take count
  if ds.length ≠ count then none
  else
    let n ← ds.foldl (fun acc d => do return 16 * (← acc) + (← Hex.digit? d)) (some 0)
    if n < 0xD800 ∨ (0xDFFF < n ∧ n < 0x110000) then some (Char.ofNat n, cs.drop count)
    else none

def escape : Text → Option (Char × Text)
  | 'b' :: rest => some ('\x08', rest)
  | 't' :: rest => some ('\t', rest)
  | 'n' :: rest => some ('\n', rest)
  | 'f' :: rest => some ('\x0c', rest)
  | 'r' :: rest => some ('\r', rest)
  | 'e' :: rest => some ('\x1b', rest)
  | '"' :: rest => some ('"', rest)
  | '\\' :: rest => some ('\\', rest)
  | 'x' :: rest => codePoint 2 rest
  | 'u' :: rest => codePoint 4 rest
  | 'U' :: rest => codePoint 8 rest
  | _ => none

def basicFrom : Nat → List Char → Text → Option (String × Text)
  | 0, _, _ => none
  | _ + 1, _, [] => none
  | fuel + 1, seen, c :: cs =>
    if c = '"' then some (String.ofList seen.reverse, cs)
    else if c = '\\' then do
      let (d, rest) ← escape cs
      basicFrom fuel (d :: seen) rest
    else if isForbidden c then none
    else basicFrom fuel (c :: seen) cs

def literal (cs : Text) : Option (String × Text) :=
  let body := cs.takeWhile (· != '\'')
  match cs.drop body.length with
  | _ :: rest => if body.any isForbidden then none else some (String.ofList body, rest)
  | [] => none

def foldedLines (cs : Text) : Option Text := do
  let rest ← newline? (skipBlank cs)
  some (rest.dropWhile (fun c => isBlank c || c == '\n' || c == '\r'))

def closing (quote : Char) (seen : List Char) (cs : Text) : Option (String × Text) :=
  let run := (cs.takeWhile (· == quote)).length
  if run ≤ 5 then
    some (String.ofList (List.replicate (run - 3) quote ++ seen).reverse, cs.drop run)
  else none

def isClosing (quote : Char) (cs : Text) : Bool := cs.take 3 == [quote, quote, quote]

def linesFrom (quote : Char) (escapes : Bool) :
    Nat → List Char → Text → Option (String × Text)
  | 0, _, _ => none
  | _ + 1, _, [] => none
  | fuel + 1, seen, c :: cs =>
    if isClosing quote (c :: cs) then closing quote seen (c :: cs)
    else if c = '\\' && escapes then
      match foldedLines cs with
      | some rest => linesFrom quote escapes fuel seen rest
      | none => do
        let (d, rest) ← escape cs
        linesFrom quote escapes fuel (d :: seen) rest
    else if c = '\n' then linesFrom quote escapes fuel ('\n' :: seen) cs
    else if c = '\r' then
      match cs with
      | '\n' :: rest => linesFrom quote escapes fuel ('\n' :: '\r' :: seen) rest
      | _ => none
    else if isForbidden c then none
    else linesFrom quote escapes fuel (c :: seen) cs

def multiline (quote : Char) (escapes : Bool) (cs : Text) : Option (String × Text) :=
  let body := (newline? cs).getD cs
  linesFrom quote escapes (body.length + 1) [] body

def quoted (cs : Text) : Option (String × Text) :=
  match cs with
  | '"' :: '"' :: '"' :: rest => multiline '"' true rest
  | '\'' :: '\'' :: '\'' :: rest => multiline '\'' false rest
  | '"' :: rest => basicFrom (rest.length + 1) [] rest
  | '\'' :: rest => literal rest
  | _ => none

def isBare (c : Char) : Bool :=
  ('0' ≤ c && c ≤ '9') || ('a' ≤ c && c ≤ 'z') || ('A' ≤ c && c ≤ 'Z') ||
    c == '_' || c == '-'

def keyPart (cs : Text) : Option (String × Text) :=
  match cs with
  | '"' :: rest => basicFrom (rest.length + 1) [] rest
  | '\'' :: rest => literal rest
  | _ =>
    let name := cs.takeWhile isBare
    if name.isEmpty then none else some (String.ofList name, cs.drop name.length)

def keyFrom : Nat → Text → Option (List String × Text)
  | 0, _ => none
  | fuel + 1, cs => do
    let (part, rest) ← keyPart (skipBlank cs)
    match skipBlank rest with
    | '.' :: more => do
      let (parts, rest) ← keyFrom fuel more
      some (part :: parts, rest)
    | rest => some ([part], rest)

def deepest : Nat := 80

def key (cs : Text) : Option (List String × Text) := keyFrom deepest cs

def isDigit (c : Char) : Bool := '0' ≤ c && c ≤ '9'

def separated (isDig : Char → Bool) : (before : Bool) → List Char → Bool
  | _, [] => true
  | before, c :: cs =>
    if c = '_' then before && cs.head?.any isDig && separated isDig false cs
    else separated isDig (isDig c) cs

def isHexDigit (c : Char) : Bool := (Hex.digit? c).isSome

def withoutUnderscores (cs : List Char) : String := String.ofList (cs.filter (· != '_'))

def digitRun (leadingZero : Bool) (cs : List Char) : Option (List Char) :=
  let run := cs.takeWhile (fun c => isDigit c || c == '_')
  let count := run.countP isDigit
  if count = 0 || (1 < count && !leadingZero && run.head? == some '0') then none
  else some (cs.drop run.length)

def isExponent (c : Char) : Bool := c == 'e' || c == 'E'

def isDecimal (cs : List Char) : Bool :=
  let exponent (cs : List Char) : Option (List Char) :=
    match cs with
    | c :: rest =>
      if isExponent c then
        match rest with
        | '+' :: rest => digitRun true rest
        | '-' :: rest => digitRun true rest
        | rest => digitRun true rest
      else some cs
    | [] => some []
  let fraction (cs : List Char) : Option (List Char) :=
    match cs with
    | '.' :: rest => digitRun true rest
    | rest => some rest
  ((digitRun false cs).bind fraction).bind exponent == some []

def twoDigits (low high : Nat) : List Char → Option (List Char)
  | a :: b :: rest =>
    let n := inRadix 10 [a, b]
    if isDigit a && isDigit b && low ≤ n && n ≤ high then some rest else none
  | _ => none

def after (c : Char) : List Char → Option (List Char)
  | d :: rest => if d = c then some rest else none
  | [] => none

def fullDate (cs : List Char) : Option (List Char) := do
  let year := cs.take 4
  if year.length ≠ 4 || !year.all isDigit then none
  else
    let rest ← after '-' (cs.drop 4)
    let month := inRadix 10 (rest.take 2)
    let rest ← twoDigits 1 12 rest
    let rest ← after '-' rest
    let y := inRadix 10 year
    let leap := y % 4 == 0 && (y % 100 != 0 || y % 400 == 0)
    let last := if month == 2 then (if leap then 29 else 28)
      else if month == 4 || month == 6 || month == 9 || month == 11 then 30 else 31
    twoDigits 1 last rest

def clock (cs : List Char) : Option (List Char) := do
  let rest ← twoDigits 0 23 cs
  let rest ← after ':' rest
  let rest ← twoDigits 0 59 rest
  match rest with
  | ':' :: more => do
    let rest ← twoDigits 0 60 more
    match rest with
    | '.' :: more =>
      let ds := more.takeWhile isDigit
      if ds.isEmpty then none else some (more.drop ds.length)
    | _ => some rest
  | _ => some rest

def zone (cs : List Char) : Option (List Char) :=
  match cs with
  | [] => some []
  | 'Z' :: rest => some rest
  | 'z' :: rest => some rest
  | c :: rest =>
    if c = '+' ∨ c = '-' then do
      let rest ← twoDigits 0 23 rest
      let rest ← after ':' rest
      twoDigits 0 59 rest
    else none

def isDateTime (cs : List Char) : Bool :=
  match fullDate cs with
  | some [] => true
  | some (c :: rest) =>
    (c == 'T' || c == 't' || c == ' ') && ((clock rest).bind zone) == some []
  | none => clock cs == some []

def isScalar (c : Char) : Bool :=
  !(isBlank c || c == '\n' || c == '\r' || c == '#' || c == '=' || c == ',' || c == '[' ||
    c == ']' || c == '\x7b' || c == '\x7d')

def scalarText (cs : Text) : List Char × Text :=
  let first := cs.takeWhile isScalar
  let rest := cs.drop first.length
  match rest with
  | ' ' :: more =>
    if fullDate first == some [] && more.head?.any isDigit then
      let second := more.takeWhile isScalar
      (first ++ ' ' :: second, more.drop second.length)
    else (first, rest)
  | _ => (first, rest)

/-- An integer with a mark for its radix. Its digits may be missing, which only matters to whoever
asks for the number. -/
def markedInteger (radix : Nat) (ds : List Char) : Option Value :=
  if ds.all (fun c => c == '_' || (Hex.digit? c).any (· < radix)) &&
      separated isHexDigit false ds then
    some (.integer radix (withoutUnderscores ds))
  else none

/-- What begins like a number, given its whole text and that text without a sign. What follows the
first digits tells the kinds of numbers and times apart; behind an underscore an integer may hold
anything until it is asked for. -/
def numeral (signed : Bool) (word body : List Char) : Option Value :=
  let rest := body.dropWhile isDigit
  let text := String.ofList word
  match rest with
  | [] =>
    if body.isEmpty || (1 < body.length && body.head? == some '0') then none
    else some (.integer 10 text)
  | c :: _ =>
    if c = '-' ∨ c = ':' then (if isDateTime word then some (.dateTime text) else none)
    else if rest.any (fun d => d == '.' || isExponent d) then
      if isDecimal body && separated isDigit signed body then some (.float text) else none
    else if c = '_' && body.head? != some '0' && separated isHexDigit signed body then
      some (.integer 10 (withoutUnderscores word))
    else none

def scalarValue? (word : List Char) : Option Value :=
  let infinite (body : List Char) : Bool := body == ['i', 'n', 'f'] || body == ['n', 'a', 'n']
  let signed (body : List Char) : Option Value :=
    if infinite body then some (.float (String.ofList word)) else numeral true word body
  match word with
  | '+' :: body => signed body
  | '-' :: body => signed body
  | '0' :: 'x' :: ds => markedInteger 16 ds
  | '0' :: 'o' :: ds => markedInteger 8 ds
  | '0' :: 'b' :: ds => markedInteger 2 ds
  | _ =>
    if word == ['t', 'r', 'u', 'e'] then some (.boolean true)
    else if word == ['f', 'a', 'l', 's', 'e'] then some (.boolean false)
    else if infinite word then some (.float (String.ofList word))
    else numeral false word word

def scalar (cs : Text) : Option (Value × Text) :=
  let (word, rest) := scalarText cs
  (scalarValue? word).map (·, rest)

end Wiretap.Toml
