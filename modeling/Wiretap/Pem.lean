import Wiretap.Text.Base64
import Wiretap.Text.Blank

/-!
# Armoured text

A section is base 64 between a line that begins it and one that ends it, both
with its label. Text outside of sections is skipped.
-/

set_option autoImplicit false

namespace Wiretap

structure PemSection where
  label : String
  bytes : Bytes
  deriving DecidableEq, Repr, Inhabited

namespace PemSection
open Wiretap.Text

def begins : String := "-----BEGIN "
def ends : String := "-----END "
def dashes : String := "-----"

def lineWidth : Nat := 64

def brokenFrom : Nat → List Char → List (List Char)
  | 0, _ => []
  | fuel + 1, cs =>
    if cs.isEmpty then [] else cs.take lineWidth :: brokenFrom fuel (cs.drop lineWidth)

def broken (cs : List Char) : List String := (brokenFrom cs.length cs).map String.ofList

def text (s : PemSection) : String :=
  String.join (([begins ++ s.label ++ dashes] ++ broken (Base64.encode s.bytes) ++
    [ends ++ s.label ++ dashes]).map (· ++ "\n"))

def label? (line : List Char) : Option String :=
  let tail := line.reverse.takeWhile (fun c => c = '-' || c = ' ' || c = '\r')
  let size := line.length - begins.length - ((tail.reverse.dropWhile (· != '-')).length)
  if tail.count '-' = 5 then some (String.ofList ((line.drop begins.length).take size)) else none

def linesFrom : List Char → List Char → List (List Char)
  | [], [] => []
  | seen, [] => [seen.reverse]
  | seen, c :: cs =>
    if c = '\n' || c = '\r' then seen.reverse :: linesFrom [] cs else linesFrom (c :: seen) cs

def lines (s : String) : List (List Char) := linesFrom [] s.toList

inductive Fault where
  | begun
  | unclosed
  | garbled
  deriving DecidableEq, Repr

def known : List String :=
  ["CERTIFICATE", "PUBLIC KEY", "RSA PRIVATE KEY", "PRIVATE KEY", "EC PRIVATE KEY", "X509 CRL",
   "CERTIFICATE REQUEST", "ECHCONFIG"]

def isFill (c : Char) : Bool := c = ' ' || ('\t' ≤ c && c ≤ '\r')

/-- The first section with a label, read line by line; a fault on the way counts. A line that
begins a section gives the open one its label, and what that one holds stays. -/
def findFrom (wanted : String) :
    Option String → List Char → List (List Char) → Option (Except Fault PemSection)
  | none, _, [] => none
  | some _, _, [] => some (.error .unclosed)
  | current, held, line :: rest =>
    if begins.toList.isPrefixOf line then
      match label? line with
      | none => some (.error .begun)
      | some label => findFrom wanted (some label) held rest
    else match current with
      | none => findFrom wanted none held rest
      | some label =>
        if !(ends ++ label ++ dashes).toList.isPrefixOf line then
          findFrom wanted current (held ++ line.filter (!isFill ·)) rest
        else if !known.contains label then findFrom wanted none [] rest
        else match Base64.decode? held with
          | none => some (.error .garbled)
          | some bytes =>
            if label = wanted then some (.ok ⟨label, bytes⟩) else findFrom wanted none [] rest

def find? (wanted text : String) : Option (Except Fault PemSection) :=
  findFrom wanted none [] (lines text)

def splitFrom (mark : List Char) : List Char → List Char → List Char →
    Option (List Char × List Char)
  | seen, [], cs => some ((seen.drop mark.length).reverse, cs)
  | _, _ :: _, [] => none
  | seen, m :: missing, c :: cs =>
    splitFrom mark (c :: seen) (if c = m then missing else mark) cs

def splitAt (mark : String) (cs : List Char) : Option (List Char × List Char) :=
  splitFrom mark.toList [] mark.toList cs

def parted (held : List Char) : List Char × List Char :=
  ((splitAt "\n\n" held).or (splitAt "\r\n\r\n" held)).getD ([], held)

def areHeaders (cs : List Char) : Bool :=
  ((String.ofList cs).splitOn "\n").all (fun line => line.toList.contains ':')

def first? (text : String) : Option PemSection := do
  let (_, cs) ← splitAt begins text.toList
  let (label, cs) ← splitAt dashes cs
  let blanks := cs.dropWhile (fun c => c = ' ' || c = '\t' || c = '\n' || c = '\r')
  let (held, cs) ← splitAt ends blanks
  let (closing, _) ← splitAt dashes cs
  let (headers, digits) := parted held
  let bytes ← Base64.decode? (digits.filter (!isSpace ·))
  if !label.isEmpty ∧ label = closing ∧ (headers.isEmpty ∨ areHeaders headers) then
    some ⟨String.ofList label, bytes⟩
  else none

end PemSection
end Wiretap
