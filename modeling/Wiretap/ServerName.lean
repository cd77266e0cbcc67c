import Wiretap.Address

/-!
# Server names

The name under which a TLS server is asked for: a host name or a literal
address. The labels of a host name hold letters, digits, dashes and
underscores; none begins or ends with a dash, none but the last may be
followed by a dot that ends the name, and the last one is not a number.
-/

set_option autoImplicit false

namespace Wiretap

inductive ServerName where
  | host (name : String)
  | address (ip : IpAddress)
  deriving DecidableEq, Repr, Inhabited

namespace ServerName

def isDigit (c : Char) : Bool := '0' ≤ c && c ≤ '9'

def isLabelChar (c : Char) : Bool :=
  isDigit c || ('a' ≤ c && c ≤ 'z') || ('A' ≤ c && c ≤ 'Z') || c = '_' || c = '-'

def longestLabel : Nat := 63

def longestName : Nat := 253

def isLabel (l : List Char) : Bool :=
  !l.isEmpty && l.length ≤ longestLabel && l.all isLabelChar && l.head? != some '-' &&
    l.getLast? != some '-'

def labels : List Char → List Char → List (List Char)
  | seen, [] => [seen.reverse]
  | seen, c :: cs => if c = '.' then seen.reverse :: labels [] cs else labels (c :: seen) cs

def nameLabels (cs : List Char) : List (List Char) :=
  match (labels [] cs).reverse with
  | [] :: rest => rest.reverse
  | ls => ls.reverse

def isHost (cs : List Char) : Bool :=
  let ls := nameLabels cs
  !ls.isEmpty && cs.length ≤ longestName && ls.all isLabel &&
    ls.getLast?.any (fun l => !l.all isDigit)

def read? (s : String) : Option ServerName :=
  if isHost s.toList then some (.host s) else (IpAddress.read? s.toList).map .address

end ServerName
end Wiretap
