import Wiretap.Registry.Feed

/-!
# Chronicles of an event feed

A chronicle reads a feed from its beginning. Connections are numbered in the
order in which they appear. The packets of a connection are in order when all
of them came between its registration and its close.
-/

set_option autoImplicit false

namespace Wiretap.Rehearsal

structure Chronicle where
  position : Nat
  known : List ConnectionId
  opened : List Nat
  carrying : List (Nat × Bool)
  deriving DecidableEq, Repr, Inhabited

inductive Entry where
  | registered (number : Nat)
  | closed (number : Nat)
  | cleared
  | missed (count : Nat)
  deriving DecidableEq, Repr, Inhabited

namespace Chronicle

def empty : Chronicle := ⟨0, [], [], []⟩

def number (c : Chronicle) (id : ConnectionId) : Nat × Chronicle :=
  match c.known.idxOf? id with
  | some n => (n, c)
  | none => (c.known.length, { c with known := c.known ++ [id] })

def carry (c : Chronicle) (n : Nat) : Chronicle :=
  let fine := c.opened.contains n
  if c.carrying.any (·.1 == n) then
    { c with carrying := c.carrying.map (fun p => if p.1 = n then (n, p.2 && fine) else p) }
  else { c with carrying := c.carrying ++ [(n, fine)] }

def follow (c : Chronicle) : Delivery → Chronicle × Option Entry
  | .missed count => (c, some (.missed count))
  | .event .cleared => (c, some .cleared)
  | .event (.registered id) =>
    let (n, c) := c.number id
    ({ c with opened := n :: c.opened }, some (.registered n))
  | .event (.closed id) =>
    let (n, c) := c.number id
    ({ c with opened := c.opened.filter (· != n) }, some (.closed n))
  | .event (.packetAdded id _) =>
    let (n, c) := c.number id
    (c.carry n, none)

def read (c : Chronicle) (f : Feed) : Chronicle × List Entry × List (Nat × Bool) :=
  let (given, position) := f.read c.position (f.sent + 1)
  let (c, entries) := given.foldl (fun (c, entries) d =>
    let (c, entry) := follow c d
    (c, entry.toList ++ entries)) ({ c with position, carrying := [] }, [])
  (c, entries.reverse, c.carrying.mergeSort (fun a b => a.1 ≤ b.1))

end Chronicle
end Wiretap.Rehearsal
