import Wiretap.Registry

/-!
# Event feeds

A feed numbers all events that were ever published, and gives out the newest
ones only. A subscriber is a position in that numbering. One that fell behind
what is given out first learns how many events it missed and goes on with the
oldest one that it can still be given.
-/

set_option autoImplicit false

namespace Wiretap

/-- All published events, the last one first. -/
structure Feed where
  published : List RegistryEvent
  deriving DecidableEq, Repr, Inhabited

inductive Delivery where
  | event (e : RegistryEvent)
  | missed (count : Nat)
  deriving DecidableEq, Repr, Inhabited

namespace Feed

def capacity : Nat := 1024

def empty : Feed := ⟨[]⟩

def publish (f : Feed) (e : RegistryEvent) : Feed := ⟨e :: f.published⟩

def sent (f : Feed) : Nat := f.published.length

def recent (f : Feed) : List RegistryEvent := f.published.take capacity

def missed (f : Feed) (position : Nat) : Nat := f.sent - capacity - position

def pending (f : Feed) (position : Nat) : List Delivery :=
  let events := (f.recent.take (f.sent - position)).reverse.map .event
  if 0 < f.missed position then .missed (f.missed position) :: events else events

def advance (position : Nat) : Delivery → Nat
  | .event _ => position + 1
  | .missed count => position + count

def read (f : Feed) (position : Nat) (limit : Nat) : List Delivery × Nat :=
  let given := (f.pending position).take limit
  (given, given.foldl advance position)

end Feed

structure Readers where
  positions : List (String × Nat)
  deriving DecidableEq, Repr, Inhabited

namespace Readers

def none : Readers := ⟨[]⟩

def contains (r : Readers) (name : String) : Bool := r.positions.any (·.1 == name)

def drop (r : Readers) (name : String) : Readers := ⟨r.positions.filter (·.1 != name)⟩

def place (r : Readers) (name : String) (position : Nat) : Readers :=
  ⟨(name, position) :: (r.drop name).positions⟩

/-- A new subscriber is given what is published from now on, and takes the place of one with the
same name. -/
def subscribe (r : Readers) (f : Feed) (name : String) : Readers := r.place name f.sent

def read (r : Readers) (f : Feed) (name : String) (limit : Nat) :
    Option (List Delivery × Readers) :=
  (r.positions.lookup name).map fun position =>
    let (given, position) := f.read position limit
    (given, r.place name position)

end Readers
end Wiretap
