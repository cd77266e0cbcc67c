import Wiretap.Connection
import Wiretap.Failure.Report

/-!
# The registry of connections

The registry holds every connection accepted since it was last cleared. One
container keeps the order of first registration, the other the entries; each
operation keeps both in step. An operation answers its caller, may leave a log
line, and publishes one event if it changes the registry or clears it.
-/

set_option autoImplicit false

namespace Wiretap

inductive RegistryEvent where
  | registered (id : ConnectionId)
  | packetAdded (id : ConnectionId) (packet : Packet)
  | closed (id : ConnectionId)
  | cleared
  deriving DecidableEq, Repr, Inhabited

structure Registry where
  order : List ConnectionId
  entries : List (ConnectionId × Connection)
  deriving DecidableEq, Repr, Inhabited

namespace Registry

def empty : Registry := ⟨[], []⟩

def get? (r : Registry) (id : ConnectionId) : Option Connection := r.entries.lookup id

def contains (r : Registry) (id : ConnectionId) : Bool := (r.get? id).isSome

def total (r : Registry) : Nat := r.entries.length

def activeCount (r : Registry) : Nat := r.entries.countP (·.2.active)

def snapshot (r : Registry) : List Connection := r.order.filterMap r.get?

def put (r : Registry) (c : Connection) : Registry :=
  { r with entries := r.entries.map (fun e => if e.1 = c.id then (e.1, c) else e) }

inductive Operation where
  | register (connection : Connection)
  | addPacket (id : ConnectionId) (packet : Packet)
  | close (id : ConnectionId) (time : Timestamp)
  | clear
  deriving DecidableEq, Repr, Inhabited

inductive Reply where
  | connection (c : Connection)
  | accepted (ok : Bool)
  | done
  deriving DecidableEq, Repr, Inhabited

def Reply.ok : Reply → Bool
  | .accepted ok => ok
  | .connection _ => true
  | .done => true

structure Change where
  registry : Registry
  reply : Reply
  event : Option RegistryEvent
  log : List LogLine
  deriving DecidableEq, Repr, Inhabited

/-- An identifier that is already taken keeps its entry. -/
def register (r : Registry) (c : Connection) : Change :=
  match r.get? c.id with
  | some existing =>
    ⟨r, .connection existing, none,
      [⟨.warn, s!"Connection {c.id.text} is already registered"⟩]⟩
  | none =>
    ⟨⟨r.order ++ [c.id], r.entries ++ [(c.id, c)]⟩, .connection c, some (.registered c.id),
      [⟨.info, s!"Registered connection: {c.name}"⟩]⟩

def addPacket (r : Registry) (id : ConnectionId) (p : Packet) : Change :=
  match r.get? id with
  | some c =>
    ⟨r.put { c with packets := c.packets ++ [p] }, .accepted true, some (.packetAdded id p), []⟩
  | none =>
    ⟨r, .accepted false, none,
      [⟨.warn, s!"Attempted to add data to unknown connection: {id.text}"⟩]⟩

/-- Closing a second time keeps the time of the first. -/
def close (r : Registry) (id : ConnectionId) (time : Timestamp) : Change :=
  match r.get? id with
  | none =>
    ⟨r, .accepted false, none,
      [⟨.debug, s!"Close requested for unknown connection: {id.text}"⟩]⟩
  | some c =>
    if c.active then
      ⟨r.put { c with active := false, closed := some time }, .accepted true, some (.closed id),
        [⟨.info, s!"Connection closed: {c.name}"⟩]⟩
    else ⟨r, .accepted false, none, []⟩

def clear (_ : Registry) : Change :=
  ⟨empty, .done, some .cleared, [⟨.info, "All connections cleared"⟩]⟩

def apply (r : Registry) : Operation → Change
  | .register c => r.register c
  | .addPacket id p => r.addPacket id p
  | .close id time => r.close id time
  | .clear => r.clear

end Registry
end Wiretap
