import Wiretap.Packet.Rendering
import Wiretap.Registry.Feed

/-!
# Recording a session

A recorder is the registry with its event feed and its log. It turns what
happens to a client into registry operations: a client is registered when it
is accepted, what was captured on it becomes packets, and it is closed once.
-/

set_option autoImplicit false

namespace Wiretap

structure Recorder where
  registry : Registry
  feed : Feed
  -- the last line first
  log : List LogLine
  deriving DecidableEq, Repr, Inhabited

namespace Recorder

def empty : Recorder := ⟨.empty, .empty, []⟩

def note (r : Recorder) (level : LogLevel) (message : String) : Recorder :=
  { r with log := ⟨level, message⟩ :: r.log }

def apply (r : Recorder) (op : Registry.Operation) : Registry.Reply × Recorder :=
  let change := r.registry.apply op
  (change.reply,
    ⟨change.registry, change.event.elim r.feed r.feed.publish, change.log.reverse ++ r.log⟩)

def accepted (r : Recorder) (c : Connection) : Recorder :=
  (r.apply (.register c)).2.note .debug s!"Connection accepted and registered: {c.id.text}"

def captured (r : Recorder) (time : Timestamp) (id : ConnectionId) (d : Direction)
    (bytes : Bytes) : Recorder :=
  if r.registry.contains id then
    (r.apply (.addPacket id (Packet.capture time d bytes))).2.note .trace
      s!"Data captured for connection {id.text}: {bytes.length} bytes, direction: {d.label}"
  else r.note .warn s!"Received data for unregistered connection: {id.text}"

def closed (r : Recorder) (time : Timestamp) (id : ConnectionId) : Recorder :=
  (r.apply (.close id time)).2

def takeLog (r : Recorder) : List LogLine × Recorder := (r.log.reverse, { r with log := [] })

end Recorder
end Wiretap
