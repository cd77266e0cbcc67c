import Wiretap.Connection
import Wiretap.Json.Record
import Wiretap.Json.Writer
import Wiretap.Timestamp.Text

/-!
# Stored form of captured data

Connections and packets are stored as JSON objects with their fields in a
fixed order. Times are RFC 3339 texts, identifiers are dashed digits, bytes
are numbers, and a connection that is still open has no closing time.
-/

set_option autoImplicit false

namespace Wiretap

def Direction.ofTag? (s : List Char) : Option Direction :=
  [Direction.toTarget, .toClient].find? (fun d => d.tag.toList == s)

def Content.ofTag? (s : List Char) : Option Content :=
  [Content.text, .binary].find? (fun c => c.tag.toList == s)

namespace Stored
open Wiretap.Json

def writeTime (t : Timestamp) : Text := quoted t.chars

def writeDirection (d : Direction) : Text := quoted d.tag.toList

def writeContent (c : Content) : Text := quoted c.tag.toList

def writePacket (p : Packet) : Text :=
  object [("timestamp", writeTime p.time), ("direction", writeDirection p.direction),
    ("raw_data", list (p.bytes.map (fun b => nat b.toNat))),
    ("data_type", writeContent p.content), ("display_text", quoted p.display.toList)]

def writeConnection (c : Connection) : Text :=
  object [("id", quoted c.id.chars), ("client_address", quoted c.address.toList),
    ("client_port", nat c.port.toNat), ("connected_at", writeTime c.opened),
    ("disconnected_at", c.closed.elim null writeTime), ("active", ofBool c.active),
    ("packets", list (c.packets.map writePacket))]

def readTime : Reader Timestamp := named Timestamp.read?

def readDirection : Reader Direction := choice Direction.ofTag?

def readContent : Reader Content := choice Content.ofTag?

def readId : Reader ConnectionId := named ConnectionId.read?

def readByte : Reader UInt8 := fun cs =>
  (natural 256 cs).map (fun (n, rest) => (UInt8.ofNat n, rest))

def readPort : Reader UInt16 := fun cs =>
  (natural 65536 cs).map (fun (n, rest) => (UInt16.ofNat n, rest))

def readText : Reader String := fun cs =>
  (string cs).map (fun (s, rest) => (String.ofList s, rest))

structure PacketDraft where
  time : Option Timestamp
  direction : Option Direction
  bytes : Option Bytes
  content : Option Content
  display : Option String

def packetFields : List (RecordField PacketDraft) :=
  [field "timestamp" (·.time) readTime (fun p a => { p with time := some a }),
   field "direction" (·.direction) readDirection (fun p a => { p with direction := some a }),
   field "raw_data" (·.bytes) (array readByte) (fun p a => { p with bytes := some a }),
   field "data_type" (·.content) readContent (fun p a => { p with content := some a }),
   field "display_text" (·.display) readText (fun p a => { p with display := some a })]

def PacketDraft.finish (p : PacketDraft) : Option Packet := do
  some ⟨← p.time, ← p.direction, ← p.bytes, ← p.content, ← p.display⟩

def readPacket : Reader Packet :=
  record packetFields ⟨none, none, none, none, none⟩ PacketDraft.finish

structure ConnectionDraft where
  id : Option ConnectionId
  address : Option String
  port : Option UInt16
  opened : Option Timestamp
  closed : Option (Option Timestamp)
  active : Option Bool
  packets : Option (List Packet)

def connectionFields : List (RecordField ConnectionDraft) :=
  [field "id" (·.id) readId (fun c a => { c with id := some a }),
   field "client_address" (·.address) readText (fun c a => { c with address := some a }),
   field "client_port" (·.port) readPort (fun c a => { c with port := some a }),
   field "connected_at" (·.opened) readTime (fun c a => { c with opened := some a }),
   field "disconnected_at" (·.closed) (optional readTime)
     (fun c a => { c with closed := some a }),
   field "active" (·.active) bool (fun c a => { c with active := some a }),
   field "packets" (·.packets) (array readPacket) (fun c a => { c with packets := some a })]

def ConnectionDraft.finish (c : ConnectionDraft) : Option Connection := do
  some ⟨← c.id, ← c.address, ← c.port, ← c.opened, c.closed.getD none, ← c.active, ← c.packets⟩

def readConnection : Reader Connection :=
  record connectionFields ⟨none, none, none, none, none, none, none⟩ ConnectionDraft.finish

end Stored
end Wiretap
