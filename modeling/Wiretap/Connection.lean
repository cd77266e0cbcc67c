import Wiretap.Identifier
import Wiretap.Packet

/-!
# Connections

What is known about one accepted client: where it came from, when it came and
went, and the history of packets captured on it, oldest first.
-/

set_option autoImplicit false

namespace Wiretap

structure Connection where
  id : ConnectionId
  address : String
  port : UInt16
  opened : Timestamp
  closed : Option Timestamp
  active : Bool
  packets : List Packet
  deriving DecidableEq, Repr, Inhabited

namespace Connection

def fresh (id : ConnectionId) (address : String) (port : UInt16) (opened : Timestamp) :
    Connection :=
  ⟨id, address, port, opened, none, true, []⟩

def totalBytes (c : Connection) : Nat := Packet.totalSize c.packets

def bytesIn (c : Connection) (d : Direction) : Nat := Packet.sizeIn d c.packets

def name (c : Connection) : String := s!"{c.address}:{c.port.toNat}"

end Connection
end Wiretap
