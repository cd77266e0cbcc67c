import Wiretap.Timestamp

/-!
# Packets

A packet is one consolidated burst of bytes that flowed in one direction,
together with when it was captured and how it is shown. How the kind and the
shown text follow from the bytes is stated in the modules below this one.
-/

set_option autoImplicit false

namespace Wiretap

abbrev Bytes := List UInt8

inductive Direction where
  | toTarget
  | toClient
  deriving DecidableEq, Repr, Inhabited

namespace Direction

def arrow : Direction → String
  | .toTarget => "C->T"
  | .toClient => "T->C"

def label : Direction → String
  | .toTarget => "CLIENT_TO_TARGET"
  | .toClient => "TARGET_TO_CLIENT"

def tag : Direction → String
  | .toTarget => "ClientToTarget"
  | .toClient => "TargetToClient"

end Direction

inductive Content where
  | text
  | binary
  deriving DecidableEq, Repr, Inhabited

def Content.tag : Content → String
  | .text => "Text"
  | .binary => "Binary"

structure Packet where
  time : Timestamp
  direction : Direction
  bytes : Bytes
  content : Content
  display : String
  deriving DecidableEq, Repr, Inhabited

namespace Packet

def size (p : Packet) : Nat := p.bytes.length

def isText (p : Packet) : Bool := p.content == .text

def totalSize (ps : List Packet) : Nat := ps.foldr (fun p n => p.size + n) 0

def sizeIn (d : Direction) (ps : List Packet) : Nat :=
  totalSize (ps.filter (·.direction == d))

end Packet
end Wiretap
