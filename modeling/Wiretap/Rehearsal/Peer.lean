import Wiretap.Packet

/-!
# Targets of a rehearsal

A target listens for the proxy and answers each piece that it reads. It may
begin with a greeting, and it may hang up at once. It speaks TLS or not; its
certificate is nobody's, so a proxy that verifies it does not go on.
-/

set_option autoImplicit false

namespace Wiretap.Rehearsal

inductive Habit where
  | echo
  | reverse
  | silent
  | hangup
  | greet
  | greetHangup
  | balk
  | dead
  deriving DecidableEq, Repr, Inhabited

structure Peer where
  habit : Habit
  tls : Bool
  greeting : Bytes
  deriving DecidableEq, Repr, Inhabited

namespace Peer

def habits : List (String × Habit) :=
  [("echo", .echo), ("reverse", .reverse), ("silent", .silent), ("hangup", .hangup),
   ("greet", .greet), ("greet-hangup", .greetHangup), ("dead", .dead)]

def tlsPrefixes : List String := ["tls-", "tls12-"]

def ofName (name : String) (greeting : Bytes) : Peer :=
  let plain := tlsPrefixes.find? (fun p => p.isPrefixOf name)
  let habit := plain.elim name (fun p => String.ofList (name.toList.drop p.length))
  ⟨(habits.lookup habit).getD .echo, plain.isSome, greeting⟩

def unguarded (p : Peer) : Peer := if p.tls then { p with habit := .balk } else p

def isServed (p : Peer) : Bool := p.habit != .dead

def opening (p : Peer) : Bytes × Bool :=
  match p.habit with
  | .greet => (p.greeting, false)
  | .greetHangup => (p.greeting, true)
  | .hangup => ([], true)
  | _ => ([], false)

def answer (p : Peer) (piece : Bytes) : Bytes × Bool :=
  match p.habit with
  | .echo => (piece, false)
  | .greet => (piece, false)
  | .reverse => (piece.reverse, false)
  | .balk => ([], true)
  | _ => ([], false)

def handshake (p : Peer) (verified : Bool) : Option Bool :=
  if p.tls then some (!verified)
  else if p.habit == .silent then none
  else some false

end Peer
end Wiretap.Rehearsal
