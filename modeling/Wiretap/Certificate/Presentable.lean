import Wiretap.Certificate

/-!
# Certificates that a server presents

A TLS server presents a certificate only if it is written in the one right
way: nothing stands behind any of its parts, it is of the third version, both
of its algorithm names agree, and no extension is unknown but critical, or
repeated. Of names, times and algorithms only the outer shape is looked at.
-/

set_option autoImplicit false

namespace Wiretap.Presentable
open Wiretap.Certificate

def sizeBound : Nat := 65535

def piece (tag : UInt8) : Der.Reader Bytes := do
  let e ← Der.tagged tag
  guard (e.content.length < sizeBound)
  return e.content

def around {α : Type} (tag : UInt8) (reader : Der.Reader α) : Der.Reader α := do
  Der.all reader (← piece tag)

def known : List Der.Oid :=
  [Extensions.keyUsage, Extensions.subjectNames, Extensions.basicConstraints,
   Extensions.nameConstraints, Extensions.revocationPoints, Extensions.extendedUsage]

def isClear (e : Extension) : Bool :=
  e.oid = Extensions.keyUsage || (Der.all (piece Der.Tag.sequence) e.value).isSome

def extension : Der.Reader Extension := around Der.Tag.sequence do
  let oid ← piece Der.Tag.oid
  let critical ← if ← Der.isNext Der.Tag.boolean then piece Der.Tag.boolean else pure [0]
  guard (critical = [0] ∨ critical = [0xFF])
  return ⟨⟨oid⟩, critical = [0xFF], ← piece Der.Tag.octetString⟩

def areAcceptable (es : List Extension) : Bool :=
  es.all (fun e => if known.contains e.oid then isClear e else !e.critical) &&
    known.all (fun o => es.countP (·.oid == o) ≤ 1)

def body (algorithm : Bytes) : Der.Reader Bytes := do
  around (Der.Tag.explicit 0) do guard ((← piece Der.Tag.integer) = [2])
  let _ ← piece Der.Tag.integer
  guard ((← piece Der.Tag.sequence) = algorithm)
  let _ ← piece Der.Tag.sequence
  let _ ← piece Der.Tag.sequence
  let _ ← piece Der.Tag.sequence
  let key ← piece Der.Tag.sequence
  if !(← Der.atEnd) then
    let es ← around (Der.Tag.explicit 3) (around Der.Tag.sequence (Der.many extension))
    guard (areAcceptable es)
  return Der.write Der.Tag.sequence key

def whole : Der.Reader Bytes := around Der.Tag.sequence do
  let signed ← piece Der.Tag.sequence
  let algorithm ← piece Der.Tag.sequence
  guard ((← piece Der.Tag.bitString).head? = some 0)
  Der.all (body algorithm) signed

def publicInfo? (bs : Bytes) : Option Bytes := Der.all whole bs

end Wiretap.Presentable
