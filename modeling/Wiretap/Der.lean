import Wiretap.Packet
import Wiretap.Text.Hex

/-!
# Distinguished encoding

Values are written as a tag, a length and the content. Reading keeps the bytes
of every element, since signatures are over bytes. There are two ways to read:
some readers take any tag with the right number and any length, others insist
on an element as it is written here.
-/

set_option autoImplicit false

namespace Wiretap.Der

def natOf (bs : Bytes) : Nat := bs.foldl (fun n b => 256 * n + b.toNat) 0

def bytesOnto (n : Nat) (tail : Bytes) : Bytes :=
  if h : n = 0 then tail else bytesOnto (n / 256) (UInt8.ofNat (n % 256) :: tail)
  termination_by n
  decreasing_by omega

def bytesOf (n : Nat) : Bytes := bytesOnto n []

def fixedBytes (width n : Nat) : Bytes :=
  let bs := bytesOf n
  List.replicate (width - bs.length) 0 ++ bs

structure Element where
  tag : UInt8
  number : Nat
  content : Bytes
  raw : Bytes
  deriving DecidableEq, Repr, Inhabited

namespace Tag

def boolean : UInt8 := 0x01
def integer : UInt8 := 0x02
def bitString : UInt8 := 0x03
def octetString : UInt8 := 0x04
def null : UInt8 := 0x05
def oid : UInt8 := 0x06
def utf8String : UInt8 := 0x0C
def utcTime : UInt8 := 0x17
def generalizedTime : UInt8 := 0x18
def sequence : UInt8 := 0x30
def set : UInt8 := 0x31

def number (tag : UInt8) : Nat := tag.toNat % 32

def explicit (n : UInt8) : UInt8 := 0xA0 + n

def implicit (n : UInt8) : UInt8 := 0x80 + n

end Tag

/-! Writing -/

def lengthBytes (n : Nat) : Bytes :=
  if n < 128 then [UInt8.ofNat n]
  else
    let bs := bytesOf n
    UInt8.ofNat (128 + bs.length) :: bs

def write (tag : UInt8) (content : Bytes) : Bytes :=
  tag :: lengthBytes content.length ++ content

def sequence (parts : List Bytes) : Bytes := write Tag.sequence parts.flatten

def set (parts : List Bytes) : Bytes := write Tag.set parts.flatten

def unsigned (bs : Bytes) : Bytes :=
  match bs with
  | [] => write Tag.integer [0]
  | b :: _ => write Tag.integer (if 0x80 ≤ b then 0 :: bs else bs)

def integer (n : Nat) : Bytes := unsigned (bytesOf n)

def boolean (b : Bool) : Bytes := write Tag.boolean [if b then 0xFF else 0]

def null : Bytes := write Tag.null []

def octetString (bs : Bytes) : Bytes := write Tag.octetString bs

def bitString (unused : UInt8) (bs : Bytes) : Bytes := write Tag.bitString (unused :: bs)

def groupsOnto (n : Nat) (tail : Bytes) : Bytes :=
  if h : n < 128 then UInt8.ofNat (n + if tail.isEmpty then 0 else 128) :: tail
  else groupsOnto (n / 128) (UInt8.ofNat (n % 128 + if tail.isEmpty then 0 else 128) :: tail)
  termination_by n
  decreasing_by omega

/-- An object identifier by its content. Different contents are different identifiers, even
where they stand for the same numbers. -/
structure Oid where
  content : Bytes
  deriving DecidableEq, Repr, Inhabited

def oid (o : Oid) : Bytes := write Tag.oid o.content

namespace Oid

def ofArcs : List Nat → Oid
  | a :: b :: arcs => ⟨((40 * a + b) :: arcs).flatMap (fun arc => groupsOnto arc [])⟩
  | _ => ⟨[]⟩

def laterArcs : Nat → Bytes → List Nat
  | _, [] => []
  | n, b :: rest =>
    let n := (128 * n + b.toNat % 128) % Nat.pow 2 64
    if 0x80 ≤ b ∧ !rest.isEmpty then laterArcs n rest else n :: laterArcs 0 rest

def arcs (o : Oid) : List Nat :=
  match o.content with
  | [] => []
  | [0] => [0]
  | b :: rest => b.toNat / 40 :: b.toNat % 40 :: laterArcs 0 rest

def areShort : Nat → Bytes → Bool
  | _, [] => true
  | n, b :: rest => if 0x80 ≤ b then areShort (n + 1) rest else n < 9 && areShort 0 rest

def isReadable (o : Oid) : Bool := areShort 0 (o.content.drop 1)

inductive Fault where
  | short
  | large (first second : Nat)
  deriving DecidableEq, Repr, Inhabited

def Fault.text : Fault → String
  | .short => "Invalid OID: too short"
  | .large first second => s!"Invalid OID \x7b{first} {second} ...\x7d"

def ofArcs? (arcs : List Nat) : Except Fault Oid :=
  match arcs with
  | a :: b :: _ => if 2 < a ∨ (a < 2 ∧ 39 < b) then .error (.large a b) else .ok (ofArcs arcs)
  | _ => .error .short

def text (o : Oid) : String :=
  if o.isReadable then ".".intercalate (o.arcs.map toString)
  else " ".intercalate (o.content.map (fun b => String.ofList (Text.Hex.lowerByte b)))

end Oid

/-! Reading -/

def readLength : Bytes → Option (Option Nat × Bytes)
  | [] => none
  | b :: rest =>
    if b < 0x80 then some (some b.toNat, rest)
    else if b = 0x80 then some (none, rest)
    else
      let count := b.toNat - 128
      let size := natOf (rest.take count)
      if 126 < count ∨ rest.length < count ∨ Nat.pow 2 64 ≤ size then none
      else some (some size, rest.drop count)

def readNumber : Nat → Nat → Bytes → Option (Nat × Bytes)
  | 0, _, _ => none
  | _ + 1, _, [] => none
  | groups + 1, n, b :: rest =>
    let n := (128 * n + b.toNat % 128) % Nat.pow 2 32
    if b < 0x80 then some (n, rest) else readNumber groups n rest

structure Header where
  tag : UInt8
  number : Nat
  size : Option Nat
  deriving DecidableEq, Repr, Inhabited

def readHeader (bs : Bytes) : Option (Header × Bytes) := do
  match bs with
  | [] => none
  | tag :: rest =>
    let low := tag.toNat % 32
    let (number, rest) ← if low = 31 then readNumber 5 0 rest else some (low, rest)
    let (size, body) ← readLength rest
    some (⟨tag, number, size⟩, body)

def Tag.isPrimitive (tag : UInt8) : Bool := tag.toNat / 32 % 2 = 0

def read (bs : Bytes) : Option (Element × Bytes) := do
  let (header, body) ← readHeader bs
  let size ← header.size
  if body.length < size then none
  else
    let after := body.drop size
    some (⟨header.tag, header.number, body.take size, bs.take (bs.length - after.length)⟩, after)

def mostOpen : Nat := 49

def afterOpen : Nat → Nat → Bytes → Option Bytes
  | 0, _, _ => none
  | fuel + 1, opened, bs => do
    let (header, rest) ← readHeader bs
    match header.size with
    | none =>
      if Tag.isPrimitive header.tag ∨ mostOpen ≤ opened then none
      else afterOpen fuel (opened + 1) rest
    | some size =>
      if rest.length < size then none
      else if header.number ≠ 0 ∨ 0 < size then afterOpen fuel opened (rest.drop size)
      else if 1 < opened then afterOpen fuel (opened - 1) rest
      else some rest

def readLoose (bs : Bytes) : Option (Element × Bytes) := do
  let (header, body) ← readHeader bs
  if header.size.isSome then read bs
  else if Tag.isPrimitive header.tag then none
  else
    let after ← afterOpen body.length 1 body
    some (⟨header.tag, header.number, body.take (body.length - after.length - 2),
      bs.take (bs.length - after.length)⟩, after)

namespace Element

def nat? (e : Element) : Option Nat :=
  match e.content with
  | [] => none
  | [b] => if b < 0x80 then some b.toNat else none
  | b :: c :: _ => if b < 0x80 ∧ (b ≠ 0 ∨ 0x80 ≤ c) then some (natOf e.content) else none

def isPrimitive (e : Element) : Bool := Tag.isPrimitive e.tag

def isContextual (e : Element) : Bool := e.tag.toNat / 64 = 2

def lowZeros : Nat → Nat → Nat
  | 0, _ => 0
  | fuel + 1, n => if n % 2 = 0 then lowZeros fuel (n / 2) + 1 else 0

def bits? (e : Element) : Option Bytes :=
  match e.content with
  | [] => none
  | [unused] => if e.isPrimitive ∧ unused = 0 then some [] else none
  | unused :: b :: bs =>
    let last := (b :: bs).getLastD 0
    if e.isPrimitive ∧ unused.toNat ≤ lowZeros 8 last.toNat then some (b :: bs) else none

end Element

abbrev Reader (α : Type) := StateT Bytes Option α

def within {α : Type} (reader : Reader α) (bs : Bytes) : Option α := (reader bs).map (·.1)

def all {α : Type} (reader : Reader α) (bs : Bytes) : Option α :=
  match reader bs with
  | some (a, []) => some a
  | _ => none

/-- As many as there are at the front, and what follows them; fuel covers one a step. -/
def manyFrom {α : Type} (reader : Reader α) : Nat → Bytes → List α × Bytes
  | 0, bs => ([], bs)
  | fuel + 1, bs =>
    match reader bs with
    | none => ([], bs)
    | some (a, rest) =>
      let (as, rest) := manyFrom reader fuel rest
      (a :: as, rest)

def many {α : Type} (reader : Reader α) : Reader (List α) :=
  fun bs => some (manyFrom reader bs.length bs)

def allOf {α : Type} (reader : Reader α) (bs : Bytes) : Option (List α) := all (many reader) bs

def atEnd : Reader Bool := do return (← get).isEmpty

def optional {α : Type} (reader : Reader α) : Reader (Option α) := fun bs =>
  match reader bs with
  | some (a, rest) => some (some a, rest)
  | none => some (none, bs)

def element : Reader Element := read

def numbered (tag : UInt8) : Reader Element := do
  let e ← element
  guard (e.number = Tag.number tag)
  return e

def anyOid : Reader Oid := do
  let e ← element
  guard e.isPrimitive
  return ⟨e.content⟩

def bits : Reader Bytes := do
  let e ← numbered Tag.bitString
  e.bits?

def field {α : Type} (number : Nat) (read? : Element → Option α) : Reader (Option α) := fun bs =>
  if bs.isEmpty then some (none, bs)
  else do
    let (e, rest) ← read bs
    if e.number ≠ number then some (none, bs)
    else if e.isContextual then some (some (← read? e), rest) else none

def canonical : Reader Element := do
  let e ← element
  guard (e.raw = write e.tag e.content)
  return e

def tagged (tag : UInt8) : Reader Element := do
  let e ← canonical
  guard (e.tag = tag)
  return e

def holding {α : Type} (tag : UInt8) (reader : Reader α) : Reader α := do
  let e ← tagged tag
  all reader e.content

def sequenceOf {α : Type} (reader : Reader α) : Reader α := holding Tag.sequence reader

def sequenceWith {α : Type} (reader : Reader α) : Reader α := do
  let e ← numbered Tag.sequence
  within reader e.content

def isNext (tag : UInt8) : Reader Bool := do return (← get).head? == some tag

def taggedWhenNext (tag : UInt8) : Reader (Option Element) := do
  if ← isNext tag then return some (← tagged tag) else return none

def holdingWhenNext {α : Type} (tag : UInt8) (reader : Reader α) : Reader (Option α) := do
  if ← isNext tag then return some (← holding tag reader) else return none

def identifier : Reader Oid := do return ⟨(← tagged Tag.oid).content⟩

def natural : Reader Nat := do
  let e ← tagged Tag.integer
  e.nat?

end Wiretap.Der
