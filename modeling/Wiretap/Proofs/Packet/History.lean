import Wiretap.Connection
import Wiretap.Packet.Rendering

/-! What a history of packets carries. It is an interleaving of what it carries
in the two directions, and its size is the sum of the sizes in both. -/

set_option autoImplicit false

namespace Wiretap

inductive Interleaved {α : Type} : List α → List α → List α → Prop where
  | nil : Interleaved [] [] []
  | left {x : α} {xs ys zs : List α} (h : Interleaved xs ys zs) :
    Interleaved (x :: xs) ys (x :: zs)
  | right {y : α} {xs ys zs : List α} (h : Interleaved xs ys zs) :
    Interleaved xs (y :: ys) (y :: zs)

namespace Packet

def carried (d : Direction) (ps : List Packet) : List Bytes :=
  (ps.filter (·.direction == d)).map (·.bytes)

def Rendered (p : Packet) : Prop := p.content = contentOf p.bytes ∧ p.display = displayText p.bytes

theorem capture_rendered (time : Timestamp) (d : Direction) (bytes : Bytes) :
    Rendered (capture time d bytes) := ⟨rfl, rfl⟩

theorem carried_concat (d : Direction) (ps : List Packet) (p : Packet) :
    carried d (ps ++ [p]) = carried d ps ++ if p.direction = d then [p.bytes] else [] := by
  by_cases hp : p.direction = d <;> simp [carried, hp]

theorem carried_cons (d : Direction) (p : Packet) (ps : List Packet) :
    carried d (p :: ps) = if p.direction = d then p.bytes :: carried d ps else carried d ps := by
  by_cases hp : p.direction = d <;> simp [carried, hp]

theorem carried_interleaved (ps : List Packet) :
    Interleaved (carried .toTarget ps) (carried .toClient ps) (ps.map (·.bytes)) := by
  induction ps with
  | nil => exact .nil
  | cons p ps ih =>
    rw [carried_cons, carried_cons, List.map_cons]
    cases hp : p.direction with
    | toTarget => exact .left ih
    | toClient => exact .right ih

theorem totalSize_bytes (ps : List Packet) :
    totalSize ps = (ps.map (·.bytes)).flatten.length := by
  induction ps with
  | nil => rfl
  | cons p ps ih =>
    rw [List.map_cons, List.flatten_cons, List.length_append, ← ih]
    rfl

theorem sizeIn_carried (d : Direction) (ps : List Packet) :
    sizeIn d ps = (carried d ps).flatten.length := totalSize_bytes _

theorem sizeIn_cons (d : Direction) (p : Packet) (ps : List Packet) :
    sizeIn d (p :: ps) = (if p.direction = d then p.size else 0) + sizeIn d ps := by
  by_cases hp : p.direction = d <;> simp [sizeIn, totalSize, hp]

theorem totalSize_split (ps : List Packet) :
    totalSize ps = sizeIn .toTarget ps + sizeIn .toClient ps := by
  induction ps with
  | nil => rfl
  | cons p ps ih =>
    rw [sizeIn_cons, sizeIn_cons]
    have hp : totalSize (p :: ps) = p.size + totalSize ps := rfl
    cases hd : p.direction <;> simp <;> omega

end Packet
end Wiretap
