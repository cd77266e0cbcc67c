import Wiretap.Connection.Stored
import Wiretap.Proofs.Connection.Identifiers
import Wiretap.Proofs.Json.Collections
import Wiretap.Proofs.Timestamp.Writing

/-! The stored form of a connection or a packet is read as what was stored. Each field is written in
a form that its reader takes, so a record is filled field by field, and lists of packets and bytes
element by element. -/

set_option autoImplicit false

namespace Wiretap

structure Connection.Plain (c : Connection) : Prop where
  opened : c.opened.Plain
  closed : ∀ t ∈ c.closed, t.Plain
  captured : ∀ p ∈ c.packets, p.time.Plain

instance (c : Connection) : Decidable c.Plain :=
  decidable_of_iff
    (c.opened.Plain ∧ (∀ t ∈ c.closed, t.Plain) ∧ ∀ p ∈ c.packets, p.time.Plain)
    ⟨fun ⟨hopened, hclosed, hcaptured⟩ => ⟨hopened, hclosed, hcaptured⟩,
      fun h => ⟨h.opened, h.closed, h.captured⟩⟩

namespace Stored
open Wiretap.Json

theorem time_stored {t : Timestamp} (h : t.Plain) : Reads readTime (writeTime t) t :=
  named_quoted (Timestamp.read_chars h)

theorem direction_stored (d : Direction) : Reads readDirection (writeDirection d) d :=
  choice_quoted (by cases d <;> rfl)

theorem content_stored (c : Content) : Reads readContent (writeContent c) c :=
  choice_quoted (by cases c <;> rfl)

theorem id_stored (id : ConnectionId) : Reads readId (quoted id.chars) id :=
  named_quoted (ConnectionId.read_chars id)

theorem text_stored (s : String) : Reads readText (quoted s.toList) s := by
  have hread := (text_reads s.toList).map String.ofList
  rwa [String.ofList_toList] at hread

theorem byte_stored (b : UInt8) : Reads readByte (nat b.toNat) b := by
  have hread := (natural_nat b.toNat_lt (show 256 ≤ Nat.pow 2 64 by decide)).map UInt8.ofNat
  rwa [UInt8.ofNat_toNat] at hread

theorem port_stored (port : UInt16) : Reads readPort (nat port.toNat) port := by
  have hread := (natural_nat port.toNat_lt (show 65536 ≤ Nat.pow 2 64 by decide)).map UInt16.ofNat
  rwa [UInt16.ofNat_toNat] at hread

theorem closing_stored {closed : Option Timestamp} (h : ∀ t ∈ closed, t.Plain) :
    Reads (optional readTime) (closed.elim null writeTime) closed := by
  cases closed with
  | none => exact optional_null
  | some t => exact optional_quoted (time_stored (h t rfl))

theorem packet_stored {p : Packet} (h : p.time.Plain) : Reads readPacket (writePacket p) p :=
  record_object
    (.cons rfl rfl (field_reads (time_stored h))
      (.cons rfl rfl (field_reads (direction_stored p.direction))
        (.cons rfl rfl (field_reads (array_list fun b _ => byte_stored b))
          (.cons rfl rfl (field_reads (content_stored p.content))
            (.cons rfl rfl (field_reads (text_stored p.display)) (.nil _)))))) rfl

theorem connection_stored {c : Connection} (h : c.Plain) :
    Reads readConnection (writeConnection c) c :=
  record_object
    (.cons rfl rfl (field_reads (id_stored c.id))
      (.cons rfl rfl (field_reads (text_stored c.address))
        (.cons rfl rfl (field_reads (port_stored c.port))
          (.cons rfl rfl (field_reads (time_stored h.opened))
            (.cons rfl rfl (field_reads (closing_stored h.closed))
              (.cons rfl rfl (field_reads (bool_ofBool c.active))
                (.cons rfl rfl
                  (field_reads (array_list fun p hp => packet_stored (h.captured p hp)))
                  (.nil _)))))))) rfl

/-- What is stored of a connection or of a packet is read back equal, and with it the numbers of
bytes that it carried. -/
theorem captures_restored :
    (∀ c : Connection, c.Plain →
      whole readConnection (writeConnection c) = .ok c ∧
      (whole readConnection (writeConnection c)).map Connection.totalBytes = .ok c.totalBytes ∧
      ∀ d, (whole readConnection (writeConnection c)).map (·.bytesIn d) = .ok (c.bytesIn d)) ∧
    ∀ p : Packet, p.time.Plain → whole readPacket (writePacket p) = .ok p := by
  constructor
  · intro c h
    rw [whole_reads (connection_stored h)]
    exact ⟨rfl, rfl, fun _ => rfl⟩
  · intro p h
    exact whole_reads (packet_stored h)

def leapPacket : Packet :=
  ⟨⟨1709164800, 120000000⟩, .toClient, [0, 34, 92, 255], .binary, "\"\\\x00\n\x1b€𝄞"⟩

def longCall : Connection :=
  ⟨.ofNat 0x0123456789abcdef, "::1", 65535, ⟨-62167219200, 0⟩, some ⟨253402300799, 999999999⟩,
    false, [leapPacket]⟩

theorem captures_restored_long :
    longCall.Plain ∧ whole readConnection (writeConnection longCall) = .ok longCall ∧
    (whole readConnection (writeConnection longCall)).map Connection.totalBytes = .ok 4 ∧
    leapPacket.time.Plain ∧ whole readPacket (writePacket leapPacket) = .ok leapPacket := by
  have hcall : longCall.Plain := by decide
  have hpacket : leapPacket.time.Plain := by decide
  obtain ⟨hsame, htotal, -⟩ := captures_restored.1 longCall hcall
  exact ⟨hcall, hsame, htotal, hpacket, captures_restored.2 leapPacket hpacket⟩

end Stored
end Wiretap
