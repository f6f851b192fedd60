import LibuvNet.Wire.Framing

/-!
# Frames that are rejected

`Packet::deserialize` rejects in three places: a header that is too short, another version, a body
that is too short.  Before the third it has assigned the type and the sequence of the header, so a
packet that rejects a frame for its body keeps its data next to the type and the sequence of a
frame it never took.  Where `size_t` has 32 bits the third check can also be passed by a frame that
is too short, since the size of the frame wraps around.
-/

namespace LibuvNet

namespace Packet

variable (host : Host) (packet : Packet) (data : Bytes) (length : ℕ)

/-- A call that returns false leaves the packet as it was; one that returns true has found a whole
frame and makes the packet that of the frame. -/
def DeserializesAtomically : Prop :=
  let header := PacketHeader.view host.order data
  match packet.deserialize host data length with
  | (false, next) => next = packet
  | (true, next) => sizeofPacketHeader + header.length.toNat ≤ length ∧ next =
      ⟨header.type, (data.drop sizeofPacketHeader).take header.length.toNat, header.sequence⟩

instance : Decidable (packet.DeserializesAtomically host data length) := by
  unfold DeserializesAtomically
  simp only
  split <;> infer_instance

/-- The frame is rejected for its header, or it is whole, or it is too short by a count that
`size_t` can hold and the packet has the type and the sequence of the header already. -/
def RejectsHarmlessly : Prop :=
  let header := PacketHeader.view host.order data
  length < sizeofPacketHeader ∨ header.version ≠ protocolVersion ∨
    sizeofPacketHeader + header.length.toNat ≤ length ∨
    sizeofPacketHeader + header.length.toNat < host.sizeModulus ∧
      header.type = packet.type ∧ header.sequence = packet.sequence

instance : Decidable (packet.RejectsHarmlessly host data length) := by
  unfold RejectsHarmlessly
  infer_instance

/-- The type and the sequence of the header. -/
def takeHeader : Packet :=
  let header := PacketHeader.view host.order data
  { packet with type := header.type, sequence := header.sequence }

variable {host packet data length}

theorem deserialize_of_header
    (hheader : length < sizeofPacketHeader ∨
      (PacketHeader.view host.order data).version ≠ protocolVersion) :
    packet.deserialize host data length = (false, packet) := by
  unfold deserialize
  by_cases hshort : length < sizeofPacketHeader
  · exact if_pos hshort
  · exact (if_neg hshort).trans (if_pos (hheader.resolve_left hshort))

theorem deserialize_of_body (hshort : ¬ length < sizeofPacketHeader)
    (hversion : (PacketHeader.view host.order data).version = protocolVersion)
    (hbody : length <
      host.sizeAdd sizeofPacketHeader (PacketHeader.view host.order data).length.toNat) :
    packet.deserialize host data length = (false, packet.takeHeader host data) := by
  unfold deserialize
  rw [if_neg hshort]
  simp only [hversion, ne_eq, not_true_eq_false, if_false]
  exact if_pos hbody

theorem deserialize_of_whole (hshort : ¬ length < sizeofPacketHeader)
    (hversion : (PacketHeader.view host.order data).version = protocolVersion)
    (hbody : ¬ length <
      host.sizeAdd sizeofPacketHeader (PacketHeader.view host.order data).length.toNat) :
    packet.deserialize host data length = (true,
      ⟨(PacketHeader.view host.order data).type,
        (data.drop sizeofPacketHeader).take (PacketHeader.view host.order data).length.toNat,
        (PacketHeader.view host.order data).sequence⟩) := by
  unfold deserialize
  rw [if_neg hshort]
  simp only [hversion, ne_eq, not_true_eq_false, if_false]
  exact if_neg hbody

/-- The size of a frame, or, if `size_t` wraps around, something below the size of a header. -/
theorem sizeAdd_header_cases (host : Host) (count : UInt32) :
    (sizeofPacketHeader + count.toNat < host.sizeModulus ∧
        host.sizeAdd sizeofPacketHeader count.toNat = sizeofPacketHeader + count.toNat) ∨
      (host.sizeModulus ≤ sizeofPacketHeader + count.toNat ∧
        host.sizeAdd sizeofPacketHeader count.toNat < sizeofPacketHeader) := by
  have hcount := count.toNat_lt
  unfold Host.sizeAdd Host.sizeModulus sizeofPacketHeader
  cases host.sizeBits <;> simp only <;> omega

/-- **Atomic rejection.** A call of `deserialize` that returns false leaves the packet as it was,
and one that returns true makes it that of a whole frame, if and only if the frame is rejected for
its header, or whole, or the packet has its type and sequence already and the size of the frame
does not wrap around. -/
theorem deserializes_atomically_iff (host : Host) (packet : Packet) (data : Bytes) (length : ℕ) :
    packet.DeserializesAtomically host data length ↔
      packet.RejectsHarmlessly host data length := by
  unfold DeserializesAtomically RejectsHarmlessly
  by_cases hheader : length < sizeofPacketHeader ∨
      (PacketHeader.view host.order data).version ≠ protocolVersion
  · simp only [deserialize_of_header hheader, true_iff]
    exact hheader.imp_right .inl
  obtain ⟨hshort, hversion⟩ := not_or.mp hheader
  rw [not_ne_iff] at hversion
  have hcases := sizeAdd_header_cases host (PacketHeader.view host.order data).length
  by_cases hbody : length <
      host.sizeAdd sizeofPacketHeader (PacketHeader.view host.order data).length.toNat
  · -- The body is too short, and the type and the sequence have been assigned.
    obtain ⟨hfits, hsum⟩ := hcases.resolve_right fun hwraps ↦ by omega
    have hincomplete : ¬ sizeofPacketHeader +
        (PacketHeader.view host.order data).length.toNat ≤ length := by omega
    have hsame : packet.takeHeader host data = packet ↔
        (PacketHeader.view host.order data).type = packet.type ∧
          (PacketHeader.view host.order data).sequence = packet.sequence := by
      cases packet
      simp only [takeHeader, mk.injEq, true_and]
    simp only [deserialize_of_body hshort hversion hbody, hshort, hversion, hincomplete, hfits,
      hsame, ne_eq, not_true_eq_false, false_or, true_and]
  · simp only [deserialize_of_whole hshort hversion hbody, hshort, hversion, ne_eq,
      not_true_eq_false, false_or, and_true]
    constructor
    · exact .inl
    · rintro (hwhole | ⟨hfits, -⟩)
      · exact hwhole
      · omega

/-- A packet that rejects a frame of 300 bytes of which only the header has arrived. -/
theorem rejected_frame_assigned :
    ¬ DeserializesAtomically (.wide .little) ⟨.text, [104, 105], 7⟩
        [1, 1, 0, 0, 44, 1, 0, 0, 9, 0, 0, 0] 12 ∧
      deserialize (.wide .little) ⟨.text, [104, 105], 7⟩
        [1, 1, 0, 0, 44, 1, 0, 0, 9, 0, 0, 0] 12 = (false, ⟨.binary, [104, 105], 9⟩) :=
  ⟨by decide, by decide⟩

end Packet

end LibuvNet
