import LibuvNet.Endpoint.Transfer

/-!
# Payloads beyond the length field

The length field of a header has 32 bits, a payload as many bytes as `size_t` can count.
`Packet::serialize` narrows the one to the other without a check, and so does `uv_buf_init` with
the size of the whole frame; no `send` makes up for it.  So a frame is right, and handed over
whole, exactly as long as it has fewer than `2 ^ 32` bytes; of a longer one the transport gets a
front that may be no frame at all, or one of another packet.
-/

namespace LibuvNet

open Foundation

/-- The length field counts the bytes behind the header, `deserialize` recovers the packet, and in
the bytes that `send` hands to `uv_write` a receive loop finds the packet first, and behind them
what it would find in the later bytes alone. -/
structure Packet.InStep (order : ByteOrder) (padding : Padding) (packet : Packet) : Prop where
  length : (PacketHeader.view order (packet.serialize (.wide order) padding)).length.toNat =
    ((packet.serialize (.wide order) padding).drop sizeofPacketHeader).length
  recovered : ∀ start : Packet,
    start.deserialize (.wide order) (packet.serialize (.wide order) padding)
      (packet.serialize (.wide order) padding).length = (true, packet)
  goesOn : ∀ later : Bytes,
    (wireDecoder (.wide order)).parse
        (uvBufInit (packet.serialize (.wide order) padding) ++ later) =
      ⟨packet :: ((wireDecoder (.wide order)).parse later).values,
        ((wireDecoder (.wide order)).parse later).rest⟩

/-- `Client::send` hands nothing to `uv_write`, whatever the client it is called on. -/
def Client.Refuses (host : Host) (packet : Packet) : Prop :=
  ∀ (core : Client.Core Unit) (write : WriteCall), core.isConnected → write.result = 0 →
    (core.send host packet write).socket.writer.accepted = core.socket.writer.accepted

/-- `Session::send` hands nothing to `uv_write`, whatever the session it is called on. -/
def Session.Refuses (host : Host) (packet : Packet) : Prop :=
  ∀ (core : Session.Core) (write : WriteCall) (heap : Memory UInt8), core.isClosing = false →
    write.result = 0 →
      (core.send host packet write heap).2.socket.writer.accepted = core.socket.writer.accepted

/-- When the transport takes all of it, what goes out is what the `uv_buf_t` describes. -/
theorem writeLocal_emitted (host : Host) (packet : Packet) {write : WriteCall}
    (heap : Memory UInt8) {socket : UvTcp} (hqueue : socket.writer.queue = [])
    (hresult : write.result = 0) (htaken : packet.frameLength ≤ write.taken) :
    (writeLocal host packet write heap socket).2.writer.emitted =
      socket.writer.emitted ++ uvBufInit (packet.serialize host write.padding) := by
  have hlength : (uvBufInit (packet.serialize host write.padding)).length ≤ write.taken :=
    calc (uvBufInit (packet.serialize host write.padding)).length
        ≤ (packet.serialize host write.padding).length := uvBufInit_length_le _
      _ = packet.frameLength := Packet.serialize_length ..
      _ ≤ write.taken := htaken
  rw [writeLocal_accepted host packet heap socket hresult]
  exact submitted_emitted hqueue hlength

theorem Client.not_refuses (host : Host) (packet : Packet) : ¬ Client.Refuses host packet := by
  intro hrefuses
  let core : Client.Core Unit := { Client.Core.initial false false () with isConnected := true }
  have hsame := hrefuses core ⟨0, ⟨0, 0⟩, 0, 0⟩ rfl rfl
  rw [core.send_accepted host packet rfl rfl] at hsame
  simp at hsame

namespace Packet

variable {order : ByteOrder} {padding : Padding} {packet : Packet}

theorem fits_of_frameLength (hlength : packet.frameLength < 2 ^ 32) : packet.Fits :=
  (Nat.le_add_left _ _).trans_lt hlength

theorem InStep.of_frameLength (padding : Padding) (hlength : packet.frameLength < 2 ^ 32) :
    packet.InStep order padding := by
  have hfits := fits_of_frameLength hlength
  have hwhole : uvBufInit (packet.serialize (.wide order) padding) =
      packet.serialize (.wide order) padding := by
    apply uvBufInit_of_lt
    rwa [serialize_length]
  have hview := view_serialize_append (.wide order) padding packet []
  rw [List.append_nil] at hview
  constructor
  · calc (PacketHeader.view order (packet.serialize (.wide order) padding)).length.toNat
        = packet.header.length.toNat := congrArg (fun header ↦ header.length.toNat) hview
      _ = packet.data.length := header_length_toNat hfits
      _ = ((packet.serialize (.wide order) padding).drop sizeofPacketHeader).length := by
          rw [List.length_drop, serialize_length, Nat.add_sub_cancel_left]
  · intro start
    have hdeserialize := deserialize_serialize_append order padding hfits start []
    rw [List.append_nil] at hdeserialize
    rw [serialize_length]
    exact hdeserialize
  · intro later
    rw [hwhole, (wireDecoder (.wide order)).parse_of_frame
      (scanFrame_serialize_append order padding hfits later), List.drop_left]

/-- A receive loop finds no packet in fewer bytes than its frame has. -/
theorem InStep.frameLength_lt (hinstep : packet.InStep order padding) :
    packet.frameLength < 2 ^ 32 := by
  have hgoesOn := hinstep.goesOn []
  rw [List.append_nil] at hgoesOn
  have hfound : packet ∈ ((wireDecoder (.wide order)).parse
      (uvBufInit (packet.serialize (.wide order) padding))).values := by
    rw [hgoesOn]
    exact List.mem_cons_self
  calc packet.frameLength
      ≤ (uvBufInit (packet.serialize (.wide order) padding)).length :=
        frameLength_le_of_mem_parse hfound
    _ = (packet.serialize (.wide order) padding).length % 2 ^ 32 := uvBufInit_length _
    _ < 2 ^ 32 := Nat.mod_lt _ (by decide)

end Packet

/-- **The length field.** A packet stays in step with the receiver, or both `send` functions refuse
it, if and only if its frame has fewer than `2 ^ 32` bytes. -/
theorem length_field_agrees_iff (order : ByteOrder) (padding : Padding) (packet : Packet) :
    packet.InStep order padding ∨
        Client.Refuses (.wide order) packet ∧ Session.Refuses (.wide order) packet ↔
      packet.frameLength < 2 ^ 32 := by
  constructor
  · rintro (hinstep | ⟨hrefuses, -⟩)
    · exact hinstep.frameLength_lt
    · exact absurd hrefuses (Client.not_refuses (.wide order) packet)
  · exact fun hlength ↦ .inl (.of_frameLength padding hlength)

/-- A packet with one byte more than a length field can count. -/
def oversized : Packet := ⟨.binary, List.replicate (2 ^ 32) 0, 0⟩

theorem oversized_data_length : oversized.data.length = 2 ^ 32 := List.length_replicate

/-- The header is all of its frame that a `uv_buf_t` describes. -/
theorem uvBufInit_oversized (host : Host) (padding : Padding) :
    uvBufInit (oversized.serialize host padding) =
      oversized.header.bytes host.order padding := by
  have hmod : (oversized.serialize host padding).length % 2 ^ 32 = sizeofPacketHeader := by
    rw [Packet.serialize_length, oversized_data_length, Nat.add_mod_right]
    rfl
  rw [uvBufInit, hmod]
  exact List.take_left' (PacketHeader.bytes_length ..)

/-- A write that the transport takes whole, however long the packet is. -/
def takenAtOnce : WriteCall := ⟨0, ⟨0, 0⟩, 0, 2 ^ 33⟩

theorem writeLocal_oversized (host : Host) (heap : Memory UInt8) {socket : UvTcp}
    (hqueue : socket.writer.queue = []) (hemitted : socket.writer.emitted = []) :
    (writeLocal host oversized takenAtOnce heap socket).2.writer.emitted =
      oversized.header.bytes host.order ⟨0, 0⟩ := by
  have htaken : oversized.frameLength ≤ takenAtOnce.taken := by
    rw [Packet.frameLength, oversized_data_length]
    decide
  rw [writeLocal_emitted host oversized heap hqueue rfl htaken, hemitted, List.nil_append,
    uvBufInit_oversized]
  rfl

/-- Its header announces no payload at all, and both `send` functions hand over the header and
nothing else. -/
theorem oversized_out_of_step :
    ¬ (oversized.InStep .little ⟨0, 0⟩ ∨
        Client.Refuses (.wide .little) oversized ∧ Session.Refuses (.wide .little) oversized) ∧
      oversized.data.length = 2 ^ 32 ∧ oversized.header.length = 0 ∧
      (connectedClient.state.send (.wide .little) oversized takenAtOnce).socket.writer.emitted =
        oversized.header.bytes .little ⟨0, 0⟩ ∧
      (openSession.core.send (.wide .little) oversized takenAtOnce
        openSession.heap).2.socket.writer.emitted = oversized.header.bytes .little ⟨0, 0⟩ := by
  refine ⟨?_, oversized_data_length, ?_, ?_, ?_⟩
  · rintro (hinstep | ⟨hrefuses, -⟩)
    · have hlt := hinstep.frameLength_lt
      rw [Packet.frameLength, oversized_data_length] at hlt
      omega
    · exact Client.not_refuses _ _ hrefuses
  · rw [Packet.header, oversized_data_length]
    rfl
  · have hconnected : connectedClient.state.isConnected = true := rfl
    rw [Client.Core.send, if_neg (not_not.mpr hconnected)]
    exact writeLocal_oversized _ _ rfl rfl
  · have hopen : ¬ openSession.core.isClosing = true := Bool.false_ne_true
    rw [Session.Core.send, if_neg hopen]
    exact writeLocal_oversized _ _ rfl rfl

end LibuvNet
