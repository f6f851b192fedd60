import LibuvNet.Foundation.FrameCodec
import LibuvNet.Wire.Message
import Mathlib.Algebra.Order.BigOperators.Group.List

/-!
# The wire format as a frame decoder

Both receive loops look at the front of their buffer in the same way: twelve bytes for a header,
then as many bytes as the header announces, then `Packet::deserialize`.  `scanFrame` is that look,
and the decoder laws hold for it on every host: a header is not reinterpreted when bytes arrive
behind it, and a size that wraps around `size_t` is below twelve and so rejected, never a frame.

On a 64-bit host nothing wraps, and the packets whose payload fits the length field form a frame
codec: `serialize` is undone by the decoder in every context.
-/

namespace LibuvNet

open Foundation

/-- `sizeof(PacketHeader) + header->length`, as `size_t` computes it. -/
def messageSize (host : Host) (buffer : Bytes) : ℕ :=
  host.sizeAdd sizeofPacketHeader (PacketHeader.view host.order buffer).length.toNat

/-- What the front of a receive buffer is. -/
def scanFrame (host : Host) (buffer : Bytes) : Verdict Packet :=
  if buffer.length < sizeofPacketHeader then .more
  else if buffer.length < messageSize host buffer then .more
  else
    match Packet.empty.deserialize host buffer (messageSize host buffer) with
    | (true, packet) => .frame packet (messageSize host buffer)
    | (false, _) => .reject

theorem scanFrame_of_short {host : Host} {buffer : Bytes}
    (hheader : buffer.length < sizeofPacketHeader) : scanFrame host buffer = .more :=
  if_pos hheader

theorem scanFrame_of_incomplete {host : Host} {buffer : Bytes}
    (hcomplete : buffer.length < messageSize host buffer) : scanFrame host buffer = .more := by
  rw [scanFrame, if_pos hcomplete, ite_self]

theorem scanFrame_of_complete {host : Host} {buffer : Bytes}
    (hheader : ¬ buffer.length < sizeofPacketHeader)
    (hcomplete : ¬ buffer.length < messageSize host buffer) :
    scanFrame host buffer =
      match Packet.empty.deserialize host buffer (messageSize host buffer) with
      | (true, packet) => .frame packet (messageSize host buffer)
      | (false, _) => .reject := by
  rw [scanFrame, if_neg hheader, if_neg hcomplete]

theorem messageSize_append (host : Host) {buffer : Bytes} (later : Bytes)
    (hheader : sizeofPacketHeader ≤ buffer.length) :
    messageSize host (buffer ++ later) = messageSize host buffer := by
  rw [messageSize, messageSize, PacketHeader.view_append host.order later hheader]

/-- `deserialize` looks at no byte beyond the given length. -/
theorem Packet.deserialize_append (host : Host) (packet : Packet) {buffer : Bytes}
    (later : Bytes) {length : ℕ} (hlength : length ≤ buffer.length)
    (hwide : ¬ length < sizeofPacketHeader →
      sizeofPacketHeader + (PacketHeader.view host.order buffer).length.toNat ≤ length) :
    packet.deserialize host (buffer ++ later) length = packet.deserialize host buffer length := by
  by_cases hshort : length < sizeofPacketHeader
  · simp only [deserialize, if_pos hshort]
  · have hheader : sizeofPacketHeader ≤ buffer.length := by omega
    have hpayload := hwide hshort
    have hdata : ((buffer ++ later).drop sizeofPacketHeader).take
          (PacketHeader.view host.order buffer).length.toNat =
        (buffer.drop sizeofPacketHeader).take
          (PacketHeader.view host.order buffer).length.toNat := by
      rw [List.drop_append_of_le_length hheader,
        List.take_append_of_le_length (by rw [List.length_drop]; omega)]
    simp only [deserialize, if_neg hshort, PacketHeader.view_append host.order later hheader, hdata]

/-- A size that `size_t` wraps around comes out below the size of a header. -/
theorem messageSize_lt_or_eq (host : Host) (buffer : Bytes) :
    messageSize host buffer < sizeofPacketHeader ∨
      messageSize host buffer =
        sizeofPacketHeader + (PacketHeader.view host.order buffer).length.toNat := by
  have hlength := (PacketHeader.view host.order buffer).length.toNat_lt
  unfold messageSize Host.sizeAdd Host.sizeModulus sizeofPacketHeader
  cases host.sizeBits <;> simp only <;> omega

theorem Packet.deserialize_messageSize_append (host : Host) (packet : Packet) {buffer : Bytes}
    (later : Bytes) (hcomplete : messageSize host buffer ≤ buffer.length) :
    packet.deserialize host (buffer ++ later) (messageSize host buffer) =
      packet.deserialize host buffer (messageSize host buffer) := by
  apply packet.deserialize_append host later hcomplete
  intro hshort
  exact ((messageSize_lt_or_eq host buffer).resolve_left hshort).ge

theorem scanFrame_append (host : Host) {buffer : Bytes} (later : Bytes)
    (hmore : scanFrame host buffer ≠ .more) :
    scanFrame host (buffer ++ later) = scanFrame host buffer := by
  by_cases hheader : buffer.length < sizeofPacketHeader
  · exact absurd (scanFrame_of_short hheader) hmore
  by_cases hcomplete : buffer.length < messageSize host buffer
  · exact absurd (scanFrame_of_incomplete hcomplete) hmore
  have hsize := messageSize_append host later (Nat.le_of_not_lt hheader)
  have hheader' : ¬ (buffer ++ later).length < sizeofPacketHeader := by
    rw [List.length_append]
    omega
  have hcomplete' : ¬ (buffer ++ later).length < messageSize host (buffer ++ later) := by
    rw [hsize, List.length_append]
    omega
  rw [scanFrame_of_complete hheader hcomplete, scanFrame_of_complete hheader' hcomplete', hsize,
    Packet.deserialize_messageSize_append host Packet.empty later (Nat.le_of_not_lt hcomplete)]

/-- What `deserialize` accepts is a complete frame of the supported version. -/
theorem Packet.deserialize_eq_true {host : Host} {packet result : Packet} {data : Bytes}
    {length : ℕ} (haccept : packet.deserialize host data length = (true, result)) :
    sizeofPacketHeader ≤ length ∧
      (PacketHeader.view host.order data).version = protocolVersion ∧
      host.sizeAdd sizeofPacketHeader (PacketHeader.view host.order data).length.toNat ≤ length ∧
      result =
        ⟨(PacketHeader.view host.order data).type,
          (data.drop sizeofPacketHeader).take (PacketHeader.view host.order data).length.toNat,
          (PacketHeader.view host.order data).sequence⟩ := by
  unfold deserialize at haccept
  simp only at haccept
  split_ifs at haccept with hshort hversion hcomplete
  · simp at haccept
  · simp at haccept
  · simp at haccept
  · rw [Prod.mk.injEq] at haccept
    exact ⟨Nat.le_of_not_lt hshort, not_not.mp hversion, Nat.le_of_not_lt hcomplete,
      haccept.2.symm⟩

/-- What the front of a buffer must be for a frame to be taken off it. -/
theorem scanFrame_eq_frame {host : Host} {buffer : Bytes} {packet : Packet} {size : ℕ}
    (hscan : scanFrame host buffer = .frame packet size) :
    size = messageSize host buffer ∧ sizeofPacketHeader ≤ size ∧ size ≤ buffer.length ∧
      Packet.empty.deserialize host buffer size = (true, packet) := by
  unfold scanFrame at hscan
  split_ifs at hscan with hheader hcomplete
  split at hscan
  · rename_i accepted hdeserialize
    rw [Verdict.frame.injEq] at hscan
    obtain ⟨rfl, rfl⟩ := hscan
    exact ⟨rfl, (Packet.deserialize_eq_true hdeserialize).1, Nat.le_of_not_lt hcomplete,
      hdeserialize⟩
  · simp at hscan

/-- The frame decoder of both receive loops. -/
def wireDecoder (host : Host) : FrameDecoder UInt8 Packet where
  scan := scanFrame host
  scan_nil := by simp [scanFrame, sizeofPacketHeader]
  size_pos hscan := (scanFrame_eq_frame hscan).2.1.trans_lt' (by decide)
  size_le hscan := (scanFrame_eq_frame hscan).2.2.1
  frame_append later hscan := by rw [scanFrame_append _ later (by simp [hscan]), hscan]
  reject_append later hscan := by rw [scanFrame_append _ later (by simp [hscan]), hscan]

@[simp]
theorem wireDecoder_scan (host : Host) (buffer : Bytes) :
    (wireDecoder host).scan buffer = scanFrame host buffer := rfl

theorem scanFrame_singleton_ne_reject (host : Host) (byte : UInt8) :
    scanFrame host [byte] ≠ .reject := by
  simp [scanFrame, sizeofPacketHeader]

/-! ## Serialized packets on a 64-bit host -/

section Wide

variable (order : ByteOrder)

theorem messageSize_wide (buffer : Bytes) :
    messageSize (.wide order) buffer =
      sizeofPacketHeader + (PacketHeader.view order buffer).length.toNat := by
  have hlength := (PacketHeader.view order buffer).length.toNat_lt
  unfold messageSize Host.sizeAdd Host.sizeModulus sizeofPacketHeader
  simp only [Host.wide]
  omega

theorem view_serialize_append (host : Host) (padding : Padding) (packet : Packet)
    (later : Bytes) :
    PacketHeader.view host.order (packet.serialize host padding ++ later) = packet.header := by
  rw [Packet.serialize, List.append_assoc, PacketHeader.view_bytes_append]

/-- `deserialize` undoes `serialize`, whatever follows the frame. -/
theorem Packet.deserialize_serialize_append (padding : Padding) {packet : Packet}
    (hfits : packet.Fits) (start : Packet) (later : Bytes) :
    start.deserialize (.wide order) (packet.serialize (.wide order) padding ++ later)
      (sizeofPacketHeader + packet.data.length) = (true, packet) := by
  have hview := view_serialize_append (.wide order) padding packet later
  have hadd : (Host.wide order).sizeAdd sizeofPacketHeader packet.data.length =
      sizeofPacketHeader + packet.data.length := by
    unfold Host.sizeAdd Host.sizeModulus sizeofPacketHeader
    simp only [Host.wide]
    unfold Packet.Fits at hfits
    omega
  have hdata : ((packet.serialize (.wide order) padding ++ later).drop sizeofPacketHeader).take
      packet.data.length = packet.data := by
    rw [Packet.serialize, List.append_assoc,
      List.drop_left' (PacketHeader.bytes_length _ padding packet.header), List.take_left]
  simp only [deserialize, hview, Packet.header_length_toNat hfits, hadd, hdata]
  simp [Packet.header]

theorem scanFrame_serialize_append (padding : Padding) {packet : Packet} (hfits : packet.Fits)
    (later : Bytes) :
    scanFrame (.wide order) (packet.serialize (.wide order) padding ++ later) =
      .frame packet (packet.serialize (.wide order) padding).length := by
  have hview := view_serialize_append (.wide order) padding packet later
  have hsize : messageSize (.wide order) (packet.serialize (.wide order) padding ++ later) =
      sizeofPacketHeader + packet.data.length := by
    rw [messageSize_wide]
    simp only [Host.wide] at hview ⊢
    rw [hview, Packet.header_length_toNat hfits]
  have hlength : (packet.serialize (.wide order) padding ++ later).length =
      sizeofPacketHeader + packet.data.length + later.length := by
    rw [List.length_append, Packet.serialize_length]
  unfold scanFrame
  rw [hsize, hlength, if_neg (by omega), if_neg (by omega),
    Packet.deserialize_serialize_append order padding hfits, Packet.serialize_length]

/-- No proper part of a serialized packet is taken for a frame or rejected. -/
theorem scanFrame_partial (padding : Padding) {packet : Packet} (hfits : packet.Fits)
    {front back : Bytes} (hsplit : front ++ back = packet.serialize (.wide order) padding)
    (hback : back ≠ []) : scanFrame (.wide order) front = .more := by
  by_contra hmore
  have happend := scanFrame_append (.wide order) back hmore
  have hwhole := scanFrame_serialize_append order padding hfits []
  rw [List.append_nil, ← hsplit, happend] at hwhole
  have hle := (scanFrame_eq_frame hwhole).2.2.1
  have hpos : 0 < back.length := List.length_pos_of_ne_nil hback
  rw [List.length_append] at hle
  omega

end Wide

/-- The length of the frame of a packet. -/
def Packet.frameLength (packet : Packet) : ℕ := sizeofPacketHeader + packet.data.length

/-- A packet is taken off the buffer with all the bytes of its frame. -/
theorem frameLength_le_of_scanFrame {order : ByteOrder} {buffer : Bytes} {packet : Packet}
    {size : ℕ} (hscan : scanFrame (.wide order) buffer = .frame packet size) :
    packet.frameLength ≤ size := by
  obtain ⟨hsize, -, -, hdeserialize⟩ := scanFrame_eq_frame hscan
  obtain ⟨-, -, -, hpacket⟩ := Packet.deserialize_eq_true hdeserialize
  rw [messageSize_wide] at hsize
  rw [Packet.frameLength, hpacket, hsize]
  exact Nat.add_le_add_left (List.length_take_le _ _) _

/-- What a buffer is left with and the frames that were taken off it fit into what it held. -/
theorem frameLengths_add_kept_le (order : ByteOrder) (held : Bytes) :
    (((wireDecoder (.wide order)).parse held).values.map Packet.frameLength).sum +
      ((wireDecoder (.wide order)).kept held).length ≤ held.length :=
  (wireDecoder (.wide order)).sizes_add_kept_le Packet.frameLength
    (fun hscan ↦ frameLength_le_of_scanFrame hscan) held

/-- No packet is found in fewer bytes than its frame has. -/
theorem frameLength_le_of_mem_parse {order : ByteOrder} {held : Bytes} {packet : Packet}
    (hmem : packet ∈ ((wireDecoder (.wide order)).parse held).values) :
    packet.frameLength ≤ held.length :=
  calc packet.frameLength
      ≤ (((wireDecoder (.wide order)).parse held).values.map Packet.frameLength).sum :=
        List.le_sum_of_mem (List.mem_map_of_mem hmem)
    _ ≤ held.length := (Nat.le_add_right _ _).trans (frameLengths_add_kept_le order held)

/-- A packet the wire format can carry, with the padding its header object happens to hold. -/
structure WirePacket where
  packet : Packet
  padding : Padding
  fits : packet.Fits

/-- The frame codec of a 64-bit host. -/
def wireCodec (order : ByteOrder) : FrameCodec UInt8 Packet WirePacket where
  toFrameDecoder := wireDecoder (.wide order)
  encode message := message.packet.serialize (.wide order) message.padding
  value message := message.packet
  scan_encode_append message later :=
    scanFrame_serialize_append order message.padding message.fits later
  scan_partial {message} {_ _} hsplit hback :=
    scanFrame_partial order message.padding message.fits hsplit hback

end LibuvNet
