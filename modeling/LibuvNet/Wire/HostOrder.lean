import LibuvNet.Wire.Rejection

/-!
# Frames between hosts

A header is copied as it lies in memory, so its two words travel in the order of the sender, and
the receiver reads them in its own.  A frame crosses to a host of the other order only if neither
word shows the difference.  The length field is written big-endian by big-endian hosts alone.
-/

namespace LibuvNet

open Foundation ByteOrder

/-- The bytes of the length field. -/
def lengthField (frame : Bytes) : Bytes := (frame.drop 4).take 4

/-- A frame of the sender is a frame of the receiver for the same packet: the bytes it announces
lie within it, and `deserialize` accepts it and gives the packet back. -/
structure Crosses (sender receiver : Host) (message : WirePacket) : Prop where
  whole : sizeofPacketHeader + (PacketHeader.view receiver.order
      (message.packet.serialize sender message.padding)).length.toNat ≤
    (message.packet.serialize sender message.padding).length
  recovered : ∀ start : Packet,
    start.deserialize receiver (message.packet.serialize sender message.padding)
      (message.packet.serialize sender message.padding).length = (true, message.packet)

/-- The header as a host of another order reads it. -/
theorem PacketHeader.view_foreign (sender receiver : ByteOrder) (padding : Padding)
    (header : PacketHeader) (payload : Bytes) :
    view receiver (header.bytes sender padding ++ payload) =
      { header with
        length := receiver.decodeWord (sender.encodeWord header.length)
        sequence := receiver.decodeWord (sender.encodeWord header.sequence) } := by
  have hlength : (sender.encodeWord header.length).length = 4 := by simp
  have hsequence : (sender.encodeWord header.sequence).length = 4 := by simp
  simp [view, bytes, List.drop_append, hlength, hsequence]

theorem lengthField_serialize (host : Host) (padding : Padding) (packet : Packet) :
    lengthField (packet.serialize host padding) = host.order.encodeWord packet.header.length := by
  have hlength : (host.order.encodeWord packet.header.length).length = 4 := by simp
  simp [lengthField, Packet.serialize, PacketHeader.bytes, List.drop_append, hlength]

namespace Crosses

variable {sender receiver : Host} {message : WirePacket}

theorem of_order (hlength : sender.order = receiver.order ∨
      Palindromic message.packet.header.length)
    (hsequence : sender.order = receiver.order ∨ Palindromic message.packet.sequence) :
    Crosses sender receiver message := by
  have hview : PacketHeader.view receiver.order
      (message.packet.serialize sender message.padding) = message.packet.header := by
    rw [Packet.serialize, PacketHeader.view_foreign,
      (decodeWord_encodeWord_eq_iff _ _ _).mpr hlength]
    have hword : receiver.order.decodeWord (sender.order.encodeWord
        message.packet.header.sequence) = message.packet.header.sequence :=
      (decodeWord_encodeWord_eq_iff _ _ _).mpr hsequence
    rw [hword]
  have hfits := Packet.header_length_toNat message.fits
  have hwhole : sizeofPacketHeader + (PacketHeader.view receiver.order
      (message.packet.serialize sender message.padding)).length.toNat ≤
      (message.packet.serialize sender message.padding).length := by
    rw [hview, hfits, Packet.serialize_length]
  refine ⟨hwhole, fun start ↦ ?_⟩
  have hshort : ¬ (message.packet.serialize sender message.padding).length <
      sizeofPacketHeader := by
    rw [Packet.serialize_length]
    omega
  have hdata : ((message.packet.serialize sender message.padding).drop sizeofPacketHeader).take
      message.packet.data.length = message.packet.data := by
    rw [Packet.serialize, List.drop_left' (PacketHeader.bytes_length _ _ _), List.take_length]
  rw [Packet.deserialize_of_whole hshort (by rw [hview]; rfl)
    (Nat.not_lt.mpr ((Nat.mod_le _ _).trans hwhole)), hview, hfits, hdata]
  rfl

/-- The receiver has read both words as they were meant. -/
theorem order (hcrosses : Crosses sender receiver message) :
    (sender.order = receiver.order ∨ Palindromic message.packet.header.length) ∧
      (sender.order = receiver.order ∨ Palindromic message.packet.sequence) := by
  obtain ⟨-, -, -, hpacket⟩ := Packet.deserialize_eq_true (hcrosses.recovered .empty)
  have hwhole := hcrosses.whole
  rw [Packet.serialize_length] at hwhole
  set announced := (PacketHeader.view receiver.order
    (message.packet.serialize sender message.padding)).length with hannounced
  constructor
  · -- The payload recovered is as long as the payload sent, so the length was read as meant.
    have hdata := congrArg (fun packet ↦ packet.data.length) hpacket
    simp only [List.length_take, List.length_drop, Packet.serialize_length] at hdata
    have hcount : announced = message.packet.header.length := by
      apply UInt32.toNat_inj.mp
      rw [Packet.header_length_toNat message.fits]
      omega
    rw [hannounced, Packet.serialize, PacketHeader.view_foreign] at hcount
    exact (decodeWord_encodeWord_eq_iff _ _ _).mp hcount
  · have hsequence := congrArg Packet.sequence hpacket
    rw [Packet.serialize, PacketHeader.view_foreign] at hsequence
    exact (decodeWord_encodeWord_eq_iff _ _ _).mp hsequence.symm

end Crosses

/-- **Frames between hosts.** A packet that fits the length field crosses from one host to another
if and only if they have the same byte order, or its length and its sequence have palindromic
bytes.  Two hosts write the same length field, and a host writes it big-endian, if and only if the
order is the same, or that of a big-endian host, or the length is palindromic. -/
theorem frame_crosses_iff (sender receiver : Host) (message : WirePacket) :
    (Crosses sender receiver message ↔ sender.order = receiver.order ∨
      Palindromic message.packet.header.length ∧ Palindromic message.packet.sequence) ∧
    (lengthField (message.packet.serialize sender message.padding) =
        lengthField (message.packet.serialize receiver message.padding) ↔
      sender.order = receiver.order ∨ Palindromic message.packet.header.length) ∧
    (lengthField (message.packet.serialize sender message.padding) =
        big.encodeWord message.packet.header.length ↔
      sender.order = .big ∨ Palindromic message.packet.header.length) := by
  refine ⟨⟨fun hcrosses ↦ ?_, fun horder ↦ ?_⟩, ?_, ?_⟩
  · rw [or_and_left]
    exact hcrosses.order
  · rw [or_and_left] at horder
    exact .of_order horder.1 horder.2
  · rw [lengthField_serialize, lengthField_serialize]
    exact encodeWord_eq_iff _ _ _
  · rw [lengthField_serialize]
    exact encodeWord_eq_iff _ _ _

/-- A packet of one byte. -/
def shortMessage : WirePacket := ⟨⟨.text, [104], 0⟩, ⟨0, 0⟩, by decide⟩

/-- A big-endian host takes the length of a little-endian one for 16777216, and the other way
round; the little-endian one writes it little-endian. -/
theorem frame_stays_behind :
    ¬ (∀ (sender receiver : Host) (message : WirePacket), Crosses sender receiver message) ∧
      shortMessage.packet.deserialize (.wide .big)
        (shortMessage.packet.serialize (.wide .little) ⟨0, 0⟩) 13 = (false, shortMessage.packet) ∧
      lengthField (shortMessage.packet.serialize (.wide .little) ⟨0, 0⟩) = [1, 0, 0, 0] := by
  refine ⟨fun hcrosses ↦ ?_, by decide, by decide⟩
  have horder := (hcrosses (.wide .little) (.wide .big) shortMessage).order.1
  revert horder
  decide

end LibuvNet
