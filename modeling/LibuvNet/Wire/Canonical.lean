import LibuvNet.Wire.Framing

/-!
# Frames and the packets they give

On a 64-bit host an accepted input begins with a frame, and the packet read from it knows the whole
frame except the two bytes of padding: written again over the old padding, it is the same frame.
So inputs give the same packet exactly if their frames agree outside the padding.
-/

namespace LibuvNet

open Foundation

/-- The bytes are the same everywhere but at offsets 2 and 3. -/
def AgreesOutsidePadding (left right : Bytes) : Prop :=
  ∀ index, index ≠ 2 → index ≠ 3 → left[index]? = right[index]?

/-- An input that `deserialize` accepts, and the packet it reads from it. -/
structure AcceptedInput (order : ByteOrder) where
  data : Bytes
  length : ℕ
  inside : length ≤ data.length
  start : Packet
  packet : Packet
  accepted : start.deserialize (.wide order) data length = (true, packet)

namespace AgreesOutsidePadding

variable {left right other : Bytes}

theorem symm (hagrees : AgreesOutsidePadding left right) : AgreesOutsidePadding right left :=
  fun index htwo hthree ↦ (hagrees index htwo hthree).symm

theorem trans (hfirst : AgreesOutsidePadding left right)
    (hsecond : AgreesOutsidePadding right other) : AgreesOutsidePadding left other :=
  fun index htwo hthree ↦ (hfirst index htwo hthree).trans (hsecond index htwo hthree)

end AgreesOutsidePadding

/-- What lies at the offsets of the padding. -/
def paddingIn (data : Bytes) : Padding := ⟨data.getD 2 0, data.getD 3 0⟩

/-- A header that is read and written over its old padding is the same bytes again. -/
theorem PacketHeader.bytes_view (order : ByteOrder) {data : Bytes}
    (hlength : sizeofPacketHeader ≤ data.length) :
    (view order data).bytes order (paddingIn data) = data.take sizeofPacketHeader := by
  have h12 : 12 ≤ data.length := hlength
  have hword (start : ℕ) (hstart : start + 4 ≤ 12) : ((data.drop start).take 4).length = 4 := by
    rw [List.length_take, List.length_drop]
    omega
  have hfront : data.take 4 = [data.getD 0 0, data.getD 1 0, data.getD 2 0, data.getD 3 0] := by
    match data, h12 with
    | _ :: _ :: _ :: _ :: _, _ => rfl
  calc (view order data).bytes order (paddingIn data)
      = [data.getD 0 0, data.getD 1 0, data.getD 2 0, data.getD 3 0] ++
          order.encodeWord (order.decodeWord ((data.drop 4).take 4)) ++
          order.encodeWord (order.decodeWord ((data.drop 8).take 4)) := rfl
    _ = data.take 4 ++ (data.drop 4).take 4 ++ (data.drop 8).take 4 := by
        rw [hfront, order.encodeWord_decodeWord (hword 4 (by decide)),
          order.encodeWord_decodeWord (hword 8 (by decide))]
    _ = data.take sizeofPacketHeader := by
        rw [← List.take_add, ← List.take_add]
        rfl

namespace Packet

variable {host : Host} {packet other : Packet}

/-- The padding shows nowhere else. -/
theorem serialize_agrees (host : Host) (packet : Packet) (first second : Padding) :
    AgreesOutsidePadding (packet.serialize host first) (packet.serialize host second) := by
  intro index htwo hthree
  match index with
  | 0 | 1 => rfl
  | 2 => exact absurd rfl htwo
  | 3 => exact absurd rfl hthree
  | _ + 4 => rfl

/-- Frames that agree outside the padding are the same over any one padding. -/
theorem serialize_eq_of_agrees {first second : Padding}
    (hagrees : AgreesOutsidePadding (packet.serialize host first) (other.serialize host second))
    (padding : Padding) : packet.serialize host padding = other.serialize host padding := by
  apply List.ext_getElem?
  intro index
  match index with
  | 0 => exact hagrees 0 (by decide) (by decide)
  | 1 => exact hagrees 1 (by decide) (by decide)
  | 2 => rfl
  | 3 => rfl
  | rest + 4 => exact hagrees (rest + 4) (by omega) (by omega)

/-- Packets that fit are told apart by their frames. -/
theorem serialize_injective {order : ByteOrder} {padding : Padding} (hfits : packet.Fits)
    (hother : other.Fits)
    (hframe : packet.serialize (.wide order) padding = other.serialize (.wide order) padding) :
    packet = other := by
  have hlength : packet.data.length = other.data.length := by
    have hsame := congrArg List.length hframe
    rw [serialize_length, serialize_length] at hsame
    omega
  have hread := deserialize_serialize_append order padding hfits .empty []
  rw [hframe, hlength, deserialize_serialize_append order padding hother] at hread
  exact (congrArg Prod.snd hread).symm

end Packet

namespace AcceptedInput

variable {order : ByteOrder} (input : AcceptedInput order)

/-- The length that the header announces. -/
def announced : ℕ := (PacketHeader.view order input.data).length.toNat

/-- The header and as many bytes as it announces. -/
def frame : Bytes := input.data.take (sizeofPacketHeader + input.announced)

theorem header_le : sizeofPacketHeader ≤ input.length :=
  (Packet.deserialize_eq_true input.accepted).1

theorem frame_le : sizeofPacketHeader + input.announced ≤ input.length := by
  have hsize := (Packet.deserialize_eq_true input.accepted).2.2.1
  have hwide : (Host.wide order).sizeAdd sizeofPacketHeader input.announced =
      sizeofPacketHeader + input.announced := messageSize_wide order input.data
  exact hwide.symm.trans_le hsize

theorem packet_eq : input.packet = ⟨(PacketHeader.view order input.data).type,
    (input.data.drop sizeofPacketHeader).take input.announced,
    (PacketHeader.view order input.data).sequence⟩ :=
  (Packet.deserialize_eq_true input.accepted).2.2.2

theorem data_length : input.packet.data.length = input.announced := by
  have hframe := input.frame_le.trans input.inside
  rw [packet_eq, List.length_take, List.length_drop]
  omega

theorem fits : input.packet.Fits := by
  rw [Packet.Fits, data_length]
  exact UInt32.toNat_lt _

/-- The packet has the header that was read. -/
theorem header_eq : input.packet.header = PacketHeader.view order input.data := by
  have hversion : (PacketHeader.view order input.data).version = protocolVersion :=
    (Packet.deserialize_eq_true input.accepted).2.1
  have hlength : UInt32.ofNat input.packet.data.length =
      (PacketHeader.view order input.data).length := by
    rw [data_length, announced, UInt32.ofNat_toNat]
  rw [Packet.header, hlength, ← hversion, packet_eq]

/-- Written over the padding of the input, the packet is the frame of the input. -/
theorem serialize_eq_frame :
    input.packet.serialize (.wide order) (paddingIn input.data) = input.frame := by
  have hdata : input.packet.data =
      (input.data.drop sizeofPacketHeader).take input.announced := by rw [packet_eq]
  calc input.packet.serialize (.wide order) (paddingIn input.data)
      = (PacketHeader.view order input.data).bytes order (paddingIn input.data) ++
          input.packet.data := by rw [Packet.serialize, header_eq]; rfl
    _ = input.data.take sizeofPacketHeader ++
          (input.data.drop sizeofPacketHeader).take input.announced := by
        rw [PacketHeader.bytes_view order (input.header_le.trans input.inside), hdata]
    _ = input.frame := by rw [frame, List.take_add]

/-- Over any padding it is the frame of the input outside the padding. -/
theorem serialize_agrees (padding : Padding) :
    AgreesOutsidePadding (input.packet.serialize (.wide order) padding) input.frame := by
  rw [← serialize_eq_frame]
  exact Packet.serialize_agrees _ _ _ _

end AcceptedInput

/-- **Encoding after decoding.** The packet read from an accepted input is written again as its
frame, up to the padding, and read again as the same packet.  Two accepted inputs give the same
packet if and only if they announce the same length and their frames agree outside the padding. -/
theorem accepted_inputs_canonical {order : ByteOrder} (input : AcceptedInput order)
    (padding : Padding) :
    (input.packet.serialize (.wide order) padding).length =
        sizeofPacketHeader + input.announced ∧
      AgreesOutsidePadding (input.packet.serialize (.wide order) padding) input.frame ∧
      (∀ start : Packet, start.deserialize (.wide order)
        (input.packet.serialize (.wide order) padding)
        (input.packet.serialize (.wide order) padding).length = (true, input.packet)) ∧
      ∀ other : AcceptedInput order, input.packet = other.packet ↔
        input.announced = other.announced ∧ AgreesOutsidePadding input.frame other.frame := by
  refine ⟨?_, input.serialize_agrees padding, fun start ↦ ?_, fun other ↦ ⟨fun hsame ↦ ?_, ?_⟩⟩
  · rw [Packet.serialize_length, input.data_length]
  · have hread := Packet.deserialize_serialize_append order padding input.fits start []
    rwa [List.append_nil, ← Packet.serialize_length (.wide order) padding] at hread
  · constructor
    · rw [← input.data_length, ← other.data_length, hsame]
    · have hother := other.serialize_agrees padding
      rw [← hsame] at hother
      exact (input.serialize_agrees padding).symm.trans hother
  · rintro ⟨-, hagrees⟩
    rw [← input.serialize_eq_frame, ← other.serialize_eq_frame] at hagrees
    exact Packet.serialize_injective input.fits other.fits
      (Packet.serialize_eq_of_agrees hagrees padding)

/-- A frame of one byte with four bytes behind it. -/
def trailedInput : AcceptedInput .little where
  data := [1, 0, 255, 255, 1, 0, 0, 0, 7, 0, 0, 0, 104, 1, 0, 0, 0]
  length := 17
  inside := by decide
  start := .empty
  packet := ⟨.text, [104], 7⟩
  accepted := by decide

/-- It is written again with other padding and without what is behind it. -/
theorem accepted_inputs_canonical_trailed :
    trailedInput.packet.serialize (.wide .little) ⟨0, 0⟩ =
        [1, 0, 0, 0, 1, 0, 0, 0, 7, 0, 0, 0, 104] ∧
      AgreesOutsidePadding (trailedInput.packet.serialize (.wide .little) ⟨0, 0⟩)
        trailedInput.frame := by
  obtain ⟨-, hagrees, -⟩ := accepted_inputs_canonical trailedInput ⟨0, 0⟩
  exact ⟨by decide, hagrees⟩

end LibuvNet
