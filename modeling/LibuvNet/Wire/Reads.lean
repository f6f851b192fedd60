import LibuvNet.Foundation.MemoryRead
import LibuvNet.Wire.Rejection

/-!
# What the decoder reads

`Packet::deserialize` is given a pointer and a length and reads the memory behind the pointer: the
version first, then the type, the sequence and the length of the header, and at last the range it
copies.  Where all these reads lie inside the input the outcome is that of `Packet.deserialize` on
the bytes of the input, whatever the memory holds behind them.  The range that is copied is checked
against a sum of `size_t`; where `size_t` has 32 bits and the sum wraps around, the range runs past
the end of the input.
-/

namespace LibuvNet

open Foundation

/-- What `deserialize` is called with: memory from `data` on, and a length. -/
structure DecoderInput (host : Host) where
  memory : ℕ → UInt8
  length : ℕ
  length_lt : length < host.sizeModulus

namespace DecoderInput

variable {host : Host} (input : DecoderInput host)

/-- The bytes of the input. -/
def bytes : Bytes := (List.range input.length).map input.memory

def header : PacketHeader := .view host.order input.bytes

/-- A byte string, with zeros behind it. -/
def ofBytes (host : Host) (data : Bytes) (hlength : data.length < host.sizeModulus) :
    DecoderInput host :=
  ⟨fun place ↦ data.getD place 0, data.length, hlength⟩

@[simp]
theorem ofBytes_bytes {data : Bytes} (hlength : data.length < host.sizeModulus) :
    (ofBytes host data hlength).bytes = data := by
  apply List.ext_getElem
  · simp [bytes, ofBytes]
  · intro place _ hplace
    simp [bytes, ofBytes, hplace]

/-- The header, read from memory member by member. -/
theorem header_eq (hlength : sizeofPacketHeader ≤ input.length) :
    input.header =
      ⟨input.memory 0, ⟨input.memory 1⟩,
        host.order.decodeWord ((List.range' 4 4).map input.memory),
        host.order.decodeWord ((List.range' 8 4).map input.memory)⟩ := by
  have h12 : 12 ≤ input.length := hlength
  have hbyte (place : ℕ) (hplace : place < 12) : input.bytes.getD place 0 = input.memory place := by
    have hlt : place < input.length := by omega
    simp [bytes, hlt]
  unfold header PacketHeader.view
  rw [hbyte 0 (by decide), hbyte 1 (by decide),
    map_range'_eq_take_drop input.memory (show 4 + 4 ≤ input.length by omega),
    map_range'_eq_take_drop input.memory (show 8 + 4 ≤ input.length by omega)]
  rfl

variable {input}

theorem memory_version (hlength : sizeofPacketHeader ≤ input.length) :
    input.memory 0 = input.header.version := by
  rw [input.header_eq hlength]

theorem memory_type (hlength : sizeofPacketHeader ≤ input.length) :
    ⟨input.memory 1⟩ = input.header.type := by
  rw [input.header_eq hlength]

theorem memory_length (hlength : sizeofPacketHeader ≤ input.length) :
    host.order.decodeWord ((List.range' 4 4).map input.memory) = input.header.length := by
  rw [input.header_eq hlength]

theorem memory_sequence (hlength : sizeofPacketHeader ≤ input.length) :
    host.order.decodeWord ((List.range' 8 4).map input.memory) = input.header.sequence := by
  rw [input.header_eq hlength]

end DecoderInput

namespace Packet

/-- `Packet::deserialize(data, length)`, read by read.  `assign` reads the range it is given here; a
range that wraps around is not a valid one, and common libraries throw before they read from it. -/
def deserializeReads (host : Host) (packet : Packet) (length : ℕ) :
    MemoryRead UInt8 (Bool × Packet) :=
  if length < sizeofPacketHeader then pure (false, packet)
  else do
    let version ← MemoryRead.readAt 0
    if version ≠ protocolVersion then pure (false, packet)
    else do
      let type ← MemoryRead.readAt 1
      let sequence ← MemoryRead.readRange 8 4
      let packet :=
        { packet with type := ⟨type⟩, sequence := host.order.decodeWord sequence }
      let word ← MemoryRead.readRange 4 4
      let dataLength := (host.order.decodeWord word).toNat
      if length < host.sizeAdd sizeofPacketHeader dataLength then pure (false, packet)
      else do
        let data ← MemoryRead.readRange sizeofPacketHeader dataLength
        pure (true, { packet with data := data })

variable {host : Host} (packet : Packet) (input : DecoderInput host)

/-- Every read is inside the input, and a frame that is accepted has been copied, as announced,
from inside the input. -/
def ReadsInside : Prop :=
  let reads := packet.deserializeReads host input.length
  reads.Within input.length input.memory ∧
    ((reads.result input.memory).1 = true →
      sizeofPacketHeader + input.header.length.toNat ≤ input.length ∧
        (reads.result input.memory).2.data =
          (input.bytes.drop sizeofPacketHeader).take input.header.length.toNat)

/-- The input is rejected for its header, or `size_t` can hold the size of its frame. -/
def CountsItsFrame : Prop :=
  input.length < sizeofPacketHeader ∨ input.header.version ≠ protocolVersion ∨
    sizeofPacketHeader + input.header.length.toNat < host.sizeModulus

instance : Decidable (packet.ReadsInside input) := by
  unfold ReadsInside
  infer_instance

instance : Decidable (CountsItsFrame input) := by
  unfold CountsItsFrame
  infer_instance

variable {packet input}

/-- The decoder stays inside the input exactly when the size of the frame does not wrap around. -/
theorem within_iff :
    (packet.deserializeReads host input.length).Within input.length input.memory ↔
      CountsItsFrame input := by
  unfold deserializeReads CountsItsFrame
  by_cases hshort : input.length < sizeofPacketHeader
  · simp only [hshort, if_true, MemoryRead.within_pure, true_or]
  have h12 : 12 ≤ input.length := not_lt.mp hshort
  have hlt := input.length_lt
  rw [if_neg hshort, MemoryRead.within_bind, MemoryRead.within_readAt, MemoryRead.result_readAt,
    DecoderInput.memory_version h12]
  by_cases hversion : input.header.version = protocolVersion
  swap
  · simp only [hversion, ne_eq, not_false_eq_true, if_true, MemoryRead.within_pure, true_or,
      or_true, and_true, iff_true]
    omega
  have hcases := sizeAdd_header_cases host input.header.length
  simp only [hshort, hversion, ne_eq, not_true_eq_false, if_false, MemoryRead.within_bind,
    MemoryRead.within_readAt, MemoryRead.within_readRange, MemoryRead.result_readRange,
    DecoderInput.memory_length h12, false_or]
  by_cases hbody : input.length < host.sizeAdd sizeofPacketHeader input.header.length.toNat
  · -- The payload is not read, and the sum can only be above the length if it has not wrapped.
    simp only [hbody, if_true, MemoryRead.within_pure, and_true]
    omega
  · -- The payload is read, up to its announced end.
    simp only [hbody, if_false, MemoryRead.within_bind, MemoryRead.within_readRange,
      MemoryRead.within_pure, and_true]
    omega

/-- A decoder that stays inside the input computes `deserialize` of the bytes of the input. -/
theorem result_of_countsItsFrame (hcounts : CountsItsFrame input) :
    (packet.deserializeReads host input.length).result input.memory =
      packet.deserialize host input.bytes input.length := by
  unfold deserializeReads
  by_cases hshort : input.length < sizeofPacketHeader
  · rw [if_pos hshort, deserialize_of_header (.inl hshort), MemoryRead.result_pure]
  have h12 : sizeofPacketHeader ≤ input.length := not_lt.mp hshort
  rw [if_neg hshort, MemoryRead.result_bind, MemoryRead.result_readAt,
    DecoderInput.memory_version h12]
  by_cases hother : input.header.version ≠ protocolVersion
  · rw [if_pos hother, deserialize_of_header (.inr hother), MemoryRead.result_pure]
  rw [if_neg hother]
  simp only [MemoryRead.result_bind, MemoryRead.result_readAt, MemoryRead.result_readRange,
    DecoderInput.memory_type h12, DecoderInput.memory_length h12,
    DecoderInput.memory_sequence h12]
  by_cases hbody : input.length < host.sizeAdd sizeofPacketHeader input.header.length.toNat
  · rw [if_pos hbody, deserialize_of_body hshort (not_not.mp hother) hbody]
    rfl
  · have hfits := (hcounts.resolve_left hshort).resolve_left hother
    have hcases := sizeAdd_header_cases host input.header.length
    have hwhole : sizeofPacketHeader + input.header.length.toNat ≤ input.length := by omega
    rw [if_neg hbody, deserialize_of_whole hshort (not_not.mp hother) hbody,
      MemoryRead.result_bind, MemoryRead.result_readRange, MemoryRead.result_pure,
      map_range'_eq_take_drop input.memory hwhole]
    rfl

/-- **Reads inside the input.** For every memory, every length and either width of `size_t`, all
that `deserialize` reads is below the length, and a frame that it accepts is copied as announced
from inside the input, if and only if the header is rejected or the size of the frame that it
announces does not wrap around. -/
theorem reads_inside_iff (host : Host) (packet : Packet) (input : DecoderInput host) :
    packet.ReadsInside input ↔ CountsItsFrame input := by
  unfold ReadsInside
  constructor
  · rintro ⟨hwithin, -⟩
    exact within_iff.mp hwithin
  · intro hcounts
    refine ⟨within_iff.mpr hcounts, ?_⟩
    rw [result_of_countsItsFrame hcounts]
    intro haccepted
    obtain ⟨hshort, hversion, hbody, hresult⟩ := deserialize_eq_true (Prod.ext haccepted rfl)
    have hfits := (hcounts.resolve_left (not_lt.mpr hshort)).resolve_left (not_not.mpr hversion)
    have hcases := sizeAdd_header_cases host input.header.length
    have hwhole : sizeofPacketHeader + input.header.length.toNat ≤ input.length := by
      change host.sizeAdd sizeofPacketHeader input.header.length.toNat ≤ input.length at hbody
      omega
    exact ⟨hwhole, congrArg Packet.data hresult⟩

/-- Where `size_t` has 32 bits, a header that announces `2 ^ 32 - 1` bytes and comes alone. -/
def wrappingInput : DecoderInput ⟨.little, .bits32⟩ :=
  .ofBytes _ [1, 1, 0, 0, 255, 255, 255, 255, 0, 0, 0, 0] (by decide)

theorem wrapping_reads_outside :
    wrappingInput.bytes = [1, 1, 0, 0, 255, 255, 255, 255, 0, 0, 0, 0] ∧
      ¬ empty.ReadsInside wrappingInput := by
  refine ⟨DecoderInput.ofBytes_bytes _, ?_⟩
  rintro ⟨hwithin, -⟩
  have hcounts := within_iff.mp hwithin
  revert hcounts
  decide

end Packet

end LibuvNet
