import LibuvNet.Foundation.ByteOrder
import Mathlib.Logic.Function.Basic

/-!
# Packets and their wire form

The packet layer of `message.hpp`.  A host is described by what the layout of a header and the
arithmetic of the decoder depend on: its byte order and the width of its `size_t`.  `PacketType`
is an `enum class` over `uint8_t`, so it holds every byte and not only the seven named ones.  The
two padding bytes of the header object are memory the encoder never writes; they are an argument
of `serialize`.
-/

namespace LibuvNet

open Foundation

abbrev Bytes := List UInt8

/-- The width of `size_t`. -/
inductive SizeBits where
  | bits32
  | bits64
  deriving DecidableEq, Repr

/-- What a build of the library depends on. -/
structure Host where
  order : ByteOrder
  sizeBits : SizeBits
  deriving DecidableEq, Repr

namespace Host

/-- A 64-bit host of the given byte order. -/
def wide (order : ByteOrder) : Host := ⟨order, .bits64⟩

/-- One more than the largest `size_t`. -/
def sizeModulus (host : Host) : ℕ :=
  match host.sizeBits with
  | .bits32 => 2 ^ 32
  | .bits64 => 2 ^ 64

/-- Addition of two `size_t` values. -/
def sizeAdd (host : Host) (left right : ℕ) : ℕ := (left + right) % host.sizeModulus

end Host

/-- `enum class PacketType : uint8_t`. -/
structure PacketType where
  code : UInt8
  deriving DecidableEq, Repr

namespace PacketType

def text : PacketType := ⟨0⟩
def binary : PacketType := ⟨1⟩
def ping : PacketType := ⟨2⟩
def pong : PacketType := ⟨3⟩
def heartbeat : PacketType := ⟨4⟩
def json : PacketType := ⟨5⟩
def protobuf : PacketType := ⟨6⟩

end PacketType

/-- `PROTOCOL_VERSION`. -/
def protocolVersion : UInt8 := 1

/-- `HEARTBEAT_INTERVAL_MS`. -/
def heartbeatIntervalMs : ℕ := 30000

/-- `HEARTBEAT_TIMEOUT_MS`. -/
def heartbeatTimeoutMs : ℕ := 90000

/-- The members of `PacketHeader`. -/
structure PacketHeader where
  version : UInt8
  type : PacketType
  length : UInt32
  sequence : UInt32
  deriving DecidableEq, Repr

/-- The bytes at offsets 2 and 3 of a header object, which no member covers. -/
structure Padding where
  first : UInt8
  second : UInt8
  deriving DecidableEq, Repr

/-- `sizeof(PacketHeader)`: two bytes, two bytes of padding and two aligned 32-bit words. -/
def sizeofPacketHeader : ℕ := 12

namespace PacketHeader

/-- The header object as it lies in memory. -/
def bytes (order : ByteOrder) (padding : Padding) (header : PacketHeader) : Bytes :=
  [header.version, header.type.code, padding.first, padding.second] ++
    order.encodeWord header.length ++ order.encodeWord header.sequence

/-- `reinterpret_cast<const PacketHeader *>(data)`. -/
def view (order : ByteOrder) (data : Bytes) : PacketHeader where
  version := data.getD 0 0
  type := ⟨data.getD 1 0⟩
  length := order.decodeWord ((data.drop 4).take 4)
  sequence := order.decodeWord ((data.drop 8).take 4)

@[simp]
theorem bytes_length (order : ByteOrder) (padding : Padding) (header : PacketHeader) :
    (header.bytes order padding).length = sizeofPacketHeader := by
  simp [bytes, sizeofPacketHeader]

/-- Reading a header back gives its members, whatever the padding and the payload. -/
@[simp]
theorem view_bytes_append (order : ByteOrder) (padding : Padding) (header : PacketHeader)
    (payload : Bytes) : view order (header.bytes order padding ++ payload) = header := by
  have hlength : (order.encodeWord header.length).length = 4 := by simp
  have hsequence : (order.encodeWord header.sequence).length = 4 := by simp
  simp [view, bytes, List.drop_append, hlength, hsequence]

/-- A header is read from its twelve bytes alone. -/
theorem view_append (order : ByteOrder) {data : Bytes} (later : Bytes)
    (hlength : sizeofPacketHeader ≤ data.length) :
    view order (data ++ later) = view order data := by
  have h12 : 12 ≤ data.length := hlength
  have hword (start : ℕ) (hstart : start + 4 ≤ 12) :
      ((data ++ later).drop start).take 4 = (data.drop start).take 4 := by
    rw [List.drop_append_of_le_length (by omega),
      List.take_append_of_le_length (by rw [List.length_drop]; omega)]
  have hbyte (index : ℕ) (hindex : index < 12) :
      (data ++ later).getD index 0 = data.getD index 0 := by
    have hlt : index < data.length := by omega
    simp only [List.getD_eq_getElem?_getD, List.getElem?_append_left hlt]
  simp only [view, hword 4 (by decide), hword 8 (by decide), hbyte 0 (by decide),
    hbyte 1 (by decide)]

end PacketHeader

/-- `class Packet`. -/
structure Packet where
  type : PacketType
  data : Bytes
  sequence : UInt32
  deriving DecidableEq, Repr

namespace Packet

/-- `Packet()`. -/
def empty : Packet := ⟨.text, [], 0⟩

/-- The header `serialize` builds; the length is `static_cast<uint32_t>(data_.size())`. -/
def header (packet : Packet) : PacketHeader :=
  ⟨protocolVersion, packet.type, UInt32.ofNat packet.data.length, packet.sequence⟩

/-- `Packet::serialize`. -/
def serialize (host : Host) (padding : Padding) (packet : Packet) : Bytes :=
  packet.header.bytes host.order padding ++ packet.data

/-- `Packet::deserialize(data, length)`: the result and the packet after the call.  The type and
the sequence are assigned before the length of the payload is checked. -/
def deserialize (host : Host) (packet : Packet) (data : Bytes) (length : ℕ) : Bool × Packet :=
  if length < sizeofPacketHeader then (false, packet)
  else
    let header := PacketHeader.view host.order data
    if header.version ≠ protocolVersion then (false, packet)
    else
      let packet := { packet with type := header.type, sequence := header.sequence }
      let dataLength := header.length.toNat
      if length < host.sizeAdd sizeofPacketHeader dataLength then (false, packet)
      else (true, { packet with data := (data.drop sizeofPacketHeader).take dataLength })

@[simp]
theorem serialize_length (host : Host) (padding : Padding) (packet : Packet) :
    (packet.serialize host padding).length = sizeofPacketHeader + packet.data.length := by
  simp [serialize]

/-- A payload the length field can announce. -/
def Fits (packet : Packet) : Prop := packet.data.length < 2 ^ 32

instance (packet : Packet) : Decidable packet.Fits :=
  inferInstanceAs (Decidable (packet.data.length < 2 ^ 32))

theorem header_length_toNat {packet : Packet} (hfits : packet.Fits) :
    packet.header.length.toNat = packet.data.length := by
  rw [header, UInt32.toNat_ofNat', Nat.mod_eq_of_lt hfits]

end Packet

/-! ## Interceptors -/

/-- The exceptions the modelled code throws or catches.  All of them derive from
`std::exception`; `outOfRange` does not derive from `parseError`. -/
inductive Exn where
  | badAnyCast
  | parseError
  | outOfRange
  | typeError
  | user (code : ℕ)
  deriving DecidableEq, Repr

/-- A `std::any` over the values a program passes around. -/
abbrev StdAny (V : Type*) := Option V

/-- `class Interceptor`.  Its virtual functions return or throw. -/
structure Interceptor (V : Type*) where
  serialize : StdAny V → Except Exn Bytes
  deserialize : Bytes → Except Exn (StdAny V)
  getType : PacketType

/-- `class InterceptorManager`. -/
structure InterceptorManager (V : Type*) where
  interceptors : PacketType → Option (Interceptor V)

namespace InterceptorManager

variable {V : Type*} (manager : InterceptorManager V)

def empty : InterceptorManager V := ⟨fun _ ↦ none⟩

/-- `InterceptorManager::add_interceptor`. -/
def addInterceptor (interceptor : Interceptor V) : InterceptorManager V :=
  ⟨Function.update manager.interceptors interceptor.getType (some interceptor)⟩

/-- `InterceptorManager::get_interceptor`. -/
def getInterceptor (type : PacketType) : Option (Interceptor V) :=
  manager.interceptors type

@[simp]
theorem getInterceptor_addInterceptor (interceptor : Interceptor V) :
    (manager.addInterceptor interceptor).getInterceptor interceptor.getType = some interceptor := by
  simp [addInterceptor, getInterceptor]

end InterceptorManager

end LibuvNet
