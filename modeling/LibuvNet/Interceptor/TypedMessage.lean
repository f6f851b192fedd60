import LibuvNet.Interceptor.Json
import LibuvNet.Uv.Handle

/-!
# Typed messages from end to end

`send_data` serializes a value with the interceptor of a packet type and sends the bytes in a
packet of that type; the receiver's interceptor is meant to turn them back into the value before
the handler is called.  With `JsonInterceptor` it does.  `ProtobufInterceptor` looks every message
up under the name of the C++ base class, which names no compiled message type, and so finds no
value in any payload.
-/

namespace LibuvNet

open Foundation

/-- The calls of the protobuf runtime the library makes.  `serializeToString` is `none` where
`SerializeToString` returns false, and `parseFromString` covers the creation of a message for a
descriptor together with `ParseFromString`. -/
structure ProtobufLibrary (M D : Type*) where
  serializeToString : M → Option Bytes
  findMessageTypeByName : String → Option D
  parseFromString : D → Bytes → Except Exn (Option M)

/-- `DescriptorPool::generated_pool()` finds only the message types compiled into the program. -/
def ProtobufLibrary.FindsCompiled {M D : Type*} (library : ProtobufLibrary M D)
    (compiled : Set String) : Prop :=
  ∀ name, (library.findMessageTypeByName name).isSome → name ∈ compiled

namespace ProtobufInterceptor

variable {J M D : Type*} (library : ProtobufLibrary M D)

/-- `ProtobufInterceptor::serialize`: a message that does not serialize and a value of another
type both give an empty payload. -/
def serialize (data : StdAny (Payload J M)) : Except Exn Bytes :=
  match data with
  | some (.message value) => .ok ((library.serializeToString value).getD [])
  | _ => .ok []

/-- `ProtobufInterceptor::deserialize`: every `std::exception` is caught. -/
def deserialize (data : Bytes) : Except Exn (StdAny (Payload J M)) :=
  match library.findMessageTypeByName "google.protobuf.Message" with
  | none => .ok none
  | some descriptor =>
    match library.parseFromString descriptor data with
    | .ok (some value) => .ok (some (.message value))
    | .ok none => .ok none
    | .error _ => .ok none

theorem deserialize_eq_none {compiled : Set String} (hfind : library.FindsCompiled compiled)
    (hbase : "google.protobuf.Message" ∉ compiled) (data : Bytes) :
    (deserialize library data : Except Exn (StdAny (Payload J M))) = .ok none := by
  have hnone : library.findMessageTypeByName "google.protobuf.Message" = none := by
    rw [← Option.not_isSome_iff_eq_none]
    exact fun hsome ↦ hbase (hfind _ hsome)
  rw [deserialize, hnone]

end ProtobufInterceptor

/-- `class ProtobufInterceptor`. -/
def protobufInterceptor (J : Type*) {M D : Type*} (library : ProtobufLibrary M D) :
    Interceptor (Payload J M) where
  serialize := ProtobufInterceptor.serialize library
  deserialize := ProtobufInterceptor.deserialize library
  getType := .protobuf

/-- `send_data`: the packet handed to `send`, if the type has an interceptor. -/
def sendData {V : Type*} (manager : InterceptorManager V) (type : PacketType) (data : V) :
    Except Exn (Option Packet) :=
  match manager.getInterceptor type with
  | none => .ok none
  | some interceptor =>
    match interceptor.serialize (some data) with
    | .ok serializedData => .ok (some ⟨type, serializedData, 0⟩)
    | .error error => .error error

/-- The two formats the library has an interceptor for. -/
inductive Format where
  | json
  | protobuf
  deriving DecidableEq, Repr

namespace Format

variable {J M D : Type*} (json : JsonLibrary J) (protobuf : ProtobufLibrary M D)

def type : Format → PacketType
  | .json => .json
  | .protobuf => .protobuf

def interceptor : Format → Interceptor (Payload J M)
  | .json => jsonInterceptor M json
  | .protobuf => protobufInterceptor J protobuf

/-- The library of the format serializes the value without error. -/
inductive Serializes : Format → Payload J M → Bytes → Prop
  | json {value : J} {bytes : Bytes} (hdump : json.dump value = .ok bytes) :
      Serializes .json (.json value) bytes
  | protobuf {value : M} {bytes : Bytes}
      (hserialize : protobuf.serializeToString value = some bytes) :
      Serializes .protobuf (.message value) bytes

theorem type_ne_heartbeat (format : Format) : format.type ≠ .heartbeat := by
  cases format <;> decide

theorem sendData_eq {json : JsonLibrary J} {protobuf : ProtobufLibrary M D} {format : Format}
    {manager : InterceptorManager (Payload J M)}
    (hinstalled : manager.getInterceptor format.type = some (format.interceptor json protobuf))
    {value : Payload J M} {bytes : Bytes}
    (hserializes : Serializes json protobuf format value bytes) :
    sendData manager format.type value = .ok (some ⟨format.type, bytes, 0⟩) := by
  rw [sendData, hinstalled]
  cases hserializes with
  | json hdump => simp [interceptor, jsonInterceptor, JsonInterceptor.serialize, hdump]
  | protobuf hserialize =>
    simp [interceptor, protobufInterceptor, ProtobufInterceptor.serialize, hserialize]

end Format

variable {σ J M D V H : Type*}

/-- The value arrives: `send_data` sends a packet, the receiver's interceptor finds the value in
it, and for every way of cutting what `send` hands to `uv_write` the handler is called once, with
that packet. -/
def SurvivesTrip (order : ByteOrder) (feed : List Bytes → Receiver σ H → Outcome Exn (Receiver σ H))
    (interceptor : Interceptor V) (sent : Except Exn (Option Packet)) (value : V) (bytes : Bytes)
    (handler : H) (endpoint : Endpoint σ H) (padding : Padding) : Prop :=
  ∃ packet, sent = .ok (some packet) ∧ packet.data = bytes ∧
    interceptor.deserialize packet.data = .ok (some value) ∧
    ∀ chunks : List Bytes, chunks.flatten = uvBufInit (packet.serialize (.wide order) padding) →
      ∃ next, feed chunks ⟨endpoint, []⟩ = .returned next ∧
        Obs.invocations next.trace = Obs.invocations endpoint.trace ++ [(handler, packet)]

theorem not_survivesTrip_of_none {order : ByteOrder}
    {feed : List Bytes → Receiver σ H → Outcome Exn (Receiver σ H)} {interceptor : Interceptor V}
    {sent : Except Exn (Option Packet)} {value : V} {bytes : Bytes} {handler : H}
    {endpoint : Endpoint σ H} {padding : Padding}
    (hnone : interceptor.deserialize bytes = .ok none) :
    ¬ SurvivesTrip order feed interceptor sent value bytes handler endpoint padding := by
  rintro ⟨packet, -, rfl, hdeserialize, -⟩
  cases hnone.symm.trans hdeserialize

namespace ReceiveLoop

variable {order : ByteOrder} {program : Program σ V H} (loop : ReceiveLoop (.wide order) program)

/-- A single serialized packet, cut anywhere, is dispatched once. -/
theorem feed_single {message : WirePacket} (hreturns : program.Returns message.packet)
    (endpoint : Endpoint σ H) {chunks : List Bytes}
    (hchunks : chunks.flatten = (wireCodec order).encode message) :
    ∃ next, loop.feed chunks ⟨endpoint, []⟩ = .returned next ∧
      next.trace = endpoint.trace ++ loop.emits message.packet := by
  have hpartial : (wireCodec order).Partial [] := by
    refine ⟨message, (wireCodec order).encode message, List.nil_append _, ?_⟩
    apply List.ne_nil_of_length_pos
    change 0 < (message.packet.serialize _ _).length
    rw [Packet.serialize_length]
    exact Nat.lt_add_right _ (by decide)
  have hdecode : (wireDecoder (.wide order)).decode chunks [] = ([message.packet], []) :=
    (wireCodec order).decode_stream [message] hpartial (by simpa using hchunks)
  obtain ⟨next, hnext⟩ : ∃ next, loop.feed chunks ⟨endpoint, []⟩ = .returned next := by
    apply loop.feed_returns
    intro packet hpacket
    rw [hdecode, List.mem_singleton] at hpacket
    rwa [hpacket]
  have htrace := (loop.feed_returned hnext).2
  rw [hdecode, List.flatMap_singleton] at htrace
  exact ⟨next, hnext, htrace⟩

/-- Every packet a receiver invokes a handler with came off the wire, with its whole frame. -/
theorem frameLength_le_of_invoked {endpoint : Endpoint σ H} {data : Bytes} {next : Receiver σ H}
    (hfeed : loop.feed [data] ⟨endpoint, []⟩ = .returned next) {handler : H} {packet : Packet}
    (hinvoked : Obs.invocations next.trace =
      Obs.invocations endpoint.trace ++ [(handler, packet)]) :
    packet.frameLength ≤ data.length := by
  have hdecode : ((wireDecoder (.wide order)).decode [data] []).1 =
      ((wireDecoder (.wide order)).parse data).values := List.append_nil _
  rw [(loop.feed_returned hfeed).2, hdecode, Obs.invocations_append,
    List.append_cancel_left_eq] at hinvoked
  have hcall : (handler, packet) ∈ Obs.invocations
      (((wireDecoder (.wide order)).parse data).values.flatMap loop.emits) := by
    rw [hinvoked]
    exact List.mem_singleton_self _
  obtain ⟨source, hsource, hemitted⟩ := Obs.mem_invocations_flatMap.mp hcall
  rw [show packet = source from loop.packet_of_mem_emits hemitted]
  exact frameLength_le_of_mem_parse hsource

end ReceiveLoop

section TypedMessages

variable {json : JsonLibrary J} {protobuf : ProtobufLibrary M D} {compiled : Set String}
  {program : Program σ (Payload J M) H} {format : Format} {value : Payload J M} {bytes : Bytes}

/-- A JSON value that its text parses back to is found in its payload. -/
theorem JsonInterceptor.deserialize_of_serializes
    (hserializes : Format.Serializes json protobuf .json value bytes)
    (hparse : ∀ found, value = .json found → json.parse bytes = .value found) :
    JsonInterceptor.deserialize json bytes = .ok (some value) := by
  cases hserializes with
  | json hdump => rw [JsonInterceptor.deserialize, hparse _ rfl]

theorem intercept_of_json_value
    (hinstalled : HasJsonInterceptor json program) {handler : H}
    (hhandler : program.packetHandlers .json = some handler)
    {found : J} (hparse : json.parse bytes = .value found) :
    program.intercept ⟨.json, bytes, 0⟩ = .ok (some handler) := by
  rw [intercept_json hinstalled rfl, hparse, Program.findHandler, hhandler]

namespace ReceiveLoop

variable {order : ByteOrder} (loop : ReceiveLoop (.wide order) program)

theorem survivesTrip_json (hinstalled : HasJsonInterceptor json program)
    (hemits : ∀ {packet : Packet}, packet.type ≠ .heartbeat →
      loop.emits packet = Client.emits program packet)
    {handler : H} (hhandler : program.packetHandlers .json = some handler)
    (hreturns : ∀ packet state, ∃ next, program.invoke handler packet state = .returned next)
    {sent : Except Exn (Option Packet)} (hsent : sent = .ok (some ⟨.json, bytes, 0⟩))
    (hserializes : Format.Serializes json protobuf .json value bytes)
    (hparse : ∀ found, value = .json found → json.parse bytes = .value found)
    (hshort : sizeofPacketHeader + bytes.length < 2 ^ 32) (endpoint : Endpoint σ H)
    (padding : Padding) :
    SurvivesTrip order loop.feed (jsonInterceptor M json) sent value bytes handler endpoint
      padding := by
  refine ⟨⟨.json, bytes, 0⟩, hsent, rfl,
    JsonInterceptor.deserialize_of_serializes hserializes hparse, fun chunks hchunks ↦ ?_⟩
  let message : WirePacket := ⟨⟨.json, bytes, 0⟩, padding, (Nat.le_add_left _ _).trans_lt hshort⟩
  have hwhole : uvBufInit (message.packet.serialize (.wide order) padding) =
      message.packet.serialize (.wide order) padding := by
    apply uvBufInit_of_lt
    rwa [Packet.serialize_length]
  obtain ⟨found, hfound⟩ : ∃ found, json.parse bytes = .value found := by
    cases hserializes with
    | json hdump => exact ⟨_, hparse _ rfl⟩
  have hintercept := intercept_of_json_value hinstalled hhandler hfound
  have hmessage : program.Returns message.packet := by
    refine ⟨some handler, hintercept, ?_⟩
    rintro _ ⟨⟩ state
    exact hreturns _ state
  obtain ⟨next, hnext, htrace⟩ := loop.feed_single hmessage endpoint (hchunks.trans hwhole)
  refine ⟨next, hnext, ?_⟩
  calc Obs.invocations next.trace
      = Obs.invocations endpoint.trace ++ Obs.invocations (loop.emits message.packet) := by
        rw [htrace, Obs.invocations_append]
    _ = Obs.invocations endpoint.trace ++ Obs.invocations (program.invoked message.packet) := by
        rw [hemits (Format.json.type_ne_heartbeat), Client.invocations_emits]
    _ = Obs.invocations endpoint.trace ++ [(handler, message.packet)] := by
        rw [Program.invoked, hintercept]
        rfl

theorem survivesTrip_iff (hfind : protobuf.FindsCompiled compiled)
    (hbase : "google.protobuf.Message" ∉ compiled)
    (hinstalled : program.interceptorManager.getInterceptor format.type =
      some (format.interceptor json protobuf))
    (hemits : ∀ {packet : Packet}, packet.type ≠ .heartbeat →
      loop.emits packet = Client.emits program packet)
    {handler : H} (hhandler : program.packetHandlers format.type = some handler)
    (hreturns : ∀ packet state, ∃ next, program.invoke handler packet state = .returned next)
    {sent : Except Exn (Option Packet)} (hsent : sent = .ok (some ⟨format.type, bytes, 0⟩))
    (hserializes : Format.Serializes json protobuf format value bytes)
    (hparse : ∀ found, value = .json found → json.parse bytes = .value found)
    (endpoint : Endpoint σ H) (padding : Padding) :
    SurvivesTrip order loop.feed (format.interceptor json protobuf) sent value bytes handler
        endpoint padding ↔
      format = .json ∧ sizeofPacketHeader + bytes.length < 2 ^ 32 := by
  constructor
  · intro hsurvives
    constructor
    · cases format with
      | json => rfl
      | protobuf =>
        have hnone : (protobufInterceptor J protobuf).deserialize bytes = .ok none :=
          ProtobufInterceptor.deserialize_eq_none protobuf hfind hbase bytes
        exact absurd hsurvives (not_survivesTrip_of_none hnone)
    · obtain ⟨packet, -, rfl, -, hfeed⟩ := hsurvives
      obtain ⟨next, hnext, hinvoked⟩ :=
        hfeed [uvBufInit (packet.serialize (.wide order) padding)] (by simp)
      have hframe := loop.frameLength_le_of_invoked hnext hinvoked
      rw [uvBufInit_length] at hframe
      exact hframe.trans_lt (Nat.mod_lt _ (by decide))
  · rintro ⟨rfl, hshort⟩
    exact loop.survivesTrip_json hinstalled hemits hhandler hreturns hsent hserializes hparse
      hshort endpoint padding

end ReceiveLoop

/-- **Typed messages.** A value that serializes arrives at a client and at a session with the
same interceptor if and only if it is a JSON value whose text, with a header, has fewer than
`2 ^ 32` bytes: no protobuf message arrives at all. -/
theorem typed_message_survives_iff (order : ByteOrder)
    (hfind : protobuf.FindsCompiled compiled) (hbase : "google.protobuf.Message" ∉ compiled)
    (sender : InterceptorManager (Payload J M))
    (hsender : sender.getInterceptor format.type = some (format.interceptor json protobuf))
    (hreceiver : program.interceptorManager.getInterceptor format.type =
      some (format.interceptor json protobuf))
    (handler : H) (hhandler : program.packetHandlers format.type = some handler)
    (hreturns : ∀ packet state, ∃ next, program.invoke handler packet state = .returned next)
    (hserializes : Format.Serializes json protobuf format value bytes)
    (hparse : ∀ found, value = .json found → json.parse bytes = .value found)
    (endpoint : Endpoint σ H) (padding : Padding) :
    (SurvivesTrip order (Client.feed (.wide order) program) (format.interceptor json protobuf)
        (sendData sender format.type value) value bytes handler endpoint padding ↔
      format = .json ∧ sizeofPacketHeader + bytes.length < 2 ^ 32) ∧
    (SurvivesTrip order (Session.feed (.wide order) program) (format.interceptor json protobuf)
        (sendData sender format.type value) value bytes handler endpoint padding ↔
      format = .json ∧ sizeofPacketHeader + bytes.length < 2 ^ 32) := by
  have hsent := Format.sendData_eq hsender hserializes
  constructor
  · exact (Client.receiveLoop (.wide order) program).survivesTrip_iff hfind hbase hreceiver
      (fun _ ↦ rfl) hhandler hreturns hsent hserializes hparse endpoint padding
  · exact (Session.receiveLoop (.wide order) program).survivesTrip_iff hfind hbase hreceiver
      (Session.emits_of_ne program) hhandler hreturns hsent hserializes hparse endpoint padding

end TypedMessages

/-! ## A program that exchanges flags -/

/-- A message type with one boolean field, compiled into the program. -/
def ProtobufLibrary.flags : ProtobufLibrary Bool Unit where
  serializeToString
    | true => some [8, 1]
    | false => some []
  findMessageTypeByName name := if name = "flags.Flag" then some () else none
  parseFromString _ text :=
    if text = [8, 1] then .ok (some true)
    else if text = [] then .ok (some false)
    else .ok none

theorem ProtobufLibrary.flags_findsCompiled :
    ProtobufLibrary.flags.FindsCompiled {"flags.Flag"} := by
  intro name hname
  by_contra hne
  rw [Set.mem_singleton_iff] at hne
  simp [flags, hne] at hname

theorem base_not_flags : "google.protobuf.Message" ∉ ({"flags.Flag"} : Set String) := by
  rw [Set.mem_singleton_iff]
  decide

/-- A program with both interceptors and a handler for both types. -/
def typedProgram : Program Unit (Payload Bool Bool) Unit where
  interceptorManager :=
    (InterceptorManager.empty.addInterceptor (jsonInterceptor Bool JsonLibrary.booleans)
      ).addInterceptor (protobufInterceptor Bool ProtobufLibrary.flags)
  packetHandlers type := if type = .json ∨ type = .protobuf then some () else none
  defaultPacketHandler := none
  heartbeat state := state
  invoke _ _ state := .returned state

theorem typedProgram_getInterceptor (format : Format) :
    typedProgram.interceptorManager.getInterceptor format.type =
      some (format.interceptor JsonLibrary.booleans ProtobufLibrary.flags) := by
  cases format with
  | json => rfl
  | protobuf => exact InterceptorManager.getInterceptor_addInterceptor _ _

theorem typed_message_survives_iff_true :
    (SurvivesTrip .little (Client.feed (.wide .little) typedProgram)
        (Format.json.interceptor JsonLibrary.booleans ProtobufLibrary.flags)
        (sendData typedProgram.interceptorManager Format.json.type (.json true)) (.json true)
        [116, 114, 117, 101] () ⟨(), []⟩ ⟨0, 0⟩ ↔
      Format.json = .json ∧ sizeofPacketHeader + ([116, 114, 117, 101] : Bytes).length < 2 ^ 32) ∧
    (SurvivesTrip .little (Session.feed (.wide .little) typedProgram)
        (Format.json.interceptor JsonLibrary.booleans ProtobufLibrary.flags)
        (sendData typedProgram.interceptorManager Format.json.type (.json true)) (.json true)
        [116, 114, 117, 101] () ⟨(), []⟩ ⟨0, 0⟩ ↔
      Format.json = .json ∧ sizeofPacketHeader + ([116, 114, 117, 101] : Bytes).length < 2 ^ 32) :=
  typed_message_survives_iff .little ProtobufLibrary.flags_findsCompiled base_not_flags
    typedProgram.interceptorManager (typedProgram_getInterceptor .json)
    (typedProgram_getInterceptor .json) () rfl (fun _ state ↦ ⟨state, rfl⟩) (.json rfl)
    (by rintro _ ⟨⟩; rfl) ⟨(), []⟩ ⟨0, 0⟩

/-- A flag that serializes and is sent does not arrive. -/
theorem protobuf_message_lost :
    ¬ SurvivesTrip .little (Client.feed (.wide .little) typedProgram)
        (Format.protobuf.interceptor JsonLibrary.booleans ProtobufLibrary.flags)
        (sendData typedProgram.interceptorManager Format.protobuf.type (.message true))
        (.message true) [8, 1] () ⟨(), []⟩ ⟨0, 0⟩ ∧
      ¬ SurvivesTrip .little (Session.feed (.wide .little) typedProgram)
        (Format.protobuf.interceptor JsonLibrary.booleans ProtobufLibrary.flags)
        (sendData typedProgram.interceptorManager Format.protobuf.type (.message true))
        (.message true) [8, 1] () ⟨(), []⟩ ⟨0, 0⟩ := by
  have hnone : (protobufInterceptor Bool ProtobufLibrary.flags).deserialize [8, 1] = .ok none :=
    ProtobufInterceptor.deserialize_eq_none ProtobufLibrary.flags
      ProtobufLibrary.flags_findsCompiled base_not_flags [8, 1]
  exact ⟨not_survivesTrip_of_none hnone, not_survivesTrip_of_none hnone⟩

end LibuvNet
