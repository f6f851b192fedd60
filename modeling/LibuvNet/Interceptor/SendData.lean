import LibuvNet.Interceptor.TypedMessage
import LibuvNet.Endpoint.Oversize

/-!
# Values that cannot be serialized

An interceptor of the library that cannot serialize a value returns an empty payload, as it does
for a message with an empty encoding.  `send_data` makes a packet of what it gets and sends it, so
a value that cannot be serialized is sent as an empty packet wherever there is a connection to send
it on, and one whose frame is too long for a `uv_buf_t` is cut short.  A receiver, which finds no
value in a payload it cannot read, asks before it goes on.
-/

namespace LibuvNet

open Foundation

variable {J M D U : Type*}

/-- An interceptor that can be installed: one of the library, or one of the user's own. -/
inductive Installed (J M : Type*) where
  | library (format : Format)
  | user (interceptor : Interceptor (Payload J M))

namespace Installed

variable (json : JsonLibrary J) (protobuf : ProtobufLibrary M D)

def interceptor : Installed J M → Interceptor (Payload J M)
  | library format => format.interceptor json protobuf
  | user interceptor => interceptor

/-- The interceptor has serialized the value to these bytes.  What an interceptor of the user
returns it has produced; one that cannot throws. -/
inductive Produces : Installed J M → Payload J M → Bytes → Prop
  | library {format : Format} {value : Payload J M} {bytes : Bytes}
      (hserializes : Format.Serializes json protobuf format value bytes) :
      Produces (.library format) value bytes
  | user {interceptor : Interceptor (Payload J M)} {value : Payload J M} {bytes : Bytes}
      (hserialize : interceptor.serialize (some value) = .ok bytes) :
      Produces (.user interceptor) value bytes

/-- A value of another type than the format is for, or a message that `SerializeToString` gives
up on. -/
def CannotSerialize : Installed J M → Payload J M → Prop
  | .library .json, .json _ => False
  | .library .json, _ => True
  | .library .protobuf, .message value => protobuf.serializeToString value = none
  | .library .protobuf, _ => True
  | .user _, _ => False

/-- The interceptor serializes the value, to few enough bytes for one frame, or it throws. -/
def Sendable (installed : Installed J M) (value : Payload J M) : Prop :=
  ¬ installed.CannotSerialize protobuf value ∧
    ∀ bytes, (installed.interceptor json protobuf).serialize (some value) = .ok bytes →
      sizeofPacketHeader + bytes.length < 2 ^ 32

variable {json protobuf} {installed : Installed J M} {value : Payload J M}

/-- What cannot be serialized comes back as an empty payload. -/
theorem serialize_of_cannotSerialize (hcannot : installed.CannotSerialize protobuf value) :
    (installed.interceptor json protobuf).serialize (some value) = .ok [] := by
  match installed, value with
  | .library .json, .json _ => exact hcannot.elim
  | .library .json, .message _ => rfl
  | .library .json, .foreign => rfl
  | .library .protobuf, .message value =>
    change Except.ok ((protobuf.serializeToString value).getD []) = _
    rw [show protobuf.serializeToString value = none from hcannot]
    rfl
  | .library .protobuf, .json _ => rfl
  | .library .protobuf, .foreign => rfl
  | .user _, _ => exact hcannot.elim

theorem not_produces_of_cannotSerialize (hcannot : installed.CannotSerialize protobuf value)
    (bytes : Bytes) : ¬ installed.Produces json protobuf value bytes := by
  intro hproduces
  cases hproduces with
  | library hserializes =>
    cases hserializes with
    | json hdump => exact hcannot
    | protobuf hserialize => cases hserialize.symm.trans hcannot
  | user hserialize => exact hcannot

/-- What an interceptor returns it has produced, unless it cannot serialize the value. -/
theorem produces_of_serialize (hcan : ¬ installed.CannotSerialize protobuf value) {bytes : Bytes}
    (hserialize : (installed.interceptor json protobuf).serialize (some value) = .ok bytes) :
    installed.Produces json protobuf value bytes := by
  match installed, value with
  | .library .json, .json _ => exact .library (.json hserialize)
  | .library .json, .message _ => exact absurd trivial hcan
  | .library .json, .foreign => exact absurd trivial hcan
  | .library .protobuf, .message value =>
    obtain ⟨found, hfound⟩ := Option.ne_none_iff_exists'.mp hcan
    have hbytes : Except.ok ((protobuf.serializeToString value).getD []) = _ := hserialize
    rw [hfound, Option.getD_some, Except.ok.injEq] at hbytes
    exact .library (.protobuf (hfound.trans (congrArg some hbytes)))
  | .library .protobuf, .json _ => exact absurd trivial hcan
  | .library .protobuf, .foreign => exact absurd trivial hcan
  | .user _, _ => exact .user hserialize

/-- What was produced is what the interceptor returns. -/
theorem serialize_of_produces {bytes : Bytes}
    (hproduces : installed.Produces json protobuf value bytes) :
    (installed.interceptor json protobuf).serialize (some value) = .ok bytes := by
  cases hproduces with
  | library hserializes =>
    cases hserializes with
    | json hdump => exact hdump
    | protobuf hserialize =>
      change Except.ok ((protobuf.serializeToString _).getD []) = _
      rw [hserialize, Option.getD_some]
  | user hserialize => exact hserialize

end Installed

theorem Packet.serialize_drop (host : Host) (padding : Padding) (packet : Packet) :
    (packet.serialize host padding).drop sizeofPacketHeader = packet.data :=
  List.drop_left' (PacketHeader.bytes_length ..)

/-- `interceptor_manager_`, with what is installed for each type. -/
def managerOf (json : JsonLibrary J) (protobuf : ProtobufLibrary M D)
    (installed : PacketType → Option (Installed J M)) : InterceptorManager (Payload J M) :=
  ⟨fun type ↦ (installed type).map (Installed.interceptor json protobuf)⟩

/-- `Client::send_data`. -/
def Client.Core.sendData {V : Type*} (core : Client.Core U) (host : Host)
    (manager : InterceptorManager V) (type : PacketType) (data : V) (write : WriteCall) :
    Outcome Exn (Client.Core U) :=
  match LibuvNet.sendData manager type data with
  | .ok none => .returned core
  | .ok (some packet) => .returned (core.send host packet write)
  | .error error => .threw error core

/-- `Session::send_data`. -/
def Session.Core.sendData {V : Type*} (core : Session.Core) (host : Host)
    (manager : InterceptorManager V) (type : PacketType) (data : V) (write : WriteCall)
    (heap : Memory UInt8) : Outcome Exn (Memory UInt8 × Session.Core) :=
  match LibuvNet.sendData manager type data with
  | .ok none => .returned (heap, core)
  | .ok (some packet) => .returned (core.send host packet write heap)
  | .error error => .threw error (heap, core)

/-- Of the writes accepted before and after a call: a value that cannot be serialized adds none,
and what is handed over of every frame that is added carries what the interceptor has produced from
the value. -/
structure WritesProduced (json : JsonLibrary J) (protobuf : ProtobufLibrary M D)
    (installed : Option (Installed J M)) (value : Payload J M) (before after : List Bytes) :
    Prop where
  nothing : ∀ interceptor ∈ installed, interceptor.CannotSerialize protobuf value → after = before
  produced : ∃ added, after = before ++ added ∧ ∀ frame ∈ added, ∃ interceptor ∈ installed,
    interceptor.Produces json protobuf value ((uvBufInit frame).drop sizeofPacketHeader)

section Sending

variable {json : JsonLibrary J} {protobuf : ProtobufLibrary M D}
  {installed : PacketType → Option (Installed J M)} {type : PacketType} {value : Payload J M}

/-- Of a value that cannot be serialized nothing is produced. -/
theorem WritesProduced.of_produced {installed : Option (Installed J M)} {before after : List Bytes}
    (hproduced : ∃ added, after = before ++ added ∧ ∀ frame ∈ added, ∃ interceptor ∈ installed,
      interceptor.Produces json protobuf value ((uvBufInit frame).drop sizeofPacketHeader)) :
    WritesProduced json protobuf installed value before after where
  nothing := by
    intro interceptor hinstalled hcannot
    obtain ⟨added, rfl, hframes⟩ := hproduced
    cases added with
    | nil => exact List.append_nil before
    | cons frame added =>
      obtain ⟨found, hfound, hbytes⟩ := hframes frame List.mem_cons_self
      obtain rfl := Option.some.inj (hinstalled.symm.trans hfound)
      exact absurd hbytes (Installed.not_produces_of_cannotSerialize hcannot _)
  produced := hproduced

/-- The accepted writes after `send_data`, by what `send` makes of a packet. -/
def afterSendData (before : List Bytes) (send : Packet → List Bytes) :
    Except Exn (Option Packet) → List Bytes
  | .ok (some packet) => send packet
  | _ => before

theorem getInterceptor_managerOf :
    (managerOf json protobuf installed).getInterceptor type =
      (installed type).map (Installed.interceptor json protobuf) := rfl

theorem sendData_of_some {interceptor : Installed J M} (hsome : installed type = some interceptor) :
    sendData (managerOf json protobuf installed) type value =
      match (interceptor.interceptor json protobuf).serialize (some value) with
      | .ok bytes => .ok (some ⟨type, bytes, 0⟩)
      | .error error => .error error := by
  rw [sendData, getInterceptor_managerOf, hsome]
  rfl

theorem sendData_of_none (hnone : installed type = none) :
    sendData (managerOf json protobuf installed) type value = .ok none := by
  rw [sendData, getInterceptor_managerOf, hnone]
  rfl

/-- A frame that is handed over whole carries the payload. -/
theorem uvBufInit_serialize_drop {host : Host} {padding : Padding} {packet : Packet}
    (hlength : packet.frameLength < 2 ^ 32) :
    (uvBufInit (packet.serialize host padding)).drop sizeofPacketHeader = packet.data := by
  rw [uvBufInit_of_lt (by rwa [Packet.serialize_length]), Packet.serialize_drop]

/-- Of a frame that is not, less is handed over than the payload. -/
theorem frameLength_lt_of_drop {host : Host} {padding : Padding} {packet : Packet}
    (hdrop : (uvBufInit (packet.serialize host padding)).drop sizeofPacketHeader = packet.data) :
    packet.frameLength < 2 ^ 32 := by
  have hlength := congrArg List.length hdrop
  rw [List.length_drop, uvBufInit_length, Packet.serialize_length] at hlength
  have hlt := Nat.mod_lt (sizeofPacketHeader + packet.data.length) (Nat.two_pow_pos 32)
  unfold Packet.frameLength
  unfold sizeofPacketHeader at hlength hlt ⊢
  omega

/-- Nothing is sent, and all of it was produced. -/
theorem WritesProduced.refl (installed : Option (Installed J M)) (before : List Bytes) :
    WritesProduced json protobuf installed value before before :=
  .of_produced ⟨[], (List.append_nil _).symm, fun _ hframe ↦ absurd hframe List.not_mem_nil⟩

/-- A frame with what the interceptor returned carries it exactly when it is handed over whole. -/
theorem writesProduced_frame_iff {interceptor : Installed J M} {before : List Bytes} {host : Host}
    {padding : Padding} {packet : Packet} (hcan : ¬ interceptor.CannotSerialize protobuf value)
    (hserialize : (interceptor.interceptor json protobuf).serialize (some value) =
      .ok packet.data) :
    WritesProduced json protobuf (some interceptor) value before
        (before ++ [packet.serialize host padding]) ↔
      packet.frameLength < 2 ^ 32 := by
  constructor
  · rintro ⟨-, added, hadded, hframes⟩
    obtain rfl := List.append_cancel_left hadded
    obtain ⟨found, hfound, hcarried⟩ := hframes _ (List.mem_singleton_self _)
    obtain rfl := Option.some.inj hfound
    have hpayload := hserialize.symm.trans (Installed.serialize_of_produces hcarried)
    exact frameLength_lt_of_drop (Except.ok.inj hpayload).symm
  · intro hlength
    refine .of_produced ⟨_, rfl, fun frame hframe ↦ ⟨interceptor, rfl, ?_⟩⟩
    rw [List.mem_singleton.mp hframe, uvBufInit_serialize_drop hlength]
    exact Installed.produces_of_serialize hcan hserialize

/-- Where packets are sent, the interceptor decides. -/
theorem writesProduced_some_iff {interceptor : Installed J M} {before : List Bytes}
    {send : Packet → List Bytes} {host : Host} {padding : Padding}
    (hsome : installed type = some interceptor)
    (hsends : ∀ packet, send packet = before ++ [packet.serialize host padding]) :
    WritesProduced json protobuf (some interceptor) value before
        (afterSendData before send (sendData (managerOf json protobuf installed) type value)) ↔
      interceptor.Sendable json protobuf value := by
  rw [sendData_of_some hsome]
  by_cases hcannot : interceptor.CannotSerialize protobuf value
  · -- The empty payload is sent like any other.
    rw [Installed.serialize_of_cannotSerialize hcannot]
    simp only [afterSendData, hsends]
    refine iff_of_false (fun hproduced ↦ ?_) fun hsendable ↦ hsendable.1 hcannot
    have hsame := hproduced.nothing interceptor rfl hcannot
    exact List.cons_ne_nil _ _ (List.append_right_eq_self.mp hsame)
  unfold Installed.Sendable
  rw [and_iff_right hcannot]
  cases hserialize : (interceptor.interceptor json protobuf).serialize (some value) with
  | error error =>
    exact iff_of_true (.refl _ before) fun bytes hbytes ↦ nomatch hbytes
  | ok bytes =>
    simp only [afterSendData, hsends]
    rw [writesProduced_frame_iff hcannot hserialize]
    constructor
    · intro hlength found hfound
      exact Except.ok.inj hfound ▸ hlength
    · intro hshort
      exact hshort bytes rfl

/-- Whatever does the sending: nothing but what was produced is sent exactly when the value can be
serialized to one frame or nothing is sent at all. -/
theorem writesProduced_iff {before : List Bytes} {send : Packet → List Bytes} {host : Host}
    {padding : Padding} {sends : Prop}
    (hsends : sends → ∀ packet, send packet = before ++ [packet.serialize host padding])
    (hrefuses : ¬ sends → ∀ packet, send packet = before) :
    WritesProduced json protobuf (installed type) value before
        (afterSendData before send (sendData (managerOf json protobuf installed) type value)) ↔
      (∀ interceptor ∈ installed type, interceptor.Sendable json protobuf value) ∨ ¬ sends := by
  by_cases hopen : sends
  swap
  · have hafter (result : Except Exn (Option Packet)) :
        afterSendData before send result = before := by
      unfold afterSendData
      split
      · exact hrefuses hopen _
      · rfl
    rw [hafter]
    exact iff_of_true (.refl _ before) (.inr hopen)
  rw [or_iff_left (not_not.mpr hopen)]
  cases hinstalled : installed type with
  | none =>
    rw [sendData_of_none hinstalled]
    exact iff_of_true (.refl _ before) fun interceptor hfound ↦ nomatch hfound
  | some interceptor =>
    rw [writesProduced_some_iff hinstalled (hsends hopen)]
    simp only [Option.mem_some_iff, forall_eq']

theorem Client.Core.sendData_accepted {V : Type*} (core : Client.Core U) (host : Host)
    (manager : InterceptorManager V) (type : PacketType) (data : V) (write : WriteCall) :
    (core.sendData host manager type data write).last.socket.writer.accepted =
      afterSendData core.socket.writer.accepted
        (fun packet ↦ (core.send host packet write).socket.writer.accepted)
        (LibuvNet.sendData manager type data) := by
  unfold Client.Core.sendData
  rcases LibuvNet.sendData manager type data with error | ⟨_ | packet⟩ <;> rfl

theorem Session.Core.sendData_accepted {V : Type*} (core : Session.Core) (host : Host)
    (manager : InterceptorManager V) (type : PacketType) (data : V) (write : WriteCall)
    (heap : Memory UInt8) :
    (core.sendData host manager type data write heap).last.2.socket.writer.accepted =
      afterSendData core.socket.writer.accepted
        (fun packet ↦ (core.send host packet write heap).2.socket.writer.accepted)
        (LibuvNet.sendData manager type data) := by
  unfold Session.Core.sendData
  rcases LibuvNet.sendData manager type data with error | ⟨_ | packet⟩ <;> rfl

/-- **Nothing is sent of what cannot be serialized.** A call of `send_data` on a client and on a
session writes only what the interceptor of the type has produced from the value if and only if
there is none that cannot serialize the value to one frame, or nothing is written: the client is
not connected, the session is closing, or `uv_write` refuses. -/
theorem send_data_writes_produced_iff (host : Host) (json : JsonLibrary J)
    (protobuf : ProtobufLibrary M D) (installed : PacketType → Option (Installed J M))
    (type : PacketType) (value : Payload J M) (client : Client.Core U) (session : Session.Core)
    (write : WriteCall) (heap : Memory UInt8) :
    (WritesProduced json protobuf (installed type) value client.socket.writer.accepted
        (client.sendData host (managerOf json protobuf installed) type value
          write).last.socket.writer.accepted ↔
      (∀ interceptor ∈ installed type, interceptor.Sendable json protobuf value) ∨
        ¬ (client.isConnected = true ∧ write.result = 0)) ∧
    (WritesProduced json protobuf (installed type) value session.socket.writer.accepted
        (session.sendData host (managerOf json protobuf installed) type value write
          heap).last.2.socket.writer.accepted ↔
      (∀ interceptor ∈ installed type, interceptor.Sendable json protobuf value) ∨
        ¬ (session.isClosing = false ∧ write.result = 0)) := by
  constructor
  · rw [client.sendData_accepted]
    exact writesProduced_iff
      (fun hsends packet ↦ client.send_accepted host packet hsends.1 hsends.2)
      (fun hrefused packet ↦ client.send_refused host packet hrefused)
  · rw [session.sendData_accepted]
    exact writesProduced_iff
      (fun hsends packet ↦ session.send_accepted host packet heap hsends.1 hsends.2)
      (fun hrefused packet ↦ session.send_refused host packet heap hrefused)

end Sending

/-- A connected client with a `JsonInterceptor` sends a value that is no JSON as an empty packet. -/
theorem foreign_value_sent :
    let installed : PacketType → Option (Installed Bool Bool) := fun type ↦
      if type = .json then some (.library .json) else none
    let client : Client.Core Unit := { Client.Core.initial false false () with isConnected := true }
    (client.sendData (.wide .little) (managerOf .booleans .flags installed) .json .foreign
        ⟨0, ⟨0, 0⟩, 0, 0⟩).last.socket.writer.accepted =
      [[1, 5, 0, 0, 0, 0, 0, 0, 0, 0, 0, 0]] ∧
    ¬ WritesProduced .booleans .flags (installed .json) .foreign client.socket.writer.accepted
      (client.sendData (.wide .little) (managerOf .booleans .flags installed) .json .foreign
        ⟨0, ⟨0, 0⟩, 0, 0⟩).last.socket.writer.accepted := by
  refine ⟨by decide, fun hproduced ↦ ?_⟩
  have hnothing := hproduced.nothing (.library .json) rfl trivial
  revert hnothing
  decide

end LibuvNet
