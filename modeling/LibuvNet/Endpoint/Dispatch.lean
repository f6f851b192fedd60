import LibuvNet.Wire.Message
import LibuvNet.Foundation.FrameDecoder

/-!
# Handing a packet to its handler

`Client` and `Session` hold the same three tables: interceptors, packet handlers and an optional
default handler.  A `Program` is those tables together with what user code does when a handler is
called: an arbitrary change of the state it can reach, by an ordinary return or by an exception.
The receive buffer is not part of that state, so a handler of a `Program` cannot touch it.

The two endpoints treat one packet differently.  `Client` looks up every packet;
`Session::handle_packet` first takes a `HEARTBEAT` as a sign of life and stops there.
-/

namespace LibuvNet

open Foundation

/-- What an observer of an endpoint sees, in order. -/
inductive Obs (H : Type*) where
  | connected
  | received (chunk : Bytes)
  | decoded (packet : Packet)
  | invoked (handler : H) (packet : Packet)
  deriving DecidableEq

namespace Obs

variable {H : Type*}

/-- The packets decoded in a trace. -/
def decodedPackets (trace : List (Obs H)) : List Packet :=
  trace.filterMap fun
    | decoded packet => some packet
    | _ => none

/-- The handler invocations in a trace: which handler, which packet. -/
def invocations (trace : List (Obs H)) : List (H × Packet) :=
  trace.filterMap fun
    | invoked handler packet => some (handler, packet)
    | _ => none

@[simp]
theorem decodedPackets_append (first second : List (Obs H)) :
    decodedPackets (first ++ second) = decodedPackets first ++ decodedPackets second :=
  List.filterMap_append

@[simp]
theorem invocations_append (first second : List (Obs H)) :
    invocations (first ++ second) = invocations first ++ invocations second :=
  List.filterMap_append

theorem mem_invocations_flatMap {emits : Packet → List (Obs H)} {packets : List Packet}
    {call : H × Packet} :
    call ∈ invocations (packets.flatMap emits) ↔
      ∃ packet ∈ packets, call ∈ invocations (emits packet) := by
  simp only [invocations, List.filterMap_flatMap, List.mem_flatMap]

theorem decodedPackets_flatMap {emits : Packet → List (Obs H)}
    (hemits : ∀ packet, decodedPackets (emits packet) = [packet]) (packets : List Packet) :
    decodedPackets (packets.flatMap emits) = packets := by
  induction packets with
  | nil => rfl
  | cons packet packets ih =>
    calc decodedPackets ((packet :: packets).flatMap emits)
        = decodedPackets (emits packet) ++ decodedPackets (packets.flatMap emits) := by
          rw [List.flatMap_cons, decodedPackets_append]
      _ = packet :: packets := by rw [hemits, ih, List.singleton_append]

end Obs

/-- The tables of an endpoint and the effect of running user code on the state it can reach.
`heartbeat` is `last_heartbeat_time_ = std::chrono::steady_clock::now()`. -/
structure Program (σ V H : Type*) where
  interceptorManager : InterceptorManager V
  packetHandlers : PacketType → Option H
  defaultPacketHandler : Option H
  heartbeat : σ → σ
  invoke : H → Packet → σ → Outcome Exn σ

/-- All of an endpoint that dispatch can change, and its trace. -/
structure Endpoint (σ H : Type*) where
  state : σ
  trace : List (Obs H)
  deriving DecidableEq

namespace Endpoint

variable {σ H : Type*}

def observe (endpoint : Endpoint σ H) (obs : Obs H) : Endpoint σ H :=
  { endpoint with trace := endpoint.trace ++ [obs] }

end Endpoint

namespace Program

variable {σ V H : Type*} (program : Program σ V H)

/-- The handler registered for a type, else the default handler, else none. -/
def findHandler (type : PacketType) : Option H :=
  match program.packetHandlers type with
  | some handler => some handler
  | none => program.defaultPacketHandler

/-- Ask the interceptor of the packet's type, if there is one, and look the handler up unless it
finds no value in the payload. -/
def intercept (packet : Packet) : Except Exn (Option H) :=
  match program.interceptorManager.getInterceptor packet.type with
  | some interceptor =>
    match interceptor.deserialize packet.data with
    | .error error => .error error
    | .ok data => .ok (if data.isSome then program.findHandler packet.type else none)
  | none => .ok (program.findHandler packet.type)

/-- Call a handler and record the invocation. -/
def callHandler (handler : H) (packet : Packet) (endpoint : Endpoint σ H) :
    Outcome Exn (Endpoint σ H) :=
  (program.invoke handler packet endpoint.state).map fun state ↦
    { state := state, trace := endpoint.trace ++ [.invoked handler packet] }

/-- Call a handler, if one was found. -/
def call (handler : Option H) (packet : Packet) (endpoint : Endpoint σ H) :
    Outcome Exn (Endpoint σ H) :=
  match handler with
  | none => .returned endpoint
  | some handler => program.callHandler handler packet endpoint

/-- Calling the handler of a type, or else the default handler, is calling the one found. -/
theorem call_findHandler (packet : Packet) (endpoint : Endpoint σ H) :
    program.call (program.findHandler packet.type) packet endpoint =
      match program.packetHandlers packet.type with
      | some handler => program.callHandler handler packet endpoint
      | none =>
        match program.defaultPacketHandler with
        | some handler => program.callHandler handler packet endpoint
        | none => .returned endpoint := by
  unfold findHandler
  cases program.packetHandlers packet.type with
  | some handler => rfl
  | none => cases program.defaultPacketHandler <;> rfl

/-- Asking the interceptor, and then calling the handler found, one case after the other. -/
theorem call_intercept (packet : Packet) (endpoint : Endpoint σ H) :
    (match program.intercept packet with
      | .error error => .threw error endpoint
      | .ok handler => program.call handler packet endpoint : Outcome Exn (Endpoint σ H)) =
      match program.interceptorManager.getInterceptor packet.type with
      | some interceptor =>
        match interceptor.deserialize packet.data with
        | .error error => .threw error endpoint
        | .ok data =>
          if data.isSome then
            match program.packetHandlers packet.type with
            | some handler => program.callHandler handler packet endpoint
            | none =>
              match program.defaultPacketHandler with
              | some handler => program.callHandler handler packet endpoint
              | none => .returned endpoint
          else .returned endpoint
      | none =>
        match program.packetHandlers packet.type with
        | some handler => program.callHandler handler packet endpoint
        | none =>
          match program.defaultPacketHandler with
          | some handler => program.callHandler handler packet endpoint
          | none => .returned endpoint := by
  unfold intercept
  cases program.interceptorManager.getInterceptor packet.type with
  | none => exact program.call_findHandler packet endpoint
  | some interceptor =>
    cases hdata : interceptor.deserialize packet.data with
    | error error => simp only [hdata]
    | ok data =>
      simp only [hdata]
      cases data with
      | none => rfl
      | some value => exact program.call_findHandler packet endpoint

/-- What `intercept` and `call` add to the trace when they return. -/
def invoked (packet : Packet) : List (Obs H) :=
  match program.intercept packet with
  | .ok (some handler) => [.invoked handler packet]
  | _ => []

/-- The packet meets no exception: its interceptor returns, and so does its handler. -/
def Returns (packet : Packet) : Prop :=
  ∃ handler, program.intercept packet = .ok handler ∧
    ∀ found ∈ handler, ∀ state, ∃ next, program.invoke found packet state = .returned next

@[simp]
theorem decodedPackets_invoked (packet : Packet) :
    Obs.decodedPackets (program.invoked packet) = [] := by
  unfold invoked
  split <;> rfl

/-- A handler is called with the packet being dispatched. -/
theorem packet_of_mem_invoked {packet : Packet} {call : H × Packet}
    (hcall : call ∈ Obs.invocations (program.invoked packet)) : call.2 = packet := by
  unfold invoked at hcall
  split at hcall
  · rw [List.mem_singleton.mp hcall]
  · cases hcall

theorem call_returned {handler : Option H} {packet : Packet} {endpoint next : Endpoint σ H}
    (hintercept : program.intercept packet = .ok handler)
    (hcall : program.call handler packet endpoint = .returned next) :
    next.trace = endpoint.trace ++ program.invoked packet := by
  cases handler with
  | none =>
    cases hcall
    simp [invoked, hintercept]
  | some handler =>
    obtain ⟨state, -, rfl⟩ := Outcome.map_eq_returned hcall
    simp [invoked, hintercept]

/-- A call that returns leaves the state alone or is what user code makes of it. -/
theorem call_state {handler : Option H} {packet : Packet} {endpoint next : Endpoint σ H}
    (hcall : program.call handler packet endpoint = .returned next) :
    next.state = endpoint.state ∨
      ∃ found, program.invoke found packet endpoint.state = .returned next.state := by
  cases handler with
  | none =>
    cases hcall
    exact .inl rfl
  | some handler =>
    obtain ⟨state, hinvoke, rfl⟩ := Outcome.map_eq_returned hcall
    exact .inr ⟨handler, hinvoke⟩

theorem call_returns {handler : Option H} {packet : Packet}
    (hreturns : ∀ found ∈ handler, ∀ state, ∃ next,
      program.invoke found packet state = .returned next)
    (endpoint : Endpoint σ H) :
    ∃ next, program.call handler packet endpoint = .returned next := by
  cases handler with
  | none => exact ⟨endpoint, rfl⟩
  | some handler =>
    obtain ⟨next, hnext⟩ := hreturns handler rfl endpoint.state
    exact ⟨_, by rw [call, callHandler, hnext]; rfl⟩

/-- A program without interceptors whose default handler does nothing. -/
def silent : Program Unit Unit Unit where
  interceptorManager := .empty
  packetHandlers _ := none
  defaultPacketHandler := some ()
  heartbeat state := state
  invoke _ _ state := .returned state

theorem silent_returns (packet : Packet) : silent.Returns packet :=
  ⟨some (), rfl, fun _ _ state ↦ ⟨state, rfl⟩⟩

end Program

namespace Client

variable {σ V H : Type*} (program : Program σ V H)

/-- The part of `Client::append_to_buffer` between parsing a packet and erasing its bytes. -/
def dispatch (packet : Packet) (endpoint : Endpoint σ H) : Outcome Exn (Endpoint σ H) :=
  let endpoint := endpoint.observe (.decoded packet)
  match program.interceptorManager.getInterceptor packet.type with
  | some interceptor =>
    match interceptor.deserialize packet.data with
    | .error error => .threw error endpoint
    | .ok data =>
      if data.isSome then
        match program.packetHandlers packet.type with
        | some handler => program.callHandler handler packet endpoint
        | none =>
          match program.defaultPacketHandler with
          | some handler => program.callHandler handler packet endpoint
          | none => .returned endpoint
      else .returned endpoint
  | none =>
    match program.packetHandlers packet.type with
    | some handler => program.callHandler handler packet endpoint
    | none =>
      match program.defaultPacketHandler with
      | some handler => program.callHandler handler packet endpoint
      | none => .returned endpoint

/-- It is to look for a handler and to call what was found. -/
theorem dispatch_eq (packet : Packet) (endpoint : Endpoint σ H) :
    dispatch program packet endpoint =
      match program.intercept packet with
      | .error error => .threw error (endpoint.observe (.decoded packet))
      | .ok handler => program.call handler packet (endpoint.observe (.decoded packet)) :=
  (program.call_intercept packet _).symm

/-- What dispatching a packet adds to the trace of a client. -/
def emits (packet : Packet) : List (Obs H) :=
  .decoded packet :: program.invoked packet

theorem decodedPackets_emits (packet : Packet) :
    Obs.decodedPackets (emits program packet) = [packet] := by
  change packet :: Obs.decodedPackets (program.invoked packet) = [packet]
  rw [Program.decodedPackets_invoked]

@[simp]
theorem invocations_emits (packet : Packet) :
    Obs.invocations (emits program packet) = Obs.invocations (program.invoked packet) := rfl

theorem dispatch_returned {packet : Packet} {endpoint next : Endpoint σ H}
    (hdispatch : dispatch program packet endpoint = .returned next) :
    next.trace = endpoint.trace ++ emits program packet := by
  rw [dispatch_eq] at hdispatch
  cases hintercept : program.intercept packet with
  | error error => simp [hintercept] at hdispatch
  | ok handler =>
    simp only [hintercept] at hdispatch
    rw [program.call_returned hintercept hdispatch]
    simp [Endpoint.observe, emits]

theorem dispatch_state {packet : Packet} {endpoint next : Endpoint σ H}
    (hdispatch : dispatch program packet endpoint = .returned next) :
    next.state = endpoint.state ∨
      ∃ found, program.invoke found packet endpoint.state = .returned next.state := by
  rw [dispatch_eq] at hdispatch
  cases hintercept : program.intercept packet with
  | error error => simp [hintercept] at hdispatch
  | ok handler =>
    simp only [hintercept] at hdispatch
    have hcall := program.call_state hdispatch
    exact hcall

theorem dispatch_returns {packet : Packet} (hreturns : program.Returns packet)
    (endpoint : Endpoint σ H) :
    ∃ next, dispatch program packet endpoint = .returned next := by
  obtain ⟨handler, hintercept, hhandler⟩ := hreturns
  rw [dispatch_eq, hintercept]
  exact program.call_returns hhandler _

end Client

namespace Session

variable {σ V H : Type*} (program : Program σ V H)

/-- `Session::handle_packet`. -/
def handlePacket (packet : Packet) (endpoint : Endpoint σ H) : Outcome Exn (Endpoint σ H) :=
  let endpoint := endpoint.observe (.decoded packet)
  if packet.type = .heartbeat then
    .returned { endpoint with state := program.heartbeat endpoint.state }
  else
    match program.interceptorManager.getInterceptor packet.type with
    | some interceptor =>
      match interceptor.deserialize packet.data with
      | .error error => .threw error endpoint
      | .ok data =>
        if data.isSome then
          match program.packetHandlers packet.type with
          | some handler => program.callHandler handler packet endpoint
          | none =>
            match program.defaultPacketHandler with
            | some handler => program.callHandler handler packet endpoint
            | none => .returned endpoint
        else .returned endpoint
    | none =>
      match program.packetHandlers packet.type with
      | some handler => program.callHandler handler packet endpoint
      | none =>
        match program.defaultPacketHandler with
        | some handler => program.callHandler handler packet endpoint
        | none => .returned endpoint

/-- What handling a packet adds to the trace of a session. -/
def emits (packet : Packet) : List (Obs H) :=
  if packet.type = .heartbeat then [.decoded packet]
  else .decoded packet :: program.invoked packet

theorem decodedPackets_emits (packet : Packet) :
    Obs.decodedPackets (emits program packet) = [packet] := by
  unfold emits
  split
  · rfl
  · exact Client.decodedPackets_emits program packet

theorem emits_of_ne {packet : Packet} (htype : packet.type ≠ .heartbeat) :
    emits program packet = Client.emits program packet :=
  if_neg htype

theorem packet_of_mem_emits {packet : Packet} {call : H × Packet}
    (hcall : call ∈ Obs.invocations (emits program packet)) : call.2 = packet := by
  unfold emits at hcall
  split at hcall
  · cases hcall
  · exact program.packet_of_mem_invoked hcall

theorem handlePacket_of_heartbeat {packet : Packet} (htype : packet.type = .heartbeat)
    (endpoint : Endpoint σ H) :
    handlePacket program packet endpoint =
      .returned ⟨program.heartbeat endpoint.state, endpoint.trace ++ [.decoded packet]⟩ :=
  if_pos htype

/-- Away from `HEARTBEAT` the two endpoints dispatch alike. -/
theorem handlePacket_of_ne {packet : Packet} (htype : packet.type ≠ .heartbeat)
    (endpoint : Endpoint σ H) :
    handlePacket program packet endpoint = Client.dispatch program packet endpoint :=
  (if_neg htype).trans <|
    (program.call_intercept packet _).symm.trans (Client.dispatch_eq program packet endpoint).symm

theorem handlePacket_returned {packet : Packet} {endpoint next : Endpoint σ H}
    (hhandle : handlePacket program packet endpoint = .returned next) :
    next.trace = endpoint.trace ++ emits program packet := by
  by_cases htype : packet.type = .heartbeat
  · rw [handlePacket_of_heartbeat program htype] at hhandle
    cases hhandle
    rw [emits, if_pos htype]
  · rw [handlePacket_of_ne program htype] at hhandle
    rw [emits_of_ne program htype]
    exact Client.dispatch_returned program hhandle

theorem handlePacket_state {packet : Packet} {endpoint next : Endpoint σ H}
    (hhandle : handlePacket program packet endpoint = .returned next) :
    next.state = endpoint.state ∨ next.state = program.heartbeat endpoint.state ∨
      ∃ found, program.invoke found packet endpoint.state = .returned next.state := by
  by_cases htype : packet.type = .heartbeat
  · rw [handlePacket_of_heartbeat program htype] at hhandle
    cases hhandle
    exact .inr (.inl rfl)
  · rw [handlePacket_of_ne program htype] at hhandle
    exact (Client.dispatch_state program hhandle).imp_right .inr

theorem handlePacket_returns {packet : Packet}
    (hreturns : packet.type ≠ .heartbeat → program.Returns packet) (endpoint : Endpoint σ H) :
    ∃ next, handlePacket program packet endpoint = .returned next := by
  by_cases htype : packet.type = .heartbeat
  · exact ⟨_, handlePacket_of_heartbeat program htype endpoint⟩
  · rw [handlePacket_of_ne program htype]
    exact Client.dispatch_returns program (hreturns htype) endpoint

end Session

end LibuvNet
