import LibuvNet.Endpoint.Dispatch
import LibuvNet.Wire.Framing

/-!
# The receive loops

`Client::append_to_buffer` and `Session::append_to_buffer` with `Session::process_buffer`, each
written as its source is: the client computes the message size once and erases that many bytes,
the session tests for an empty buffer first and reads the header again before it erases.  Every
pass removes a header at least, so the length of the buffer bounds the passes and serves as fuel.

Both loops are the drain of the wire decoder by their own dispatch; everything said about
chunks, frames and traces follows from that.
-/

namespace LibuvNet

open Foundation

/-- An endpoint together with its receive buffer. -/
structure Receiver (σ H : Type*) extends Endpoint σ H where
  buffer : Bytes
  deriving DecidableEq

namespace Receiver

variable {σ H : Type*}

/-- The receiver of a drained buffer and the endpoint that drained it. -/
def ofPair (pair : Bytes × Endpoint σ H) : Receiver σ H := ⟨pair.2, pair.1⟩

/-- A receiver before its first byte. -/
def start (state : σ) : Receiver σ H := ⟨⟨state, []⟩, []⟩

end Receiver

variable {σ V H : Type*}

namespace Client

variable (host : Host) (program : Program σ V H)

/-- The loop of `Client::append_to_buffer`, for at most `fuel` passes. -/
def appendLoop : ℕ → Receiver σ H → Outcome Exn (Receiver σ H)
  | 0, client => .returned client
  | fuel + 1, client =>
    if sizeofPacketHeader ≤ client.buffer.length then
      let header := PacketHeader.view host.order client.buffer
      let messageSize := host.sizeAdd sizeofPacketHeader header.length.toNat
      if client.buffer.length < messageSize then .returned client
      else
        match Packet.empty.deserialize host client.buffer messageSize with
        | (false, _) => .returned { client with buffer := [] }
        | (true, packet) =>
          match dispatch program packet client.toEndpoint with
          | .threw error endpoint => .threw error { client with toEndpoint := endpoint }
          | .returned endpoint =>
            appendLoop fuel ⟨endpoint, client.buffer.drop messageSize⟩
    else .returned client

/-- `Client::append_to_buffer`. -/
def appendToBuffer (data : Bytes) (client : Receiver σ H) : Outcome Exn (Receiver σ H) :=
  let buffer := client.buffer ++ data
  appendLoop host program buffer.length { client with buffer := buffer }

/-- The calls of `append_to_buffer` for a list of chunks. -/
def feed (chunks : List Bytes) (client : Receiver σ H) : Outcome Exn (Receiver σ H) :=
  Outcome.forEach (appendToBuffer host program) chunks client

theorem appendLoop_eq_drainUpTo (fuel : ℕ) (pair : Bytes × Endpoint σ H) :
    appendLoop host program fuel (.ofPair pair) =
      ((wireDecoder host).drainUpTo (dispatch program) fuel pair.1 pair.2).map .ofPair := by
  induction fuel generalizing pair with
  | zero => rfl
  | succ fuel ih =>
    obtain ⟨buffer, endpoint⟩ := pair
    change appendLoop host program (fuel + 1) ⟨endpoint, buffer⟩ = _
    simp only [appendLoop, FrameDecoder.drainUpTo, wireDecoder_scan]
    by_cases hheader : buffer.length < sizeofPacketHeader
    · rw [if_neg (Nat.not_le_of_lt hheader), scanFrame_of_short hheader]
      rfl
    rw [if_pos (Nat.le_of_not_lt hheader)]
    by_cases hcomplete : buffer.length < messageSize host buffer
    · rw [scanFrame_of_incomplete hcomplete]
      exact if_pos hcomplete
    rw [scanFrame_of_complete hheader hcomplete]
    refine (if_neg hcomplete).trans ?_
    change (match Packet.empty.deserialize host buffer (messageSize host buffer) with
      | (false, _) => _
      | (true, packet) => _) = _
    rcases Packet.empty.deserialize host buffer (messageSize host buffer) with ⟨accepted, packet⟩
    cases accepted with
    | false => rfl
    | true =>
      simp only
      cases dispatch program packet endpoint with
      | threw error next => rfl
      | returned next => exact ih (_, next)

theorem appendToBuffer_eq_append (data : Bytes) (pair : Bytes × Endpoint σ H) :
    appendToBuffer host program data (.ofPair pair) =
      ((wireDecoder host).append (dispatch program) data pair).map .ofPair :=
  appendLoop_eq_drainUpTo host program _ (pair.1 ++ data, pair.2)

end Client

namespace Session

section Loop

variable (host : Host) (handle : Packet → Endpoint σ H → Outcome Exn (Endpoint σ H))

/-- The loop of `Session::process_buffer`, for at most `fuel` passes. -/
def processLoop : ℕ → Receiver σ H → Outcome Exn (Receiver σ H)
  | 0, session => .returned session
  | fuel + 1, session =>
    if session.buffer.isEmpty then .returned session
    else if session.buffer.length < sizeofPacketHeader then .returned session
    else
      let header := PacketHeader.view host.order session.buffer
      if session.buffer.length < host.sizeAdd sizeofPacketHeader header.length.toNat then
        .returned session
      else
        match Packet.empty.deserialize host session.buffer
            (host.sizeAdd sizeofPacketHeader header.length.toNat) with
        | (false, _) => .returned { session with buffer := [] }
        | (true, packet) =>
          match handle packet session.toEndpoint with
          | .threw error endpoint => .threw error { session with toEndpoint := endpoint }
          | .returned endpoint =>
            -- `header` still points at the front of the buffer the handler could not touch.
            let header := PacketHeader.view host.order session.buffer
            processLoop fuel
              ⟨endpoint, session.buffer.drop (sizeofPacketHeader + header.length.toNat)⟩

/-- `Session::process_buffer`. -/
def processBuffer (session : Receiver σ H) : Outcome Exn (Receiver σ H) :=
  processLoop host handle session.buffer.length session

/-- `Session::append_to_buffer`, by some way of handling a packet. -/
def appendToBufferBy (data : Bytes) (session : Receiver σ H) : Outcome Exn (Receiver σ H) :=
  processBuffer host handle { session with buffer := session.buffer ++ data }

theorem processLoop_eq_drainUpTo (fuel : ℕ) (pair : Bytes × Endpoint σ H) :
    processLoop host handle fuel (.ofPair pair) =
      ((wireDecoder host).drainUpTo handle fuel pair.1 pair.2).map .ofPair := by
  induction fuel generalizing pair with
  | zero => rfl
  | succ fuel ih =>
    obtain ⟨buffer, endpoint⟩ := pair
    change processLoop host handle (fuel + 1) ⟨endpoint, buffer⟩ = _
    simp only [processLoop, FrameDecoder.drainUpTo, wireDecoder_scan]
    by_cases hempty : buffer.isEmpty = true
    · obtain rfl := List.isEmpty_iff.mp hempty
      rfl
    by_cases hheader : buffer.length < sizeofPacketHeader
    · rw [if_neg hempty, if_pos hheader, scanFrame_of_short hheader]
      rfl
    rw [if_neg hempty, if_neg hheader]
    by_cases hcomplete : buffer.length < messageSize host buffer
    · rw [scanFrame_of_incomplete hcomplete]
      exact if_pos hcomplete
    rw [scanFrame_of_complete hheader hcomplete]
    refine (if_neg hcomplete).trans ?_
    change (match Packet.empty.deserialize host buffer (messageSize host buffer) with
      | (false, _) => _
      | (true, packet) => _) = _
    rcases hdeserialize : Packet.empty.deserialize host buffer (messageSize host buffer)
      with ⟨accepted, packet⟩
    cases accepted with
    | false => rfl
    | true =>
      -- An accepted frame is at least a header long, so its size did not wrap around.
      have hsize := (messageSize_lt_or_eq host buffer).resolve_left
        (Nat.not_lt_of_le (Packet.deserialize_eq_true hdeserialize).1)
      simp only
      cases handle packet endpoint with
      | threw error next => rfl
      | returned next =>
        simp only
        rw [← hsize]
        exact ih (_, next)

theorem appendToBufferBy_eq_append (data : Bytes) (pair : Bytes × Endpoint σ H) :
    appendToBufferBy host handle data (.ofPair pair) =
      ((wireDecoder host).append handle data pair).map .ofPair :=
  processLoop_eq_drainUpTo host handle _ (pair.1 ++ data, pair.2)

variable {host handle}

/-- A call that returns has run the loop of the decoder over what the buffer then held. -/
theorem drain_of_appendToBufferBy {data : Bytes} {session next : Receiver σ H}
    (happend : appendToBufferBy host handle data session = .returned next) :
    (wireDecoder host).drain handle (session.buffer ++ data) session.toEndpoint =
      .returned (next.buffer, next.toEndpoint) := by
  have hpair := appendToBufferBy_eq_append host handle data (session.buffer, session.toEndpoint)
  obtain ⟨pair, hdrain, rfl⟩ := Outcome.map_eq_returned (hpair.symm.trans happend)
  exact hdrain

/-- What handling a packet keeps, receiving keeps. -/
theorem appendToBufferBy_preserves (Holds : Endpoint σ H → Prop)
    (hhandle : ∀ {packet endpoint next}, Holds endpoint →
      handle packet endpoint = .returned next → Holds next)
    {data : Bytes} {session next : Receiver σ H} (hsession : Holds session.toEndpoint)
    (happend : appendToBufferBy host handle data session = .returned next) :
    Holds next.toEndpoint :=
  (wireDecoder host).drain_preserves handle Holds
    (fun _ _ hholds _ hhandled ↦ hhandle hholds hhandled) hsession
    (drain_of_appendToBufferBy happend)

end Loop

variable (host : Host) (program : Program σ V H)

/-- `Session::append_to_buffer`. -/
def appendToBuffer (data : Bytes) (session : Receiver σ H) : Outcome Exn (Receiver σ H) :=
  appendToBufferBy host (handlePacket program) data session

/-- The calls of `append_to_buffer` for a list of chunks. -/
def feed (chunks : List Bytes) (session : Receiver σ H) : Outcome Exn (Receiver σ H) :=
  Outcome.forEach (appendToBuffer host program) chunks session

end Session

/-! ## What the two loops share -/

/-- A receive loop: a way of appending bytes that drains the wire decoder, by a dispatch whose
effect on the trace is known. -/
structure ReceiveLoop (host : Host) (program : Program σ V H) where
  append : Bytes → Receiver σ H → Outcome Exn (Receiver σ H)
  dispatch : Packet → Endpoint σ H → Outcome Exn (Endpoint σ H)
  emits : Packet → List (Obs H)
  append_eq : ∀ (data : Bytes) (pair : Bytes × Endpoint σ H),
    append data (.ofPair pair) = ((wireDecoder host).append dispatch data pair).map .ofPair
  dispatch_returned : ∀ {packet : Packet} {endpoint next : Endpoint σ H},
    dispatch packet endpoint = .returned next → next.trace = endpoint.trace ++ emits packet
  dispatch_state : ∀ {packet : Packet} {endpoint next : Endpoint σ H},
    dispatch packet endpoint = .returned next →
      next.state = endpoint.state ∨ next.state = program.heartbeat endpoint.state ∨
        ∃ found, program.invoke found packet endpoint.state = .returned next.state
  dispatch_returns : ∀ {packet : Packet}, program.Returns packet → ∀ endpoint : Endpoint σ H,
    ∃ next, dispatch packet endpoint = .returned next
  decodedPackets_emits : ∀ packet, Obs.decodedPackets (emits packet) = [packet]
  packet_of_mem_emits : ∀ {packet : Packet} {call : H × Packet},
    call ∈ Obs.invocations (emits packet) → call.2 = packet

/-- The loop of `Client::append_to_buffer`. -/
def Client.receiveLoop (host : Host) (program : Program σ V H) : ReceiveLoop host program where
  append := Client.appendToBuffer host program
  dispatch := Client.dispatch program
  emits := Client.emits program
  append_eq := Client.appendToBuffer_eq_append host program
  dispatch_returned := Client.dispatch_returned program
  dispatch_state hdispatch := (Client.dispatch_state program hdispatch).imp_right .inr
  dispatch_returns := Client.dispatch_returns program
  decodedPackets_emits := Client.decodedPackets_emits program
  packet_of_mem_emits := program.packet_of_mem_invoked

/-- The loop of `Session::process_buffer`. -/
def Session.receiveLoop (host : Host) (program : Program σ V H) : ReceiveLoop host program where
  append := Session.appendToBuffer host program
  dispatch := Session.handlePacket program
  emits := Session.emits program
  append_eq := Session.appendToBufferBy_eq_append host (Session.handlePacket program)
  dispatch_returned := Session.handlePacket_returned program
  dispatch_state := Session.handlePacket_state program
  dispatch_returns hreturns := Session.handlePacket_returns program fun _ ↦ hreturns
  decodedPackets_emits := Session.decodedPackets_emits program
  packet_of_mem_emits := Session.packet_of_mem_emits program

namespace ReceiveLoop

variable {host : Host} {program : Program σ V H} (loop : ReceiveLoop host program)

/-- The calls of a receive loop for a list of chunks. -/
def feed (chunks : List Bytes) (receiver : Receiver σ H) : Outcome Exn (Receiver σ H) :=
  Outcome.forEach loop.append chunks receiver

theorem feed_eq_feed (chunks : List Bytes) (pair : Bytes × Endpoint σ H) :
    loop.feed chunks (.ofPair pair) =
      ((wireDecoder host).feed loop.dispatch chunks pair).map .ofPair :=
  Outcome.forEach_map Receiver.ofPair loop.append_eq chunks pair

/-- What a receiver holds and traces after some chunks, in terms of the decoder. -/
theorem feed_returned {chunks : List Bytes} {receiver next : Receiver σ H}
    (hfeed : loop.feed chunks receiver = .returned next) :
    next.buffer = ((wireDecoder host).decode chunks receiver.buffer).2 ∧
      next.trace = receiver.trace ++
        ((wireDecoder host).decode chunks receiver.buffer).1.flatMap loop.emits := by
  rw [show receiver = .ofPair (receiver.buffer, receiver.toEndpoint) from rfl,
    feed_eq_feed] at hfeed
  obtain ⟨pair, hpair, rfl⟩ := Outcome.map_eq_returned hfeed
  exact (wireDecoder host).feed_traced loop.dispatch Endpoint.trace loop.emits
    (fun _ _ _ ↦ loop.dispatch_returned) hpair

/-- What one call of a receive loop leaves in the buffer and adds to the trace. -/
theorem append_returned {data : Bytes} {receiver next : Receiver σ H}
    (happend : loop.append data receiver = .returned next) :
    next.buffer = ((wireDecoder host).decode [data] receiver.buffer).2 ∧
      next.trace = receiver.trace ++
        ((wireDecoder host).decode [data] receiver.buffer).1.flatMap loop.emits := by
  have hfeed : loop.feed [data] receiver = .returned next := by
    rw [feed, Outcome.forEach, happend]
    rfl
  exact loop.feed_returned hfeed

/-- What user code and heartbeats keep, receiving keeps. -/
theorem append_preserves {Holds : σ → Prop}
    (hheartbeat : ∀ {state}, Holds state → Holds (program.heartbeat state))
    (hinvoke : ∀ {handler packet state next}, Holds state →
      program.invoke handler packet state = .returned next → Holds next)
    {data : Bytes} {receiver next : Receiver σ H} (hstate : Holds receiver.state)
    (happend : loop.append data receiver = .returned next) : Holds next.state := by
  have hpair := loop.append_eq data (receiver.buffer, receiver.toEndpoint)
  obtain ⟨⟨rest, endpoint⟩, hdrain, rfl⟩ :=
    Outcome.map_eq_returned (hpair.symm.trans happend)
  refine (wireDecoder host).drain_preserves loop.dispatch (fun endpoint ↦ Holds endpoint.state)
    ?_ hstate hdrain
  intro packet endpoint hholds after hdispatch
  rcases loop.dispatch_state hdispatch with hsame | hbeat | ⟨handler, hcalled⟩
  · rwa [hsame]
  · rw [hbeat]
    exact hheartbeat hholds
  · exact hinvoke hholds hcalled

theorem feed_returns {chunks : List Bytes} {receiver : Receiver σ H}
    (hreturns : ∀ packet ∈ ((wireDecoder host).decode chunks receiver.buffer).1,
      program.Returns packet) :
    ∃ next, loop.feed chunks receiver = .returned next := by
  obtain ⟨pair, hpair⟩ := (wireDecoder host).feed_returns loop.dispatch chunks receiver.buffer
    receiver.toEndpoint fun packet hpacket endpoint ↦
      loop.dispatch_returns (hreturns packet hpacket) endpoint
  refine ⟨.ofPair pair, ?_⟩
  rw [show receiver = .ofPair (receiver.buffer, receiver.toEndpoint) from rfl, feed_eq_feed,
    hpair, Outcome.map_returned]

/-- Nothing happens when no bytes are appended to an empty buffer. -/
theorem append_nil (endpoint : Endpoint σ H) :
    loop.append [] ⟨endpoint, []⟩ = .returned ⟨endpoint, []⟩ := by
  have happend := loop.append_eq [] ([], endpoint)
  rw [FrameDecoder.append, List.append_nil,
    (wireDecoder host).drain_of_more loop.dispatch (wireDecoder host).scan_nil] at happend
  exact happend

/-- A frame whose dispatch returns is removed, and the loop goes on behind it. -/
theorem append_frame {packet : Packet} {size : ℕ} {front data : Bytes}
    (hscan : scanFrame host (front ++ data) = .frame packet size)
    {endpoint next : Endpoint σ H} (hdispatch : loop.dispatch packet endpoint = .returned next) :
    loop.append data ⟨endpoint, front⟩ =
      loop.append ((front ++ data).drop size) ⟨next, []⟩ := by
  have hdrain := (wireDecoder host).drain_of_frame loop.dispatch hscan hdispatch
  have hleft := loop.append_eq data (front, endpoint)
  have hright := loop.append_eq ((front ++ data).drop size) ([], next)
  rw [FrameDecoder.append] at hleft hright
  rw [hdrain] at hleft
  exact hleft.trans hright.symm

/-- A frame whose dispatch throws stays at the front, and the exception leaves the loop. -/
theorem append_frame_threw {packet : Packet} {size : ℕ} {front data : Bytes}
    (hscan : scanFrame host (front ++ data) = .frame packet size) {error : Exn}
    {endpoint next : Endpoint σ H}
    (hdispatch : loop.dispatch packet endpoint = .threw error next) :
    loop.append data ⟨endpoint, front⟩ = .threw error ⟨next, front ++ data⟩ := by
  have hdrain := (wireDecoder host).drain_of_frame_threw loop.dispatch hscan hdispatch
  have hleft := loop.append_eq data (front, endpoint)
  rw [FrameDecoder.append, hdrain] at hleft
  exact hleft

end ReceiveLoop

end LibuvNet
