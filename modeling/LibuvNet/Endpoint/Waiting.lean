import LibuvNet.Endpoint.Receive

/-!
# What a receive loop waits for

Both loops ask whether a frame is complete before `deserialize` asks for its version.  What a call
leaves in the buffer is therefore less than a header, or a header of whatever version with less
than the frame it announces; a header of another version is rejected, with all that is buffered, by
the call that completes the frame.
-/

namespace LibuvNet

open Foundation

variable {σ V H : Type*} {host : Host} {buffer : Bytes}

/-- Less than a header, or less than the frame that the header announces. -/
def Waits (host : Host) (buffer : Bytes) : Prop :=
  buffer.length < sizeofPacketHeader ∨
    buffer.length < sizeofPacketHeader + (PacketHeader.view host.order buffer).length.toNat

/-- The front of the buffer is a whole frame of the supported version. -/
def BeginsWithFrame (host : Host) (buffer : Bytes) : Prop :=
  (PacketHeader.view host.order buffer).version = protocolVersion ∧
    sizeofPacketHeader + (PacketHeader.view host.order buffer).length.toNat ≤ buffer.length

/-- Less than a header, or a header that will be accepted with less than its frame. -/
def WaitsAcceptably (host : Host) (buffer : Bytes) : Prop :=
  buffer.length < sizeofPacketHeader ∨
    (PacketHeader.view host.order buffer).version = protocolVersion ∧
      buffer.length < sizeofPacketHeader + (PacketHeader.view host.order buffer).length.toNat

instance (buffer : Bytes) : Decidable (WaitsAcceptably host buffer) := by
  unfold WaitsAcceptably
  infer_instance

theorem waits_nil (host : Host) : Waits host [] := .inl (by decide)

theorem waits_of_scanFrame (hscan : scanFrame host buffer = .more) : Waits host buffer := by
  by_cases hheader : buffer.length < sizeofPacketHeader
  · exact .inl hheader
  by_cases hcomplete : buffer.length < messageSize host buffer
  · have hsize := messageSize_lt_or_eq host buffer
    exact .inr (by omega)
  · rw [scanFrame_of_complete hheader hcomplete] at hscan
    split at hscan <;> cases hscan

theorem beginsWithFrame_of_scanFrame {packet : Packet} {size : ℕ}
    (hscan : scanFrame host buffer = .frame packet size) : BeginsWithFrame host buffer := by
  obtain ⟨hsize, hheader, hcomplete, hdeserialize⟩ := scanFrame_eq_frame hscan
  have hexact := (messageSize_lt_or_eq host buffer).resolve_left (by omega)
  exact ⟨(Packet.deserialize_eq_true hdeserialize).2.1, by omega⟩

/-- A header of another version is never the front of a frame that is accepted. -/
theorem scanFrame_of_version (hheader : sizeofPacketHeader ≤ buffer.length)
    (hversion : (PacketHeader.view host.order buffer).version ≠ protocolVersion) :
    scanFrame host buffer = if buffer.length < messageSize host buffer then .more else .reject := by
  split
  · exact scanFrame_of_incomplete ‹_›
  · rename_i hcomplete
    rw [scanFrame_of_complete (not_lt.mpr hheader) hcomplete]
    split
    · rename_i haccepted
      exact absurd (Packet.deserialize_eq_true haccepted).2.1 hversion
    · rfl

/-- What is behind the frames at the front of some bytes. -/
def behindFrames (host : Host) (held : Bytes) : Bytes := ((wireDecoder host).parse held).rest

/-- A call that returns leaves something to wait for; one that throws leaves the frame whose
handling threw. -/
def LeavesWaiting (host : Host) : Outcome Exn (Receiver σ H) → Prop
  | .returned receiver => Waits host receiver.buffer
  | .threw _ receiver => BeginsWithFrame host receiver.buffer

namespace ReceiveLoop

variable {program : Program σ V H} (loop : ReceiveLoop host program)

theorem append_leavesWaiting (data : Bytes) (receiver : Receiver σ H) :
    LeavesWaiting host (loop.append data receiver) := by
  have happend := loop.append_eq data (receiver.buffer, receiver.toEndpoint)
  rw [FrameDecoder.append] at happend
  change LeavesWaiting host (loop.append data (.ofPair (receiver.buffer, receiver.toEndpoint)))
  rw [happend]
  cases hdrain : (wireDecoder host).drain loop.dispatch (receiver.buffer ++ data)
      receiver.toEndpoint with
  | returned pair =>
    obtain ⟨hrest, -⟩ := (wireDecoder host).drain_returned loop.dispatch hdrain
    apply waits_of_scanFrame
    change (wireDecoder host).scan pair.1 = .more
    rw [hrest]
    exact (wireDecoder host).scan_kept _
  | threw error pair =>
    obtain ⟨packet, size, hscan⟩ := (wireDecoder host).drain_threw loop.dispatch hdrain
    exact beginsWithFrame_of_scanFrame hscan

/-- What holds of a receiver before its first byte and after every call holds after any calls. -/
theorem feed_leavesWaiting (chunks : List Bytes) {receiver : Receiver σ H}
    (hreceiver : Waits host receiver.buffer) :
    LeavesWaiting host (loop.feed chunks receiver) := by
  induction chunks generalizing receiver with
  | nil => exact hreceiver
  | cons data chunks ih =>
    have happend := loop.append_leavesWaiting data receiver
    rw [feed]
    cases hnext : loop.append data receiver with
    | returned next =>
      rw [hnext] at happend
      rw [Outcome.forEach_cons_returned hnext]
      exact ih happend
    | threw error next =>
      rw [hnext] at happend
      rw [Outcome.forEach_cons_threw hnext]
      exact happend

/-- A header of another version stays until the frame it announces is complete, and then goes with
all that is buffered. -/
theorem append_of_version {data : Bytes} {receiver : Receiver σ H}
    (hheader : sizeofPacketHeader ≤ (receiver.buffer ++ data).length)
    (hversion : (PacketHeader.view host.order (receiver.buffer ++ data)).version ≠
      protocolVersion) :
    loop.append data receiver = .returned { receiver with
      buffer :=
        if (receiver.buffer ++ data).length < messageSize host (receiver.buffer ++ data) then
          receiver.buffer ++ data
        else [] } := by
  have happend := loop.append_eq data (receiver.buffer, receiver.toEndpoint)
  have hscan := scanFrame_of_version hheader hversion
  rw [FrameDecoder.append] at happend
  apply happend.trans
  split at hscan
  · rw [if_pos ‹_›, (wireDecoder host).drain_of_more loop.dispatch hscan]
    rfl
  · rw [if_neg ‹_›, (wireDecoder host).drain_of_reject loop.dispatch hscan]
    rfl

/-- Frames in front of such a header are handled as ever, and the header is treated as if it had
been in front. -/
theorem append_behind_frames {data : Bytes} {receiver next : Receiver σ H}
    (happend : loop.append data receiver = .returned next)
    (hheader : sizeofPacketHeader ≤ (behindFrames host (receiver.buffer ++ data)).length)
    (hversion : (PacketHeader.view host.order
      (behindFrames host (receiver.buffer ++ data))).version ≠ protocolVersion) :
    next.buffer =
        (if (behindFrames host (receiver.buffer ++ data)).length <
            messageSize host (behindFrames host (receiver.buffer ++ data)) then
          behindFrames host (receiver.buffer ++ data)
        else []) ∧
      next.trace = receiver.trace ++
        ((wireDecoder host).parse (receiver.buffer ++ data)).values.flatMap loop.emits := by
  obtain ⟨hbuffer, htrace⟩ := loop.append_returned happend
  rw [FrameDecoder.decode, FrameDecoder.decode] at hbuffer htrace
  rw [List.append_nil] at htrace
  refine ⟨hbuffer.trans ?_, htrace⟩
  have hscan : (wireDecoder host).scan
      ((wireDecoder host).parse (receiver.buffer ++ data)).rest = _ :=
    scanFrame_of_version hheader hversion
  change (wireDecoder host).kept (receiver.buffer ++ data) = _
  rw [FrameDecoder.kept]
  split at hscan
  · rw [if_pos ‹_›, hscan]
    rfl
  · rw [if_neg ‹_›, hscan]

/-- What a receive loop waits for: after any chunks from an empty buffer, for a frame; and behind
a header of another version for the frame that it announces, to reject it.  The call that does calls
no handler, or those of the frames in front of the header. -/
structure WaitsForFrames : Prop where
  leavesWaiting : ∀ (chunks : List Bytes) (state : σ),
    LeavesWaiting host (loop.feed chunks (.start state))
  rejectsComplete : ∀ {data : Bytes} {receiver : Receiver σ H},
    sizeofPacketHeader ≤ (receiver.buffer ++ data).length →
    (PacketHeader.view host.order (receiver.buffer ++ data)).version ≠ protocolVersion →
    loop.append data receiver = .returned { receiver with
      buffer :=
        if (receiver.buffer ++ data).length < messageSize host (receiver.buffer ++ data) then
          receiver.buffer ++ data
        else [] }
  rejectsBehindFrames : ∀ {data : Bytes} {receiver next : Receiver σ H},
    loop.append data receiver = .returned next →
    sizeofPacketHeader ≤ (behindFrames host (receiver.buffer ++ data)).length →
    (PacketHeader.view host.order
      (behindFrames host (receiver.buffer ++ data))).version ≠ protocolVersion →
    next.buffer =
        (if (behindFrames host (receiver.buffer ++ data)).length <
            messageSize host (behindFrames host (receiver.buffer ++ data)) then
          behindFrames host (receiver.buffer ++ data)
        else []) ∧
      next.trace = receiver.trace ++
        ((wireDecoder host).parse (receiver.buffer ++ data)).values.flatMap loop.emits

theorem waitsForFrames : loop.WaitsForFrames where
  leavesWaiting chunks _ := loop.feed_leavesWaiting chunks (waits_nil host)
  rejectsComplete := loop.append_of_version
  rejectsBehindFrames := loop.append_behind_frames

end ReceiveLoop

end LibuvNet
