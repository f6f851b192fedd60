import LibuvNet.Endpoint.Reassembly
import LibuvNet.Foundation.Segmentation
import LibuvNet.Wire.Rejection

/-!
# Accounting for received bytes

Whatever bytes arrive, in whatever pieces, a byte leaves the receive buffer in one of two ways: with
the frame it belongs to, or when the buffer is cleared because the header at its front has another
version.  On a 64-bit host a size does not wrap around, so a version is the only thing
`Packet::deserialize` can object to once the loop has waited for the whole frame.
-/

namespace LibuvNet

open Foundation

section Frames

variable (order : ByteOrder)

/-- One whole frame of the supported version, or bytes behind a header of another version. -/
def wireRule : SegmentRule UInt8 where
  Accepted frame :=
    sizeofPacketHeader ≤ frame.length ∧
      (PacketHeader.view order frame).version = protocolVersion ∧
      frame.length = sizeofPacketHeader + (PacketHeader.view order frame).length.toNat
  Discarded run :=
    sizeofPacketHeader ≤ run.length ∧ (PacketHeader.view order run).version ≠ protocolVersion
  accepted_unique := by
    intro first second left right hfirst hsecond heq
    have hview := PacketHeader.view_append order left hfirst.1
    rw [heq, PacketHeader.view_append order right hsecond.1] at hview
    exact (List.append_inj heq (by rw [hfirst.2.2, hsecond.2.2, hview])).1
  not_discarded := by
    intro frame later hframe hdiscarded
    rw [PacketHeader.view_append order later hframe.1] at hdiscarded
    exact hdiscarded.2 hframe.2.1
  discarded_ne_nil := by
    rintro run hdiscarded rfl
    exact absurd hdiscarded.1 (by decide)

/-- The packet `deserialize` makes of a frame. -/
def Packet.decoding (frame : Bytes) : Packet :=
  (Packet.empty.deserialize (.wide order) frame frame.length).2

variable {order}

theorem Packet.deserialize_of_accepted {frame : Bytes} (hframe : (wireRule order).Accepted frame) :
    Packet.empty.deserialize (.wide order) frame frame.length =
      (true, Packet.decoding order frame) := by
  obtain ⟨hheader, hversion, hlength⟩ := hframe
  have hsize : (Host.wide order).sizeAdd sizeofPacketHeader
      (PacketHeader.view order frame).length.toNat = frame.length :=
    (messageSize_wide order frame).trans hlength.symm
  have hwhole : Packet.empty.deserialize (.wide order) frame frame.length = (true, _) :=
    Packet.deserialize_of_whole (Nat.not_lt_of_le hheader) hversion (Nat.not_lt_of_le hsize.le)
  rw [decoding, hwhole]

theorem scanFrame_of_accepted {frame : Bytes} (hframe : (wireRule order).Accepted frame)
    (later : Bytes) :
    scanFrame (.wide order) (frame ++ later) =
      .frame (Packet.decoding order frame) frame.length := by
  have hsize : messageSize (.wide order) frame = frame.length :=
    (messageSize_wide order frame).trans hframe.2.2.symm
  have hscan : scanFrame (.wide order) frame =
      .frame (Packet.decoding order frame) frame.length := by
    rw [scanFrame_of_complete (Nat.not_lt_of_le hframe.1) (by rw [hsize]; exact lt_irrefl _), hsize,
      Packet.deserialize_of_accepted hframe]
  rw [scanFrame_append (.wide order) later (by simp [hscan]), hscan]

theorem accepted_of_scanFrame {buffer : Bytes} {packet : Packet} {size : ℕ}
    (hscan : scanFrame (.wide order) buffer = .frame packet size) :
    (wireRule order).Accepted (buffer.take size) ∧
      Packet.decoding order (buffer.take size) = packet := by
  obtain ⟨hsize, hheader, hle, hdeserialize⟩ := scanFrame_eq_frame hscan
  obtain ⟨-, hversion, -, -⟩ := Packet.deserialize_eq_true hdeserialize
  rw [messageSize_wide] at hsize
  have hlength : (buffer.take size).length = size := by
    rw [List.length_take, Nat.min_eq_left hle]
  have hview : PacketHeader.view order (buffer.take size) = PacketHeader.view order buffer := by
    rw [← PacketHeader.view_append order (buffer.drop size) (by rw [hlength]; exact hheader),
      List.take_append_drop]
  have haccepted : (wireRule order).Accepted (buffer.take size) := by
    refine ⟨by rw [hlength]; exact hheader, ?_, ?_⟩
    · rw [hview]
      exact hversion
    · rw [hlength, hview, hsize]
  have hfront := scanFrame_of_accepted haccepted (buffer.drop size)
  rw [List.take_append_drop, hscan, Verdict.frame.injEq] at hfront
  exact ⟨haccepted, hfront.1.symm⟩

theorem discarded_of_scanFrame {buffer : Bytes}
    (hscan : scanFrame (.wide order) buffer = .reject) : (wireRule order).Discarded buffer := by
  by_cases hheader : buffer.length < sizeofPacketHeader
  · simp [scanFrame_of_short hheader] at hscan
  by_cases hcomplete : buffer.length < messageSize (.wide order) buffer
  · simp [scanFrame_of_incomplete hcomplete] at hscan
  refine ⟨Nat.le_of_not_lt hheader, fun hversion ↦ ?_⟩
  have hshort : ¬ messageSize (.wide order) buffer < sizeofPacketHeader := by
    rw [messageSize_wide]
    omega
  rw [scanFrame_of_complete hheader hcomplete,
    Packet.deserialize_of_whole hshort hversion (lt_irrefl _)] at hscan
  cases hscan

end Frames

/-! ## Runs -/

variable {σ V H : Type*}

/-- The calls for the chunks return, the bytes fed are in exactly one way those of the segments
that left the buffer call by call and then those of the final buffer, and the packets delivered are
those `deserialize` makes of the accepted segments. -/
def ConservesBytes (order : ByteOrder)
    (append : Bytes → Receiver σ H → Outcome Exn (Receiver σ H)) (chunks : List Bytes)
    (endpoint : Endpoint σ H) : Prop :=
  ∃ (next : Receiver σ H) (segments : List (Segment UInt8)) (packets : List Packet),
    Outcome.forEach append chunks ⟨endpoint, []⟩ = .returned next ∧
      (wireRule order).Accounts Receiver.buffer append chunks ⟨endpoint, []⟩ segments next ∧
      (∀ others last, (wireRule order).Accounts Receiver.buffer append chunks ⟨endpoint, []⟩
        others last → others = segments ∧ last = next) ∧
      chunks.flatten = segments.flatMap Segment.symbols ++ next.buffer ∧
      (∀ segment ∈ segments, (wireRule order).Allows segment) ∧
      Obs.decodedPackets next.trace = Obs.decodedPackets endpoint.trace ++ packets ∧
      (segments.filterMap Segment.frame?).map
          (fun frame ↦ Packet.empty.deserialize (.wide order) frame frame.length) =
        packets.map fun packet ↦ (true, packet)

namespace ReceiveLoop

variable {order : ByteOrder} {program : Program σ V H} (loop : ReceiveLoop (.wide order) program)

/-- A run that returns has an account, whose frames are those the decoder finds. -/
theorem exists_accounts {chunks : List Bytes} {receiver next : Receiver σ H}
    (hfeed : loop.feed chunks receiver = .returned next) :
    ∃ segments,
      (wireRule order).Accounts Receiver.buffer loop.append chunks receiver segments next ∧
      (segments.filterMap Segment.frame?).map (Packet.decoding order) =
        ((wireDecoder (.wide order)).decode chunks receiver.buffer).1 := by
  induction chunks generalizing receiver with
  | nil =>
    obtain rfl := Outcome.returned.inj hfeed
    exact ⟨[], .nil receiver, rfl⟩
  | cons chunk chunks ih =>
    obtain ⟨mid, happend, hlater⟩ := Outcome.andThen_eq_returned hfeed
    obtain ⟨later, haccounts, hvalues⟩ := ih hlater
    obtain ⟨first, hleaves, hfirst⟩ := (wireDecoder (.wide order)).leaves_kept (wireRule order)
      (Packet.decoding order) accepted_of_scanFrame discarded_of_scanFrame
      (receiver.buffer ++ chunk)
    have hbuffer : mid.buffer = (wireDecoder (.wide order)).kept (receiver.buffer ++ chunk) :=
      (loop.append_returned happend).1
    rw [← hbuffer] at hleaves
    refine ⟨first ++ later, .cons happend hleaves haccounts, ?_⟩
    rw [List.filterMap_append, List.map_append, hfirst, hvalues, hbuffer]
    rfl

/-- After a call no whole frame is left at the front of the buffer. -/
theorem settled_of_append {data : Bytes} {receiver next : Receiver σ H}
    (happend : loop.append data receiver = .returned next) :
    (wireRule order).Settled next.buffer := by
  intro frame later hframe hbuffer
  have hkept : next.buffer = (wireDecoder (.wide order)).kept (receiver.buffer ++ data) :=
    (loop.append_returned happend).1
  have hmore := (wireDecoder (.wide order)).scan_kept (receiver.buffer ++ data)
  rw [← hkept, hbuffer, wireDecoder_scan, scanFrame_of_accepted hframe] at hmore
  cases hmore

theorem conservesBytes (endpoint : Endpoint σ H) (chunks : List Bytes)
    (hreturns : ∀ packet, program.Returns packet) :
    ConservesBytes order loop.append chunks endpoint := by
  obtain ⟨next, hfeed, hpackets, -⟩ :=
    loop.feed_decodes chunks endpoint [] fun packet _ ↦ hreturns packet
  obtain ⟨segments, haccounts, hvalues⟩ := loop.exists_accounts hfeed
  refine ⟨next, segments, _, hfeed, haccounts, ?_, haccounts.conserves, haccounts.allows, hpackets,
    ?_⟩
  · intro others last hothers
    exact ⟨hothers.unique (fun _ _ _ ↦ loop.settled_of_append) haccounts,
      Outcome.returned.inj (hothers.forEach_eq.symm.trans hfeed)⟩
  · rw [← hvalues, List.map_map]
    apply List.map_congr_left
    intro frame hmem
    obtain ⟨segment, hsegment, hsome⟩ := List.mem_filterMap.mp hmem
    cases segment with
    | accepted symbols =>
      obtain rfl := Option.some.inj hsome
      exact Packet.deserialize_of_accepted (haccounts.allows _ hsegment)
    | discarded run => cases hsome

end ReceiveLoop

/-- **Byte conservation.** On a 64-bit host both receive loops account for every byte they are
fed: it is in one accepted frame, or in one run discarded for its version, or still held. -/
theorem bytes_conserved (order : ByteOrder) (program : Program σ V H)
    (hreturns : ∀ packet, program.Returns packet) (endpoint : Endpoint σ H)
    (chunks : List Bytes) :
    ConservesBytes order (Client.appendToBuffer (.wide order) program) chunks endpoint ∧
      ConservesBytes order (Session.appendToBuffer (.wide order) program) chunks endpoint :=
  ⟨(Client.receiveLoop (.wide order) program).conservesBytes endpoint chunks hreturns,
    (Session.receiveLoop (.wide order) program).conservesBytes endpoint chunks hreturns⟩

theorem bytes_conserved_unsupported :
    ConservesBytes .little (Client.appendToBuffer (.wide .little) Program.silent)
        [unsupportedFrame, (wireCodec .little).encode greeting ++ [1]] ⟨(), []⟩ ∧
      ConservesBytes .little (Session.appendToBuffer (.wide .little) Program.silent)
        [unsupportedFrame, (wireCodec .little).encode greeting ++ [1]] ⟨(), []⟩ :=
  bytes_conserved .little Program.silent Program.silent_returns ⟨(), []⟩ _

end LibuvNet
