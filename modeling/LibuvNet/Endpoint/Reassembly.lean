import LibuvNet.Endpoint.Receive

/-!
# Reassembly of a byte stream

TCP cuts a stream anywhere.  On a 64-bit host both receive loops put a stream of serialized
packets together again, whatever the cuts: each packet is decoded in the call that supplies its
last byte.  On an arbitrary byte string the result can depend on the cuts, since a rejected frame
empties the whole buffer: what happened to arrive with it is lost as well.  It does so exactly
when something follows a rejected frame.
-/

namespace LibuvNet

open Foundation

variable {σ V H : Type*}

/-- The call returned, decoded these packets and left this buffer. -/
def Decodes (outcome : Outcome Exn (Receiver σ H)) (before : Endpoint σ H)
    (packets : List Packet) (buffer : Bytes) : Prop :=
  ∃ next, outcome = .returned next ∧
    Obs.decodedPackets next.trace = Obs.decodedPackets before.trace ++ packets ∧
    next.buffer = buffer

namespace ReceiveLoop

variable {host : Host} {program : Program σ V H} (loop : ReceiveLoop host program)

theorem feed_decodes (chunks : List Bytes) (endpoint : Endpoint σ H) (buffer : Bytes)
    (hreturns : ∀ packet ∈ ((wireDecoder host).decode chunks buffer).1, program.Returns packet) :
    Decodes (loop.feed chunks ⟨endpoint, buffer⟩) endpoint
      ((wireDecoder host).decode chunks buffer).1
      ((wireDecoder host).decode chunks buffer).2 := by
  obtain ⟨next, hnext⟩ : ∃ next, loop.feed chunks ⟨endpoint, buffer⟩ = .returned next :=
    loop.feed_returns hreturns
  obtain ⟨hbuffer, htrace⟩ := loop.feed_returned hnext
  refine ⟨next, hnext, ?_, hbuffer⟩
  rw [htrace, Obs.decodedPackets_append, Obs.decodedPackets_flatMap loop.decodedPackets_emits]

/-! ## Streams of serialized packets -/

/-- From an empty buffer, the chunks yield the packets and leave the tail; and each packet has
been decoded as soon as its last byte was supplied, not before. -/
def Reassembles (order : ByteOrder) (feed : List Bytes → Receiver σ H → Outcome Exn (Receiver σ H))
    (endpoint : Endpoint σ H) (chunks : List Bytes) (messages : List WirePacket) (tail : Bytes) :
    Prop :=
  Decodes (feed chunks ⟨endpoint, []⟩) endpoint (messages.map WirePacket.packet) tail ∧
    ∀ calls, ∃ buffer,
      Decodes (feed (chunks.take calls) ⟨endpoint, []⟩) endpoint
        (((wireCodec order).completed (chunks.take calls).flatten.length messages).map
          WirePacket.packet)
        buffer

theorem reassembles {order : ByteOrder} {program : Program σ V H}
    (loop : ReceiveLoop (.wide order) program) (endpoint : Endpoint σ H)
    {messages : List WirePacket} (hreturns : ∀ message ∈ messages, program.Returns message.packet)
    {tail : Bytes} (htail : (wireCodec order).Partial tail) {chunks : List Bytes}
    (hchunks : chunks.flatten = (wireCodec order).stream messages ++ tail) :
    Reassembles order loop.feed endpoint chunks messages tail := by
  have hpackets {later : List WirePacket} (hlater : later <+: messages) :
      ∀ packet ∈ later.map WirePacket.packet, program.Returns packet := by
    intro packet hpacket
    obtain ⟨message, hmessage, rfl⟩ := List.mem_map.mp hpacket
    exact hreturns message (hlater.subset hmessage)
  constructor
  · have hdecode : (wireDecoder (.wide order)).decode chunks [] =
        (messages.map WirePacket.packet, tail) :=
      (wireCodec order).decode_stream messages htail hchunks
    have hfeed := loop.feed_decodes chunks endpoint []
    rw [hdecode] at hfeed
    exact hfeed (hpackets List.prefix_rfl)
  · intro calls
    have hdecode : ((wireDecoder (.wide order)).decode (chunks.take calls) []).1 = _ :=
      (wireCodec order).decode_take_stream messages htail hchunks calls
    have hfeed := loop.feed_decodes (chunks.take calls) endpoint []
    rw [hdecode] at hfeed
    exact ⟨_, hfeed (hpackets ((wireCodec order).completed_isPrefix _ messages))⟩

/-! ## Arbitrary byte strings -/

/-- Both ways of feeding return, with the same trace and the same buffer. -/
def SameDelivery (left right : Outcome Exn (Receiver σ H)) : Prop :=
  ∃ first second, left = .returned first ∧ right = .returned second ∧
    first.trace = second.trace ∧ first.buffer = second.buffer

/-- From an empty buffer, all ways of cutting a byte string deliver the same. -/
def Independent (feed : List Bytes → Receiver σ H → Outcome Exn (Receiver σ H))
    (endpoint : Endpoint σ H) (stream : Bytes) : Prop :=
  ∀ left right : List Bytes, left.flatten = stream → right.flatten = stream →
    SameDelivery (feed left ⟨endpoint, []⟩) (feed right ⟨endpoint, []⟩)

theorem sameDelivery_iff (endpoint : Endpoint σ H) (left right : List Bytes)
    (hreturns : ∀ packet, program.Returns packet) :
    SameDelivery (loop.feed left ⟨endpoint, []⟩) (loop.feed right ⟨endpoint, []⟩) ↔
      (wireDecoder host).decode left [] = (wireDecoder host).decode right [] := by
  obtain ⟨first, hfirst, hpackets, hbuffer⟩ :=
    loop.feed_decodes left endpoint [] fun packet _ ↦ hreturns packet
  obtain ⟨second, hsecond, hpackets', hbuffer'⟩ :=
    loop.feed_decodes right endpoint [] fun packet _ ↦ hreturns packet
  constructor
  · rintro ⟨first', second', hleft, hright, htrace, hsame⟩
    obtain rfl := Outcome.returned.inj (hfirst.symm.trans hleft)
    obtain rfl := Outcome.returned.inj (hsecond.symm.trans hright)
    rw [htrace, hpackets'] at hpackets
    exact Prod.ext (List.append_cancel_left hpackets).symm
      (hbuffer.symm.trans (hsame.trans hbuffer'))
  · intro hdecode
    refine ⟨first, second, hfirst, hsecond, ?_, ?_⟩
    · rw [(loop.feed_returned hfirst).2, (loop.feed_returned hsecond).2, hdecode]
    · rw [hbuffer, hbuffer', hdecode]

theorem independent_iff (endpoint : Endpoint σ H) (stream : Bytes)
    (hreturns : ∀ packet, program.Returns packet) :
    Independent loop.feed endpoint stream ↔ (wireDecoder host).EndsAtReject stream := by
  simp only [Independent, loop.sameDelivery_iff endpoint _ _ hreturns]
  exact (wireDecoder host).decode_independent_iff (scanFrame_singleton_ne_reject host) stream

/-- The frames before the first rejected one are delivered first, however the stream is cut. -/
theorem delivers_parse (endpoint : Endpoint σ H) (chunks : List Bytes)
    (hreturns : ∀ packet, program.Returns packet) :
    ∃ later buffer, Decodes (loop.feed chunks ⟨endpoint, []⟩) endpoint
      (((wireDecoder host).parse chunks.flatten).values ++ later) buffer := by
  obtain ⟨later, hlater⟩ :=
    (wireDecoder host).parse_values_prefix_decode chunks [] (wireDecoder host).scan_nil
  rw [List.nil_append] at hlater
  refine ⟨later, ((wireDecoder host).decode chunks []).2, ?_⟩
  rw [hlater]
  exact loop.feed_decodes chunks endpoint [] fun packet _ ↦ hreturns packet

end ReceiveLoop

/-- **Lossless reassembly.** On a 64-bit host, `Client` and `Session` both decode exactly the
packets of the stream, each in the call that supplies its last byte, and hold the unfinished
packet at the end. -/
theorem reassembly_lossless (order : ByteOrder) (program : Program σ V H)
    (endpoint : Endpoint σ H) (messages : List WirePacket)
    (hreturns : ∀ message ∈ messages, program.Returns message.packet)
    (tail : Bytes) (htail : (wireCodec order).Partial tail) (chunks : List Bytes)
    (hchunks : chunks.flatten = (wireCodec order).stream messages ++ tail) :
    ReceiveLoop.Reassembles order (Client.feed (.wide order) program) endpoint chunks
        messages tail ∧
      ReceiveLoop.Reassembles order (Session.feed (.wide order) program) endpoint chunks
        messages tail :=
  ⟨(Client.receiveLoop (.wide order) program).reassembles endpoint hreturns htail hchunks,
    (Session.receiveLoop (.wide order) program).reassembles endpoint hreturns htail hchunks⟩

/-- A text packet of two bytes. -/
def greeting : WirePacket where
  packet := ⟨.text, [104, 105], 7⟩
  padding := ⟨0, 255⟩
  fits := by decide

theorem reassembly_lossless_greeting :
    let chunks := ((wireCodec .little).stream [greeting] ++ [1]).map fun byte ↦ [byte]
    ReceiveLoop.Reassembles .little (Client.feed (.wide .little) Program.silent) ⟨(), []⟩ chunks
        [greeting] [1] ∧
      ReceiveLoop.Reassembles .little (Session.feed (.wide .little) Program.silent) ⟨(), []⟩
        chunks [greeting] [1] :=
  reassembly_lossless .little Program.silent ⟨(), []⟩ [greeting]
    (fun _ _ ↦ Program.silent_returns _) [1]
    ⟨greeting, ((wireCodec .little).encode greeting).tail, by decide, by decide⟩ _ (by decide)

/-- **Cuts.** All ways of cutting a byte string deliver the same packets and leave the same
buffer if and only if no rejected frame of it is followed by another byte; and every way of
cutting it delivers first the packets before the first rejected frame. -/
theorem cuts_irrelevant_iff (host : Host) (program : Program σ V H)
    (hreturns : ∀ packet, program.Returns packet) (endpoint : Endpoint σ H) (stream : Bytes) :
    (ReceiveLoop.Independent (Client.feed host program) endpoint stream ↔
        (wireDecoder host).EndsAtReject stream) ∧
      (ReceiveLoop.Independent (Session.feed host program) endpoint stream ↔
        (wireDecoder host).EndsAtReject stream) ∧
      ∀ chunks : List Bytes, chunks.flatten = stream →
        (∃ later buffer, Decodes (Client.feed host program chunks ⟨endpoint, []⟩) endpoint
          (((wireDecoder host).parse stream).values ++ later) buffer) ∧
        ∃ later buffer, Decodes (Session.feed host program chunks ⟨endpoint, []⟩) endpoint
          (((wireDecoder host).parse stream).values ++ later) buffer := by
  refine ⟨(Client.receiveLoop host program).independent_iff endpoint stream hreturns,
    (Session.receiveLoop host program).independent_iff endpoint stream hreturns, ?_⟩
  rintro chunks rfl
  exact ⟨(Client.receiveLoop host program).delivers_parse endpoint chunks hreturns,
    (Session.receiveLoop host program).delivers_parse endpoint chunks hreturns⟩

/-- A complete frame of version 2 without payload. -/
def unsupportedFrame : Bytes := [2, 0, 0, 0, 0, 0, 0, 0, 0, 0, 0, 0]

/-- A rejected frame at the end does no harm. -/
theorem cuts_irrelevant_iff_unsupported :
    ¬ (wireDecoder (.wide .little)).Clean
        ((wireCodec .little).encode greeting ++ unsupportedFrame) ∧
      ReceiveLoop.Independent (Client.feed (.wide .little) Program.silent) ⟨(), []⟩
        ((wireCodec .little).encode greeting ++ unsupportedFrame) ∧
      ReceiveLoop.Independent (Session.feed (.wide .little) Program.silent) ⟨(), []⟩
        ((wireCodec .little).encode greeting ++ unsupportedFrame) := by
  obtain ⟨hclient, hsession, -⟩ := cuts_irrelevant_iff (.wide .little) Program.silent
    Program.silent_returns ⟨(), []⟩ ((wireCodec .little).encode greeting ++ unsupportedFrame)
  have hends : (wireDecoder (.wide .little)).EndsAtReject
      ((wireCodec .little).encode greeting ++ unsupportedFrame) :=
    (wireDecoder (.wide .little)).endsAtReject_iff_clean_dropLast.mpr (by decide)
  exact ⟨by decide, hclient.mpr hends, hsession.mpr hends⟩

/-- In one piece with an unsupported frame a valid frame is lost; behind a cut it is delivered. -/
theorem cuts_relevant :
    ¬ ReceiveLoop.Independent (Client.feed (.wide .little) Program.silent) ⟨(), []⟩
        (unsupportedFrame ++ (wireCodec .little).encode greeting) ∧
      ¬ ReceiveLoop.Independent (Session.feed (.wide .little) Program.silent) ⟨(), []⟩
        (unsupportedFrame ++ (wireCodec .little).encode greeting) := by
  have hends : ¬ (wireDecoder (.wide .little)).EndsAtReject
      (unsupportedFrame ++ (wireCodec .little).encode greeting) := fun hends ↦
    absurd (hends unsupportedFrame _ rfl (by decide)) (by decide)
  constructor
  · rwa [← (Client.receiveLoop (.wide .little) Program.silent).independent_iff ⟨(), []⟩ _
      Program.silent_returns] at hends
  · rwa [← (Session.receiveLoop (.wide .little) Program.silent).independent_iff ⟨(), []⟩ _
      Program.silent_returns] at hends

end LibuvNet
