import LibuvNet.Session.Nesting

/-!
# Feeding a session a stream of frames

A session is fed a stream of serialized packets in pieces.  As long as no handler feeds the session
itself and none throws, each call hands over the messages it completes, one pass a message, and
keeps the unfinished one.  Up to the first message at which that fails, what the session has
recorded is known, and so are the calls that are still to come.
-/

namespace LibuvNet

open Foundation

namespace Session

variable {σ V H : Type*} (order : ByteOrder) (reentrant : ReentrantProgram σ V H)

/-- The packets of some messages that have a handler. -/
def heardPackets (messages : List WirePacket) : List Packet :=
  (messages.map WirePacket.packet).filter fun packet ↦ Heard reentrant packet

/-- The calls of handlers that hand every message over once, from a position on. -/
def deliveries : ℕ → List WirePacket → List (ℕ × Packet)
  | _, [] => []
  | position, message :: messages =>
    (if Heard reentrant message.packet then [(position, message.packet)] else []) ++
      deliveries (position + ((wireCodec order).encode message).length) messages

/-- Handing the messages over leads from a state to a state, without exceptions and without a
handler that feeds the session. -/
def Calm : List WirePacket → σ → σ → Prop
  | [], state, after => after = state
  | message :: messages, state, after =>
    ∃ next, (router reentrant.program).dispatch message.packet state = .returned next ∧
      ¬ ReentersAt reentrant message.packet state ∧ Calm messages next after

variable {order} {reentrant}

theorem map_snd_deliveries (position : ℕ) (messages : List WirePacket) :
    (deliveries order reentrant position messages).map Prod.snd =
      heardPackets reentrant messages := by
  induction messages generalizing position with
  | nil => rfl
  | cons message messages ih =>
    unfold deliveries heardPackets
    rw [List.map_append, ih, List.map_cons, List.filter_cons]
    by_cases hheard : Heard reentrant message.packet
    · rw [if_pos hheard, if_pos (decide_eq_true hheard)]
      rfl
    · rw [if_neg hheard, if_neg (by simpa using hheard)]
      rfl

theorem le_of_mem_deliveries {position : ℕ} {messages : List WirePacket} {call : ℕ × Packet}
    (hcall : call ∈ deliveries order reentrant position messages) : position ≤ call.1 := by
  induction messages generalizing position with
  | nil => cases hcall
  | cons message messages ih =>
    rcases List.mem_append.mp hcall with hfirst | hlater
    · split at hfirst
      · rw [List.mem_singleton.mp hfirst]
      · cases hfirst
    · exact (Nat.le_add_right _ _).trans (ih hlater)

theorem deliveries_nodup (position : ℕ) (messages : List WirePacket) :
    ((deliveries order reentrant position messages).map Prod.fst).Nodup := by
  induction messages generalizing position with
  | nil => exact List.nodup_nil
  | cons message messages ih =>
    unfold deliveries
    rw [List.map_append]
    split
    · apply List.nodup_cons.mpr
      refine ⟨?_, ih _⟩
      intro hmem
      obtain ⟨call, hcall, hposition⟩ := List.mem_map.mp hmem
      have hle := le_of_mem_deliveries hcall
      have hsize : 0 < ((wireCodec order).encode message).length := by
        change 0 < (message.packet.serialize (.wide order) message.padding).length
        rw [Packet.serialize_length]
        exact Nat.add_pos_left (by decide) _
      omega
    · exact ih _

theorem deliveries_append (position : ℕ) (first second : List WirePacket) :
    deliveries order reentrant position (first ++ second) =
      deliveries order reentrant position first ++
        deliveries order reentrant (position + ((wireCodec order).stream first).length) second := by
  induction first generalizing position with
  | nil => rfl
  | cons message first ih =>
    rw [List.cons_append, deliveries, deliveries, ih, FrameCodec.stream_cons, List.length_append,
      List.append_assoc, Nat.add_assoc]

namespace Calm

variable {messages : List WirePacket} {state after : σ}

theorem forEach (hcalm : Calm reentrant messages state after) :
    Outcome.forEach (router reentrant.program).dispatch (messages.map WirePacket.packet) state =
      .returned after := by
  induction messages generalizing state with
  | nil =>
    rw [hcalm]
    rfl
  | cons message messages ih =>
    obtain ⟨next, hnext, -, hlater⟩ := hcalm
    rw [List.map_cons, Outcome.forEach_cons_returned hnext]
    exact ih hlater

/-- The messages in front, then the messages behind. -/
theorem append {first second : List WirePacket} :
    Calm reentrant (first ++ second) state after ↔
      ∃ between, Calm reentrant first state between ∧ Calm reentrant second between after := by
  induction first generalizing state with
  | nil => exact ⟨fun hcalm ↦ ⟨state, rfl, hcalm⟩, fun ⟨_, rfl, hcalm⟩ ↦ hcalm⟩
  | cons message first ih =>
    constructor
    · rintro ⟨next, hnext, hreenters, hlater⟩
      obtain ⟨between, hfirst, hsecond⟩ := ih.mp hlater
      exact ⟨between, ⟨next, hnext, hreenters, hfirst⟩, hsecond⟩
    · rintro ⟨between, ⟨next, hnext, hreenters, hfirst⟩, hsecond⟩
      exact ⟨next, hnext, hreenters, ih.mpr ⟨between, hfirst, hsecond⟩⟩

end Calm

variable (reentrant) in
/-- Either all is calm, or there is a first message at which it is not. -/
theorem calm_or_first_stop (messages : List WirePacket) (state : σ) :
    (∃ after, Calm reentrant messages state after) ∨
      ∃ front message behind before, messages = front ++ message :: behind ∧
        Calm reentrant front state before ∧
        (ReentersAt reentrant message.packet before ∨ ¬ ReentersAt reentrant message.packet before ∧
          ∃ error after, (router reentrant.program).dispatch message.packet before =
            .threw error after) := by
  induction messages generalizing state with
  | nil => exact .inl ⟨state, rfl⟩
  | cons message messages ih =>
    by_cases hreenters : ReentersAt reentrant message.packet state
    · exact .inr ⟨[], message, messages, state, rfl, rfl, .inl hreenters⟩
    cases hdispatch : (router reentrant.program).dispatch message.packet state with
    | threw error after =>
      exact .inr ⟨[], message, messages, state, rfl, rfl,
        .inr ⟨hreenters, error, after, hdispatch⟩⟩
    | returned next =>
      rcases ih next with ⟨after, hcalm⟩ | ⟨front, stop, behind, before, rfl, hcalm, hstop⟩
      · exact .inl ⟨after, next, hdispatch, hreenters, hcalm⟩
      · exact .inr ⟨message :: front, stop, behind, before, rfl,
          ⟨next, hdispatch, hreenters, hcalm⟩, hstop⟩

/-! ## Passes over whole messages -/

/-- From one reader to another some messages have been handed over. -/
structure Handed (order : ByteOrder) (reentrant : ReentrantProgram σ V H) (reader : Reader σ)
    (messages : List WirePacket) (next : Reader σ) : Prop where
  removed : next.removed = reader.removed + ((wireCodec order).stream messages).length
  invoked : next.invoked =
    reader.invoked ++ deliveries order reentrant reader.removed messages
  refed : next.refed = reader.refed

namespace Handed

variable {reader between next : Reader σ}

theorem refl (reader : Reader σ) : Handed order reentrant reader [] reader where
  removed := rfl
  invoked := (List.append_nil _).symm
  refed := rfl

theorem trans {first second : List WirePacket}
    (hfirst : Handed order reentrant reader first between)
    (hsecond : Handed order reentrant between second next) :
    Handed order reentrant reader (first ++ second) next where
  removed := by
    rw [hsecond.removed, hfirst.removed, FrameCodec.stream_append, List.length_append,
      Nat.add_assoc]
  invoked := by
    rw [hsecond.invoked, hfirst.invoked, hfirst.removed, deliveries_append, List.append_assoc]
  refed := hsecond.refed.trans hfirst.refed

/-- Bytes at the end of the buffer do not matter. -/
theorem of_insert {messages : List WirePacket} {data : Bytes}
    (hhanded : Handed order reentrant (reader.insert reentrant.grow data) messages next) :
    Handed order reentrant reader messages next :=
  ⟨hhanded.removed, hhanded.invoked, hhanded.refed⟩

end Handed

/-- The same within one call: passes of the loop have handed the messages over. -/
structure Passes (order : ByteOrder) (reentrant : ReentrantProgram σ V H) (reader : Reader σ)
    (messages : List WirePacket) (next : Reader σ) : Prop
    extends Handed order reentrant reader messages next where
  process : ∀ fuel, process (.wide order) reentrant (fuel + messages.length) reader =
    process (.wide order) reentrant fuel next

namespace Passes

variable {reader between next : Reader σ}

theorem refl (reader : Reader σ) : Passes order reentrant reader [] reader where
  toHanded := .refl reader
  process _ := rfl

theorem trans {first second : List WirePacket}
    (hfirst : Passes order reentrant reader first between)
    (hsecond : Passes order reentrant between second next) :
    Passes order reentrant reader (first ++ second) next where
  toHanded := hfirst.toHanded.trans hsecond.toHanded
  process fuel := by
    calc Session.process (.wide order) reentrant (fuel + (first ++ second).length) reader
        = Session.process (.wide order) reentrant (fuel + second.length + first.length) reader := by
          rw [List.length_append, Nat.add_assoc, Nat.add_comm second.length]
      _ = Session.process (.wide order) reentrant (fuel + second.length) between :=
          hfirst.process (fuel + second.length)
      _ = Session.process (.wide order) reentrant fuel next := hsecond.process fuel

end Passes

section Message

variable {reader : Reader σ} {message : WirePacket} {rest : Bytes}

theorem scan_message (hbytes : reader.buffer.bytes = (wireCodec order).encode message ++ rest) :
    scanFrame (.wide order) reader.buffer.bytes =
      .frame message.packet ((wireCodec order).encode message).length := by
  rw [hbytes]
  exact (wireCodec order).scan_encode_append message rest

/-- A message that returns without feeding the session is taken off the buffer. -/
theorem passes_message {next : σ}
    (hbytes : reader.buffer.bytes = (wireCodec order).encode message ++ rest)
    (hreenters : ¬ ReentersAt reentrant message.packet reader.state)
    (hdispatch : (router reentrant.program).dispatch message.packet reader.state =
      .returned next) :
    ∃ later : Reader σ, later.buffer.bytes = rest ∧ later.state = next ∧
      Passes order reentrant reader [message] later := by
  let handled := handOver reentrant reader message.packet next
  let size := ((wireCodec order).encode message).length
  refine ⟨handled.eraseFront size, ?_, rfl, ⟨?_, ?_, rfl⟩, ?_⟩
  · change reader.buffer.bytes.drop size = rest
    rw [hbytes, List.drop_left]
  · change reader.removed + size = _
    rw [FrameCodec.stream_cons, FrameCodec.stream_nil, List.append_nil]
  · change handled.invoked = reader.invoked ++ (_ ++ [])
    rw [List.append_nil]
    rfl
  · intro fuel
    have hsize : sizeofPacketHeader + (PacketHeader.view order
        handled.buffer.bytes).length.toNat = size :=
      size_of_frame (scan_message hbytes)
    calc process (.wide order) reentrant (fuel + [message].length) reader
        = afterHandling (.wide order) reentrant fuel reader (.ok (.returned handled)) := by
          rw [List.length_singleton, process_of_frame fuel (scan_message hbytes),
            handlePacketBy_of_calm hreenters, hdispatch]
          rfl
      _ = process (.wide order) reentrant fuel (handled.eraseFront (sizeofPacketHeader +
            (PacketHeader.view order handled.buffer.bytes).length.toNat)) := if_pos rfl
      _ = process (.wide order) reentrant fuel (handled.eraseFront size) := by rw [hsize]

/-- Calm messages are taken off the buffer one after the other. -/
theorem passes_calm {messages : List WirePacket} {after : σ} {reader : Reader σ}
    (hbytes : reader.buffer.bytes = (wireCodec order).stream messages ++ rest)
    (hcalm : Calm reentrant messages reader.state after) :
    ∃ later : Reader σ, later.buffer.bytes = rest ∧ later.state = after ∧
      Passes order reentrant reader messages later := by
  induction messages generalizing reader with
  | nil => exact ⟨reader, hbytes, hcalm.symm, .refl reader⟩
  | cons message messages ih =>
    obtain ⟨next, hnext, hreenters, hlater⟩ := hcalm
    rw [FrameCodec.stream_cons, List.append_assoc] at hbytes
    obtain ⟨between, hbetween, rfl, hfirst⟩ := passes_message hbytes hreenters hnext
    obtain ⟨later, hrest, hafter, hsecond⟩ := ih hbetween hlater
    exact ⟨later, hrest, hafter, hfirst.trans hsecond⟩

/-- A message that throws stays, and the exception leaves the call. -/
theorem process_message_threw {error : Exn} {after : σ} (fuel : ℕ)
    (hbytes : reader.buffer.bytes = (wireCodec order).encode message ++ rest)
    (hreenters : ¬ ReentersAt reentrant message.packet reader.state)
    (hdispatch : (router reentrant.program).dispatch message.packet reader.state =
      .threw error after) :
    process (.wide order) reentrant (fuel + 1) reader =
      .ok (.threw error (handOver reentrant reader message.packet after)) := by
  rw [process_of_frame fuel (scan_message hbytes), handlePacketBy_of_calm hreenters,
    hdispatch]
  rfl

end Message

/-! ## Calls -/

/-- Where one split of a list lies before another one at an item. -/
theorem append_cons_cases {α : Type*} {front behind first second : List α} {item : α}
    (hsplit : front ++ item :: behind = first ++ second) :
    (∃ between, front = first ++ between ∧ second = between ++ item :: behind) ∨
      ∃ between, first = front ++ item :: between ∧ behind = between ++ second := by
  rcases List.append_eq_append_iff.mp hsplit with ⟨between, hfirst, hitem⟩ |
    ⟨between, hfront, hsecond⟩
  · rcases List.cons_eq_append_iff.mp hitem with ⟨rfl, hsecond⟩ | ⟨between, rfl, hbehind⟩
    · exact .inl ⟨[], by rw [hfirst, List.append_nil, List.append_nil], hsecond⟩
    · exact .inr ⟨between, hfirst, hbehind⟩
  · exact .inl ⟨between, hfront, hsecond⟩

section Calls

theorem scan_start (state : σ) :
    scanFrame (.wide order) (Reader.start state).buffer.bytes = .more :=
  (wireCodec order).scan_nil

variable {reader : Reader σ} {chunk : Bytes} {chunks : List Bytes} {fuel : ℕ}

/-- A call that supplies calm messages hands them over and keeps what is behind them. -/
theorem appendBy_calm {messages : List WirePacket} {tail : Bytes} {after : σ}
    (hbytes : reader.buffer.bytes ++ chunk = (wireCodec order).stream messages ++ tail)
    (htail : scanFrame (.wide order) tail = .more)
    (hcalm : Calm reentrant messages reader.state after) (hfuel : messages.length < fuel) :
    ∃ later : Reader σ, appendBy (.wide order) reentrant fuel chunk reader = .ok (.returned later) ∧
      later.buffer.bytes = tail ∧ later.state = after ∧
      Handed order reentrant reader messages later := by
  have hinsert : (reader.insert reentrant.grow chunk).buffer.bytes =
      (wireCodec order).stream messages ++ tail :=
    (ByteVector.insert_bytes _ _ _).trans hbytes
  obtain ⟨later, hrest, hafter, hpasses⟩ := passes_calm hinsert hcalm
  obtain ⟨extra, rfl⟩ := Nat.exists_eq_add_of_lt hfuel
  refine ⟨later, ?_, hrest, hafter, hpasses.toHanded.of_insert⟩
  have hmore : scanFrame (.wide order) later.buffer.bytes = .more := by rw [hrest, htail]
  calc appendBy (.wide order) reentrant (messages.length + extra + 1) chunk reader
      = process (.wide order) reentrant (extra + 1 + messages.length)
          (reader.insert reentrant.grow chunk) := by
        rw [appendBy, Nat.add_assoc, Nat.add_comm]
    _ = process (.wide order) reentrant (extra + 1) later := hpasses.process (extra + 1)
    _ = .ok (.returned later) := process_of_more extra hmore

/-- A session that is fed calm messages in any pieces hands each of them over once. -/
theorem feedBy_calm {messages : List WirePacket} {after : σ}
    (hmore : scanFrame (.wide order) reader.buffer.bytes = .more)
    (hsplit : reader.buffer.bytes ++ chunks.flatten = (wireCodec order).stream messages)
    (hcalm : Calm reentrant messages reader.state after) (hfuel : messages.length < fuel) :
    ∃ last : Reader σ, feedBy (.wide order) reentrant fuel chunks reader = .ok last ∧
      Handed order reentrant reader messages last := by
  induction chunks generalizing reader messages with
  | nil =>
    rw [List.flatten_nil, List.append_nil] at hsplit
    rw [hsplit] at hmore
    obtain rfl := (wireCodec order).eq_nil_of_scan_stream hmore
    exact ⟨reader, rfl, .refl reader⟩
  | cons chunk chunks ih =>
    rw [List.flatten_cons, ← List.append_assoc] at hsplit
    obtain ⟨first, second, tail, rfl, hfront, htail, hback⟩ :=
      (wireCodec order).stream_split hsplit
    obtain ⟨between, hfirst, hsecond⟩ := Calm.append.mp hcalm
    rw [List.length_append] at hfuel
    have hfirstFuel : first.length < fuel := by omega
    obtain ⟨later, hcall, hrest, rfl, hhanded⟩ := appendBy_calm hfront htail hfirst hfirstFuel
    have hlater : scanFrame (.wide order) later.buffer.bytes = .more := by rw [hrest]; exact htail
    obtain ⟨last, hlast, hhandedLater⟩ := ih hlater (by rw [hrest, hback]) hsecond (by omega)
    refine ⟨last, ?_, hhanded.trans hhandedLater⟩
    rw [feedBy_cons, hcall]
    exact hlast

/-- Bytes of a stream for which more is needed do not reach the end of its first message, and so
not of any other. -/
theorem length_lt_stream_of_more {held back : Bytes} {front behind : List WirePacket}
    {message : WirePacket} (hmore : scanFrame (.wide order) held = .more)
    (hsplit : held ++ back = (wireCodec order).stream (front ++ message :: behind)) :
    held.length < ((wireCodec order).stream (front ++ [message])).length := by
  obtain ⟨first, others, hfront⟩ : ∃ first others, front ++ [message] = first :: others := by
    cases front with
    | nil => exact ⟨message, [], rfl⟩
    | cons first front => exact ⟨first, front ++ [message], rfl⟩
  rw [List.append_cons, hfront, List.cons_append, FrameCodec.stream_cons] at hsplit
  rw [hfront, FrameCodec.stream_cons, List.length_append]
  by_contra hlong
  obtain ⟨rest, hheld⟩ : (wireCodec order).encode first <+: held :=
    List.prefix_of_prefix_length_le ⟨_, hsplit.symm⟩ ⟨_, rfl⟩ (by omega)
  have hscan := (wireCodec order).scan_encode_append first rest
  rw [hheld] at hscan
  exact absurd (hmore.symm.trans hscan) nofun

/-- A call that supplies a message arrives at it once the calm messages before it are handed
over. -/
theorem feedBy_arrives (chunks : List Bytes) {front between : List WirePacket}
    {message : WirePacket} {before : σ} {tail : Bytes}
    (hbytes : reader.buffer.bytes ++ chunk =
      (wireCodec order).stream (front ++ message :: between) ++ tail)
    (hcalm : Calm reentrant front reader.state before) (hfuel : front.length < fuel) :
    ∃ (arrived : Reader σ) (rest : Bytes) (fewer : ℕ),
      arrived.buffer.bytes = (wireCodec order).encode message ++ rest ∧ arrived.state = before ∧
      Handed order reentrant reader front arrived ∧
      feedBy (.wide order) reentrant fuel (chunk :: chunks) reader =
        (process (.wide order) reentrant (fewer + 1) arrived).bind fun outcome ↦
          feedBy (.wide order) reentrant fuel chunks outcome.last := by
  have hinsert : (reader.insert reentrant.grow chunk).buffer.bytes =
      (wireCodec order).stream front ++ ((wireCodec order).encode message ++
        ((wireCodec order).stream between ++ tail)) := by
    calc (reader.insert reentrant.grow chunk).buffer.bytes
        = (wireCodec order).stream (front ++ message :: between) ++ tail :=
          (ByteVector.insert_bytes _ _ _).trans hbytes
      _ = _ := by simp only [FrameCodec.stream_append, FrameCodec.stream_cons, List.append_assoc]
  obtain ⟨arrived, hrest, hstate, hpasses⟩ := passes_calm hinsert hcalm
  obtain ⟨fewer, rfl⟩ := Nat.exists_eq_add_of_lt hfuel
  refine ⟨arrived, _, fewer, hrest, hstate, hpasses.toHanded.of_insert, ?_⟩
  have hprocess := hpasses.process (fewer + 1)
  rw [feedBy_cons, appendBy, ← hprocess, Nat.add_assoc, Nat.add_comm]

/-- Where the rest that was kept is less than a frame, a message yet to come is in some chunk. -/
theorem ne_nil_of_more {bytes : Bytes} {front behind : List WirePacket} {message : WirePacket}
    (hmore : scanFrame (.wide order) bytes = .more)
    (hsplit : bytes ++ chunks.flatten = (wireCodec order).stream (front ++ message :: behind)) :
    chunks ≠ [] := by
  rintro rfl
  rw [List.flatten_nil, List.append_nil] at hsplit
  rw [hsplit] at hmore
  have hnil := (wireCodec order).eq_nil_of_scan_stream hmore
  simp at hnil

/-- A session that is fed a stream arrives at every message before which all is calm, in the call
that supplies its last byte; `later` are the calls behind it. -/
theorem feedBy_until {front behind : List WirePacket} {message : WirePacket} {before : σ}
    (hmore : scanFrame (.wide order) reader.buffer.bytes = .more)
    (hsplit : reader.buffer.bytes ++ chunks.flatten =
      (wireCodec order).stream (front ++ message :: behind))
    (hcalm : Calm reentrant front reader.state before) (hfuel : front.length < fuel) :
    ∃ (later : List Bytes) (arrived : Reader σ) (rest : Bytes) (fewer : ℕ),
      arrived.buffer.bytes = (wireCodec order).encode message ++ rest ∧ arrived.state = before ∧
      Handed order reentrant reader front arrived ∧
      (later = [] ↔ reader.buffer.bytes.length + chunks.dropLast.flatten.length <
        ((wireCodec order).stream (front ++ [message])).length) ∧
      feedBy (.wide order) reentrant fuel chunks reader =
        (process (.wide order) reentrant (fewer + 1) arrived).bind fun outcome ↦
          feedBy (.wide order) reentrant fuel later outcome.last := by
  induction chunks generalizing reader front with
  | nil => exact absurd rfl (ne_nil_of_more hmore hsplit)
  | cons chunk chunks ih =>
    have hwhole := hsplit
    rw [List.flatten_cons, ← List.append_assoc] at hsplit
    obtain ⟨first, second, tail, hmessages, hfront, htail, hback⟩ :=
      (wireCodec order).stream_split hsplit
    have hlength : reader.buffer.bytes.length + chunk.length =
        ((wireCodec order).stream first).length + tail.length := by
      rw [← List.length_append, hfront, List.length_append]
    rcases append_cons_cases hmessages with ⟨between, rfl, hsecond⟩ | ⟨between, hfirst, rfl⟩
    · -- The call ends before the message.
      obtain ⟨state, hcalmFirst, hcalmBetween⟩ := Calm.append.mp hcalm
      rw [List.length_append] at hfuel
      have hfirstFuel : first.length < fuel := by omega
      obtain ⟨next, hcall, hrest, rfl, hhanded⟩ :=
        appendBy_calm hfront htail hcalmFirst hfirstFuel
      rw [hsecond] at hback
      obtain ⟨later, arrived, rest, fewer, hbytes, hstate, harrived, hlast, hfeed⟩ :=
        ih (by rw [hrest]; exact htail) (by rw [hrest, hback]) hcalmBetween (by omega)
      have hne : chunks ≠ [] := ne_nil_of_more htail hback
      refine ⟨later, arrived, rest, fewer, hbytes, hstate, hhanded.trans harrived, ?_, ?_⟩
      · have hstream : ((wireCodec order).stream (first ++ between ++ [message])).length =
            ((wireCodec order).stream first).length +
              ((wireCodec order).stream (between ++ [message])).length := by
          rw [List.append_assoc, FrameCodec.stream_append, List.length_append]
        rw [hlast, hrest, hstream, List.dropLast_cons_of_ne_nil hne, List.flatten_cons,
          List.length_append]
        omega
      · rw [feedBy_cons, hcall]
        exact hfeed
    · -- The call supplies the message.
      subst hfirst
      obtain ⟨arrived, rest, fewer, hbytes, hstate, harrived, hfeed⟩ :=
        feedBy_arrives chunks hfront hcalm hfuel
      refine ⟨chunks, arrived, rest, fewer, hbytes, hstate, harrived, ?_, hfeed⟩
      have hstream : ((wireCodec order).stream (front ++ message :: between)).length =
          ((wireCodec order).stream (front ++ [message])).length +
            ((wireCodec order).stream between).length := by
        rw [List.append_cons, FrameCodec.stream_append, List.length_append]
      constructor
      · rintro rfl
        rw [List.dropLast_singleton, List.flatten_nil, List.length_nil, Nat.add_zero]
        exact length_lt_stream_of_more hmore hwhole
      · intro hshort
        by_contra hne
        rw [List.dropLast_cons_of_ne_nil hne, List.flatten_cons, List.length_append] at hshort
        omega

end Calls

end Session

end LibuvNet
