import LibuvNet.Endpoint.Receive
import LibuvNet.Foundation.Loop

/-!
# Progress of the receive loops

One pass of `Client::append_to_buffer` and of `Session::process_buffer`, as what it does to the
receive buffer: leave it, clear it, or erase a range at its front.  The range is computed from the
length field, and where `size_t` has 32 bits the size that is compared with the buffer can wrap
around to less than a header.  `deserialize` rejects what is shorter than a header, so a range is
erased only where the size has not wrapped.
-/

namespace LibuvNet

open Foundation

variable {σ V H : Type*}

/-- What one pass of a receive loop does. -/
inductive Pass (σ H : Type*) where
  | leaves
  | clears
  | throws (error : Exn) (endpoint : Endpoint σ H)
  | erases (count : ℕ) (endpoint : Endpoint σ H)

namespace Pass

/-- How a pass ends: the loop is left, or goes on behind the erased range. -/
def after (receiver : Receiver σ H) : Pass σ H → Outcome Exn (Receiver σ H) ⊕ Receiver σ H
  | leaves => .inl (.returned receiver)
  | clears => .inl (.returned { receiver with buffer := [] })
  | throws error endpoint => .inl (.threw error { receiver with toEndpoint := endpoint })
  | erases count endpoint => .inr ⟨endpoint, receiver.buffer.drop count⟩

/-- A range that is erased lies inside the buffer and has the size of a header at least. -/
def ErasesInside (buffer : Bytes) : Pass σ H → Prop
  | erases count _ => sizeofPacketHeader ≤ count ∧ count ≤ buffer.length
  | _ => True

end Pass

/-- One pass of the loop of `Client::append_to_buffer`. -/
def Client.appendPass (host : Host) (program : Program σ V H) (client : Receiver σ H) :
    Pass σ H :=
  if sizeofPacketHeader ≤ client.buffer.length then
    let header := PacketHeader.view host.order client.buffer
    let messageSize := host.sizeAdd sizeofPacketHeader header.length.toNat
    if client.buffer.length < messageSize then .leaves
    else
      match Packet.empty.deserialize host client.buffer messageSize with
      | (false, _) => .clears
      | (true, packet) =>
        match dispatch program packet client.toEndpoint with
        | .threw error endpoint => .throws error endpoint
        | .returned endpoint => .erases messageSize endpoint
  else .leaves

/-- One pass of the loop of `Session::process_buffer`. -/
def Session.processPass (host : Host)
    (handle : Packet → Endpoint σ H → Outcome Exn (Endpoint σ H)) (session : Receiver σ H) :
    Pass σ H :=
  if session.buffer.isEmpty then .leaves
  else if session.buffer.length < sizeofPacketHeader then .leaves
  else
    let header := PacketHeader.view host.order session.buffer
    if session.buffer.length < host.sizeAdd sizeofPacketHeader header.length.toNat then .leaves
    else
      match Packet.empty.deserialize host session.buffer
          (host.sizeAdd sizeofPacketHeader header.length.toNat) with
      | (false, _) => .clears
      | (true, packet) =>
        match handle packet session.toEndpoint with
        | .threw error endpoint => .throws error endpoint
        | .returned endpoint => .erases (sizeofPacketHeader + header.length.toNat) endpoint

section Unrolled

variable {host : Host} {program : Program σ V H}
  {handle : Packet → Endpoint σ H → Outcome Exn (Endpoint σ H)} {receiver : Receiver σ H}

/-- What is left of a loop after one pass. -/
theorem Client.appendLoop_succ (fuel : ℕ) :
    Client.appendLoop host program (fuel + 1) receiver =
      ((Client.appendPass host program receiver).after receiver).elim id
        (Client.appendLoop host program fuel) := by
  unfold Client.appendLoop Client.appendPass
  simp only
  split_ifs with hheader hincomplete
  · rfl
  · rcases Packet.empty.deserialize host receiver.buffer _ with ⟨accepted, packet⟩
    cases accepted with
    | false => rfl
    | true =>
      simp only
      cases dispatch program packet receiver.toEndpoint with
      | threw error endpoint => rfl
      | returned endpoint => rfl
  · rfl

theorem Session.processLoop_succ (fuel : ℕ) :
    Session.processLoop host handle (fuel + 1) receiver =
      ((Session.processPass host handle receiver).after receiver).elim id
        (Session.processLoop host handle fuel) := by
  unfold Session.processLoop Session.processPass
  simp only
  split_ifs with hempty hheader hincomplete
  · rfl
  · rfl
  · rfl
  · rcases Packet.empty.deserialize host receiver.buffer _ with ⟨accepted, packet⟩
    cases accepted with
    | false => rfl
    | true =>
      simp only
      cases handle packet receiver.toEndpoint with
      | threw error endpoint => rfl
      | returned endpoint => rfl

/-- A loop that drains the buffer has fuel enough in its length. -/
theorem unrolled_of_le {unrolled : ℕ → Receiver σ H → Outcome Exn (Receiver σ H)}
    (hdrain : ∀ fuel, unrolled fuel receiver =
      ((wireDecoder host).drainUpTo handle fuel receiver.buffer receiver.toEndpoint).map .ofPair)
    {fuel : ℕ} (hfuel : receiver.buffer.length ≤ fuel) :
    unrolled fuel receiver = unrolled receiver.buffer.length receiver :=
  calc
    unrolled fuel receiver =
        ((wireDecoder host).drain handle receiver.buffer receiver.toEndpoint).map .ofPair := by
      rw [hdrain, (wireDecoder host).drainUpTo_eq_drain handle hfuel]
    _ = unrolled receiver.buffer.length receiver := (hdrain _).symm

theorem Client.appendLoop_of_le {fuel : ℕ} (hfuel : receiver.buffer.length ≤ fuel) :
    Client.appendLoop host program fuel receiver =
      Client.appendLoop host program receiver.buffer.length receiver :=
  unrolled_of_le
    (fun fuel ↦ appendLoop_eq_drainUpTo host program fuel (receiver.buffer, receiver.toEndpoint))
    hfuel

theorem Session.processLoop_of_le {fuel : ℕ} (hfuel : receiver.buffer.length ≤ fuel) :
    Session.processLoop host handle fuel receiver =
      Session.processLoop host handle receiver.buffer.length receiver :=
  unrolled_of_le
    (fun fuel ↦ processLoop_eq_drainUpTo host handle fuel (receiver.buffer, receiver.toEndpoint))
    hfuel

/-- The size that is compared with the buffer, once the frame has been accepted. -/
theorem accepted_size {buffer : Bytes} {packet : Packet}
    (hcomplete : ¬ buffer.length < messageSize host buffer)
    (haccepted : Packet.empty.deserialize host buffer (messageSize host buffer) = (true, packet)) :
    messageSize host buffer =
        sizeofPacketHeader + (PacketHeader.view host.order buffer).length.toNat ∧
      sizeofPacketHeader ≤ messageSize host buffer ∧ messageSize host buffer ≤ buffer.length := by
  have hheader := (Packet.deserialize_eq_true haccepted).1
  refine ⟨?_, hheader, not_lt.mp hcomplete⟩
  exact (messageSize_lt_or_eq host buffer).resolve_left (not_lt.mpr hheader)

theorem Client.appendPass_erasesInside (receiver : Receiver σ H) :
    (Client.appendPass host program receiver).ErasesInside receiver.buffer := by
  unfold Client.appendPass
  simp only
  split_ifs with hheader hincomplete
  · trivial
  · rcases haccepted : Packet.empty.deserialize host receiver.buffer _ with ⟨accepted, packet⟩
    cases accepted with
    | false => trivial
    | true =>
      simp only
      cases dispatch program packet receiver.toEndpoint with
      | threw error endpoint => trivial
      | returned endpoint => exact (accepted_size hincomplete haccepted).2
  · trivial

theorem Session.processPass_erasesInside (receiver : Receiver σ H) :
    (Session.processPass host handle receiver).ErasesInside receiver.buffer := by
  unfold Session.processPass
  simp only
  split_ifs with hempty hheader hincomplete
  · trivial
  · trivial
  · trivial
  · rcases haccepted : Packet.empty.deserialize host receiver.buffer _ with ⟨accepted, packet⟩
    cases accepted with
    | false => trivial
    | true =>
      obtain ⟨hsize, hinside⟩ := accepted_size hincomplete haccepted
      rw [hsize] at hinside
      simp only
      cases handle packet receiver.toEndpoint with
      | threw error endpoint => trivial
      | returned endpoint => exact hinside

/-- A pass that goes on has made the buffer shorter by the size of a header. -/
theorem Pass.length_of_after {pass : Pass σ H} (hinside : pass.ErasesInside receiver.buffer)
    {next : Receiver σ H} (hafter : pass.after receiver = .inr next) :
    next.buffer.length + sizeofPacketHeader ≤ receiver.buffer.length := by
  cases pass with
  | leaves => simp [after] at hafter
  | clears => simp [after] at hafter
  | throws error endpoint => simp [after] at hafter
  | erases count endpoint =>
    obtain ⟨hcount, hlength⟩ := hinside
    rw [after, Sum.inr.injEq] at hafter
    rw [← hafter, List.length_drop]
    omega

end Unrolled

/-- Every pass of a loop, on any receiver, leaves the loop, or empties the buffer and leaves it, or
erases a range inside the buffer of the size of a header at least; and from this receiver the loop
is left with this outcome after no more passes than there are headers in the buffer, and one. -/
structure LoopProgresses (pass : Receiver σ H → Pass σ H) (receiver : Receiver σ H)
    (outcome : Outcome Exn (Receiver σ H)) : Prop where
  erasesInside : ∀ receiver, (pass receiver).ErasesInside receiver.buffer
  ends : loopUpTo (fun receiver ↦ (pass receiver).after receiver)
    (receiver.buffer.length / sizeofPacketHeader + 1) receiver = some outcome

/-- A loop whose ranges are inside ends, as its unrolling says. -/
theorem LoopProgresses.of_unrolled (pass : Receiver σ H → Pass σ H)
    (unrolled : ℕ → Receiver σ H → Outcome Exn (Receiver σ H))
    (hinside : ∀ receiver, (pass receiver).ErasesInside receiver.buffer)
    (hsucc : ∀ fuel receiver, unrolled (fuel + 1) receiver =
      ((pass receiver).after receiver).elim id (unrolled fuel))
    (receiver : Receiver σ H) :
    LoopProgresses pass receiver (unrolled (receiver.buffer.length + 1) receiver) := by
  refine ⟨hinside, ?_⟩
  have hheader : 0 < sizeofPacketHeader := by decide
  obtain ⟨outcome, hends⟩ := loopUpTo_of_progress hheader
    (fun receiver : Receiver σ H ↦ receiver.buffer.length)
    (fun hafter ↦ Pass.length_of_after (hinside _) hafter) receiver
  have hmore : loopUpTo (fun receiver ↦ (pass receiver).after receiver)
      (receiver.buffer.length + 1) receiver = some outcome :=
    loopUpTo_mono (Nat.succ_le_succ (Nat.div_le_self _ _)) hends
  have hunrolled : unrolled (receiver.buffer.length + 1) receiver = outcome := by
    apply unrolled_of_loopUpTo _ _ hmore
    · intro fuel state result hpass
      rw [hsucc, hpass]
      rfl
    · intro fuel state next hpass
      rw [hsucc, hpass]
      rfl
  rw [hunrolled]
  exact hends

/-- **Progress of the receive loops.** For either width of `size_t`, for every buffer and every
chunk, every pass of either loop leaves the loop, or empties the buffer and leaves it, or erases at
least a header and no more than there is; and both calls of `append_to_buffer` get to their end. -/
theorem receive_loops_progress (host : Host) (program : Program σ V H) (data : Bytes)
    (receiver : Receiver σ H) :
    LoopProgresses (Client.appendPass host program)
        { receiver with buffer := receiver.buffer ++ data }
        (Client.appendToBuffer host program data receiver) ∧
      LoopProgresses (Session.processPass host (Session.handlePacket program))
        { receiver with buffer := receiver.buffer ++ data }
        (Session.appendToBuffer host program data receiver) := by
  constructor
  · have hprogress := LoopProgresses.of_unrolled (Client.appendPass host program)
      (Client.appendLoop host program) Client.appendPass_erasesInside
      (fun fuel _ ↦ Client.appendLoop_succ fuel)
      { receiver with buffer := receiver.buffer ++ data }
    rw [Client.appendLoop_of_le (Nat.le_succ _)] at hprogress
    exact hprogress
  · have hprogress := LoopProgresses.of_unrolled
      (Session.processPass host (Session.handlePacket program))
      (Session.processLoop host (Session.handlePacket program)) Session.processPass_erasesInside
      (fun fuel _ ↦ Session.processLoop_succ fuel)
      { receiver with buffer := receiver.buffer ++ data }
    rw [Session.processLoop_of_le (Nat.le_succ _)] at hprogress
    exact hprogress

end LibuvNet
