import LibuvNet.Endpoint.Closing

/-!
# Handlers that feed their own session

`Session::append_to_buffer` is public, so a handler can call it on the session it is called by.
The call runs `process_buffer` again inside the outer one, with the frame that is being handled
still at the front of `read_buffer_`; and the outer one holds a pointer into the vector across the
call of the handler.

A handler is a `Script`: it ends, or it appends whole frames and goes on with what the call left
and whether it threw.  The nesting is not bounded by anything the session owns, so the recursion is
by fuel.  A read through a pointer that an insertion or an erasure has invalidated is given no
meaning.  The reader counts the bytes it has removed, so that every call of a handler is recorded
with the position of its frame among all bytes ever appended.
-/

namespace LibuvNet

open Foundation

/-- A `std::vector<uint8_t>`.  `storage` counts how often the pointers to its front have become
invalid. -/
structure ByteVector where
  bytes : Bytes
  capacity : ℕ
  storage : ℕ
  deriving DecidableEq

namespace ByteVector

variable (vector : ByteVector)

/-- `insert` at the end.  `grow` is how the library chooses a capacity for a vector that is full. -/
def insert (grow : ℕ → ℕ → ℕ) (data : Bytes) : ByteVector :=
  let bytes := vector.bytes ++ data
  if bytes.length ≤ vector.capacity then { vector with bytes := bytes }
  else ⟨bytes, grow vector.capacity bytes.length, vector.storage + 1⟩

/-- `erase` of the first bytes. -/
def eraseFront (count : ℕ) : ByteVector :=
  { vector with bytes := vector.bytes.drop count, storage := vector.storage + 1 }

/-- `clear`. -/
def clear : ByteVector :=
  { vector with bytes := [], storage := vector.storage + 1 }

@[simp]
theorem insert_bytes (grow : ℕ → ℕ → ℕ) (data : Bytes) :
    (vector.insert grow data).bytes = vector.bytes ++ data := by
  unfold insert
  dsimp only
  split <;> rfl

end ByteVector

/-- The serialized packets, one after the other. -/
def frames (host : Host) (messages : List WirePacket) : Bytes :=
  messages.flatMap fun message ↦ message.packet.serialize host message.padding

namespace Session

/-- What a handler does: it ends in some state, by returning or by an exception, or it appends
frames to its own session and goes on. -/
inductive Script (σ : Type*) where
  | finish (state : σ) (throws : Option Exn)
  | append (state : σ) (messages : List WirePacket) (resume : Option Exn → σ → Script σ)

namespace Script

variable {σ : Type*}

/-- The handler begins by calling `append_to_buffer`. -/
def Reenters : Script σ → Prop
  | finish _ _ => False
  | append _ _ _ => True

instance : DecidablePred (Reenters (σ := σ))
  | finish _ _ => isFalse id
  | append _ _ _ => isTrue trivial

/-- What the handler does apart from its calls of `append_to_buffer`. -/
def ending : Script σ → Outcome Exn σ
  | finish state none => .returned state
  | finish state (some error) => .threw error state
  | append state _ resume => (resume none state).ending

end Script

/-- The tables of a session whose handlers may feed it, and how its vector grows. -/
structure ReentrantProgram (σ V H : Type*) where
  interceptorManager : InterceptorManager V
  packetHandlers : PacketType → Option H
  defaultPacketHandler : Option H
  heartbeat : σ → σ
  script : H → Packet → σ → Script σ
  grow : ℕ → ℕ → ℕ

/-- The same tables with handlers that never feed the session. -/
def ReentrantProgram.program {σ V H : Type*} (reentrant : ReentrantProgram σ V H) :
    Program σ V H where
  interceptorManager := reentrant.interceptorManager
  packetHandlers := reentrant.packetHandlers
  defaultPacketHandler := reentrant.defaultPacketHandler
  heartbeat := reentrant.heartbeat
  invoke handler packet state := (reentrant.script handler packet state).ending

/-- A session with what its handlers can reach, the number of bytes removed from its buffer, the
calls of handlers with the positions of their frames, and the packets its handlers appended. -/
structure Reader (σ : Type*) where
  buffer : ByteVector
  state : σ
  removed : ℕ
  invoked : List (ℕ × Packet)
  refed : List WirePacket

namespace Reader

variable {σ : Type*} (reader : Reader σ)

/-- A session before its first byte. -/
def start (state : σ) : Reader σ := ⟨⟨[], 0, 0⟩, state, 0, [], []⟩

def insert (grow : ℕ → ℕ → ℕ) (data : Bytes) : Reader σ :=
  { reader with buffer := reader.buffer.insert grow data }

def eraseFront (count : ℕ) : Reader σ :=
  { reader with
    buffer := reader.buffer.eraseFront count
    removed := reader.removed + count }

def clear : Reader σ :=
  { reader with
    buffer := reader.buffer.clear
    removed := reader.removed + reader.buffer.bytes.length }

def note (packet : Packet) : Reader σ :=
  { reader with invoked := reader.invoked ++ [(reader.removed, packet)] }

end Reader

/-- Why a call comes to no end that has a meaning. -/
inductive Halt where
  | outOfFuel
  | invalidPointer
  deriving DecidableEq

/-- How a call ends. -/
abbrev Result (σ : Type*) := Except Halt (Outcome Exn (Reader σ))

variable {σ V H : Type*} (host : Host) (reentrant : ReentrantProgram σ V H)

/-- A handler runs; `append` is the call of `append_to_buffer`. -/
def Script.run (append : Bytes → Reader σ → Result σ) : Script σ → Reader σ → Result σ
  | finish state none, reader => .ok (.returned { reader with state := state })
  | finish state (some error), reader => .ok (.threw error { reader with state := state })
  | Script.append state messages resume, reader =>
    match append (frames host messages)
        { reader with state := state, refed := reader.refed ++ messages } with
    | .error halt => .error halt
    | .ok (.returned next) => (resume none next.state).run append next
    | .ok (.threw error next) => (resume (some error) next.state).run append next

/-- `Session::handle_packet`. -/
def handlePacketBy (append : Bytes → Reader σ → Result σ) (packet : Packet) (reader : Reader σ) :
    Result σ :=
  if packet.type = .heartbeat then
    .ok (.returned { reader with state := reentrant.heartbeat reader.state })
  else
    match reentrant.program.intercept packet with
    | .error error => .ok (.threw error reader)
    | .ok none => .ok (.returned reader)
    | .ok (some handler) =>
      (reentrant.script handler packet reader.state).run host append (reader.note packet)

/-- `Session::process_buffer`, for at most `fuel` passes of it and of the calls nested in it. -/
def process : ℕ → Reader σ → Result σ
  | 0, _ => .error .outOfFuel
  | fuel + 1, reader =>
    let bytes := reader.buffer.bytes
    if bytes.isEmpty then .ok (.returned reader)
    else if bytes.length < sizeofPacketHeader then .ok (.returned reader)
    else
      let header := PacketHeader.view host.order bytes
      if bytes.length < host.sizeAdd sizeofPacketHeader header.length.toNat then
        .ok (.returned reader)
      else
        match Packet.empty.deserialize host bytes
            (host.sizeAdd sizeofPacketHeader header.length.toNat) with
        | (false, _) => .ok (.returned reader.clear)
        | (true, packet) =>
          match
            handlePacketBy host reentrant
              (fun data reader ↦ process fuel (reader.insert reentrant.grow data)) packet reader
          with
          | .error halt => .error halt
          | .ok (.threw error next) => .ok (.threw error next)
          | .ok (.returned next) =>
            -- `header` points at the front of the vector as it was before the handler ran.
            if next.buffer.storage = reader.buffer.storage then
              let header := PacketHeader.view host.order next.buffer.bytes
              process fuel (next.eraseFront (sizeofPacketHeader + header.length.toNat))
            else .error .invalidPointer

/-- `Session::append_to_buffer`. -/
def appendBy (fuel : ℕ) (data : Bytes) (reader : Reader σ) : Result σ :=
  process host reentrant fuel (reader.insert reentrant.grow data)

/-- The calls of somebody who catches what they throw and goes on with the next chunk. -/
def feedBy (fuel : ℕ) : List Bytes → Reader σ → Except Halt (Reader σ)
  | [], reader => .ok reader
  | chunk :: chunks, reader =>
    match appendBy host reentrant fuel chunk reader with
    | .error halt => .error halt
    | .ok outcome => feedBy fuel chunks outcome.last

/-- A handler that appends goes on once the call has come to an end. -/
theorem Script.run_append_eq_ok {append : Bytes → Reader σ → Result σ} {state : σ}
    {messages : List WirePacket} {resume : Option Exn → σ → Script σ} {reader : Reader σ}
    {outcome : Outcome Exn (Reader σ)} :
    (Script.append state messages resume).run host append reader = .ok outcome ↔
      ∃ ended, append (frames host messages)
          { reader with state := state, refed := reader.refed ++ messages } = .ok ended ∧
        (resume ended.error? ended.last.state).run host append ended.last = .ok outcome := by
  rw [Script.run]
  cases append (frames host messages)
      { reader with state := state, refed := reader.refed ++ messages } with
  | error halt => simp
  | ok ended =>
    cases ended with
    | returned next => simp [Outcome.error?]
    | threw error next => simp [Outcome.error?]

theorem feedBy_cons (fuel : ℕ) (chunk : Bytes) (chunks : List Bytes) (reader : Reader σ) :
    feedBy host reentrant fuel (chunk :: chunks) reader =
      (appendBy host reentrant fuel chunk reader).bind fun outcome ↦
        feedBy host reentrant fuel chunks outcome.last := by
  rw [feedBy]
  cases appendBy host reentrant fuel chunk reader with
  | error halt => rfl
  | ok outcome => rfl

variable {host} {reentrant} in
/-- A call comes to an end before the next one is made. -/
theorem feedBy_cons_eq_ok {fuel : ℕ} {chunk : Bytes} {chunks : List Bytes}
    {reader last : Reader σ} :
    feedBy host reentrant fuel (chunk :: chunks) reader = .ok last ↔
      ∃ outcome, appendBy host reentrant fuel chunk reader = .ok outcome ∧
        feedBy host reentrant fuel chunks outcome.last = .ok last := by
  rw [feedBy_cons]
  cases appendBy host reentrant fuel chunk reader with
  | error halt => simp [Except.bind]
  | ok outcome => simp [Except.bind]

/-! ## One packet, and one pass -/

section Pass

variable {host} {reentrant} {append : Bytes → Reader σ → Result σ} {packet : Packet}
  {reader : Reader σ}

theorem route_of_heartbeat (htype : packet.type = .heartbeat) :
    (router reentrant.program).route packet = .ok none :=
  if_pos htype

theorem route_of_ne (htype : packet.type ≠ .heartbeat) :
    (router reentrant.program).route packet = reentrant.program.intercept packet :=
  if_neg htype

theorem handlePacketBy_of_error {error : Exn}
    (hroute : (router reentrant.program).route packet = .error error) :
    handlePacketBy host reentrant append packet reader = .ok (.threw error reader) := by
  by_cases htype : packet.type = .heartbeat
  · rw [route_of_heartbeat htype] at hroute
    cases hroute
  · rw [route_of_ne htype] at hroute
    rw [handlePacketBy, if_neg htype, hroute]

theorem handlePacketBy_of_none (hroute : (router reentrant.program).route packet = .ok none) :
    handlePacketBy host reentrant append packet reader =
      .ok (.returned { reader with
        state := (router reentrant.program).pass packet reader.state }) := by
  by_cases htype : packet.type = .heartbeat
  · have hpass : (router reentrant.program).pass packet reader.state =
        reentrant.heartbeat reader.state := if_pos htype
    rw [handlePacketBy, if_pos htype, hpass]
  · have hpass : (router reentrant.program).pass packet reader.state = reader.state :=
      if_neg htype
    rw [route_of_ne htype] at hroute
    rw [handlePacketBy, if_neg htype, hroute, hpass]

theorem handlePacketBy_of_some {handler : H}
    (hroute : (router reentrant.program).route packet = .ok (some handler)) :
    handlePacketBy host reentrant append packet reader =
      (reentrant.script handler packet reader.state).run host append (reader.note packet) := by
  by_cases htype : packet.type = .heartbeat
  · rw [route_of_heartbeat htype] at hroute
    cases hroute
  · rw [route_of_ne htype] at hroute
    rw [handlePacketBy, if_neg htype, hroute]

/-- The packet has a handler, and its interceptor lets it through. -/
def Heard (reentrant : ReentrantProgram σ V H) (packet : Packet) : Prop :=
  ∃ handler, (router reentrant.program).route packet = .ok (some handler)

instance (reentrant : ReentrantProgram σ V H) (packet : Packet) :
    Decidable (Heard reentrant packet) :=
  match hroute : (router reentrant.program).route packet with
  | .error _ => isFalse fun ⟨_, hsome⟩ ↦ by cases hroute.symm.trans hsome
  | .ok none => isFalse fun ⟨_, hsome⟩ ↦ by cases hroute.symm.trans hsome
  | .ok (some handler) => isTrue ⟨handler, hroute⟩

/-- The handler of a packet feeds the session. -/
def ReentersAt (reentrant : ReentrantProgram σ V H) (packet : Packet) (state : σ) : Prop :=
  ∃ handler, (router reentrant.program).route packet = .ok (some handler) ∧
    (reentrant.script handler packet state).Reenters

/-- The reader once a packet has been handed over and has left a state. -/
def handOver (reentrant : ReentrantProgram σ V H) (reader : Reader σ) (packet : Packet)
    (after : σ) : Reader σ :=
  { reader with
    state := after
    invoked := reader.invoked ++
      if Heard reentrant packet then [(reader.removed, packet)] else [] }

theorem handOver_of_not_heard (hheard : ¬ Heard reentrant packet) (after : σ) :
    handOver reentrant reader packet after = { reader with state := after } := by
  rw [handOver, if_neg hheard, List.append_nil]

theorem handOver_of_heard (hheard : Heard reentrant packet) (after : σ) :
    handOver reentrant reader packet after =
      { reader.note packet with state := after } := by
  rw [handOver, if_pos hheard]
  rfl

/-- How a packet is handled that does not feed the session. -/
theorem handlePacketBy_of_calm (hreenters : ¬ ReentersAt reentrant packet reader.state) :
    handlePacketBy host reentrant append packet reader =
      .ok (((router reentrant.program).dispatch packet reader.state).map
        (handOver reentrant reader packet)) := by
  cases hroute : (router reentrant.program).route packet with
  | error error =>
    have hnot : ¬ Heard reentrant packet := by
      rintro ⟨handler, hsome⟩
      cases hroute.symm.trans hsome
    rw [handlePacketBy_of_error hroute, Router.dispatch_of_error hroute, Outcome.map_threw,
      handOver_of_not_heard hnot]
  | ok found =>
    cases found with
    | none =>
      have hnot : ¬ Heard reentrant packet := by
        rintro ⟨handler, hsome⟩
        cases hroute.symm.trans hsome
      rw [handlePacketBy_of_none hroute, Router.dispatch_of_none hroute, Outcome.map_returned,
        handOver_of_not_heard hnot]
    | some handler =>
      rw [handlePacketBy_of_some hroute, Router.dispatch_of_some hroute]
      change _ = Except.ok (Outcome.map _ (reentrant.script handler packet reader.state).ending)
      cases hscript : reentrant.script handler packet reader.state with
      | append state messages resume =>
        refine absurd ⟨handler, hroute, ?_⟩ hreenters
        rw [hscript]
        trivial
      | finish after throws =>
        have hnote := @handOver_of_heard _ _ _ reentrant packet reader ⟨handler, hroute⟩ after
        cases throws with
        | none => rw [Script.run, Script.ending, Outcome.map_returned, hnote]
        | some error => rw [Script.run, Script.ending, Outcome.map_threw, hnote]

variable (host) (reentrant) in
/-- What a pass does when a frame has been handled. -/
def afterHandling (fuel : ℕ) (reader : Reader σ) : Result σ → Result σ
  | .error halt => .error halt
  | .ok (.threw error next) => .ok (.threw error next)
  | .ok (.returned next) =>
    if next.buffer.storage = reader.buffer.storage then
      let header := PacketHeader.view host.order next.buffer.bytes
      process host reentrant fuel (next.eraseFront (sizeofPacketHeader + header.length.toNat))
    else .error .invalidPointer

theorem process_of_more (fuel : ℕ) (hscan : scanFrame host reader.buffer.bytes = .more) :
    process host reentrant (fuel + 1) reader = .ok (.returned reader) := by
  simp only [process]
  by_cases hempty : reader.buffer.bytes.isEmpty = true
  · rw [if_pos hempty]
  by_cases hheader : reader.buffer.bytes.length < sizeofPacketHeader
  · rw [if_neg hempty, if_pos hheader]
  by_cases hcomplete : reader.buffer.bytes.length < messageSize host reader.buffer.bytes
  · rw [if_neg hempty, if_neg hheader]
    exact if_pos hcomplete
  · rw [scanFrame_of_complete hheader hcomplete] at hscan
    split at hscan <;> cases hscan

theorem process_of_not_more (fuel : ℕ) (hscan : scanFrame host reader.buffer.bytes ≠ .more) :
    process host reentrant (fuel + 1) reader =
      match Packet.empty.deserialize host reader.buffer.bytes
        (messageSize host reader.buffer.bytes) with
      | (false, _) => .ok (.returned reader.clear)
      | (true, packet) =>
        afterHandling host reentrant fuel reader
          (handlePacketBy host reentrant (appendBy host reentrant fuel) packet reader) := by
  have hheader : ¬ reader.buffer.bytes.length < sizeofPacketHeader :=
    fun hshort ↦ hscan (scanFrame_of_short hshort)
  have hcomplete : ¬ reader.buffer.bytes.length < messageSize host reader.buffer.bytes :=
    fun hincomplete ↦ hscan (scanFrame_of_incomplete hincomplete)
  have hempty : ¬ reader.buffer.bytes.isEmpty = true := by
    intro hempty
    rw [List.isEmpty_iff.mp hempty] at hheader
    exact hheader (by decide)
  simp only [process]
  rw [if_neg hempty, if_neg hheader]
  exact if_neg hcomplete

theorem process_of_reject (fuel : ℕ) (hscan : scanFrame host reader.buffer.bytes = .reject) :
    process host reentrant (fuel + 1) reader = .ok (.returned reader.clear) := by
  rw [process_of_not_more fuel (by simp [hscan])]
  unfold scanFrame at hscan
  split_ifs at hscan
  split at hscan
  · cases hscan
  · rename_i hdeserialize
    rw [hdeserialize]

theorem process_of_frame (fuel : ℕ) {size : ℕ}
    (hscan : scanFrame host reader.buffer.bytes = .frame packet size) :
    process host reentrant (fuel + 1) reader =
      afterHandling host reentrant fuel reader
        (handlePacketBy host reentrant (appendBy host reentrant fuel) packet reader) := by
  obtain ⟨hsize, -, -, hdeserialize⟩ := scanFrame_eq_frame hscan
  rw [process_of_not_more fuel (by simp [hscan]), ← hsize, hdeserialize]

/-- How a pass that comes to an end does so. -/
theorem process_cases {fuel : ℕ} {outcome : Outcome Exn (Reader σ)}
    (hprocess : process host reentrant fuel reader = .ok outcome) :
    ∃ fewer, fuel = fewer + 1 ∧
      (scanFrame host reader.buffer.bytes = .more ∧ outcome = .returned reader ∨
        scanFrame host reader.buffer.bytes = .reject ∧ outcome = .returned reader.clear ∨
        ∃ packet size, scanFrame host reader.buffer.bytes = .frame packet size ∧
          afterHandling host reentrant fewer reader
            (handlePacketBy host reentrant (appendBy host reentrant fewer) packet reader) =
              .ok outcome) := by
  cases fuel with
  | zero => cases hprocess
  | succ fuel =>
    refine ⟨fuel, rfl, ?_⟩
    cases hscan : scanFrame host reader.buffer.bytes with
    | more =>
      rw [process_of_more fuel hscan] at hprocess
      exact .inl ⟨rfl, (Except.ok.inj hprocess).symm⟩
    | reject =>
      rw [process_of_reject fuel hscan] at hprocess
      exact .inr (.inl ⟨rfl, (Except.ok.inj hprocess).symm⟩)
    | frame packet size =>
      rw [process_of_frame fuel hscan] at hprocess
      exact .inr (.inr ⟨packet, size, rfl, hprocess⟩)

/-- A frame was handled by an exception, or by a return with the pointer still valid. -/
theorem afterHandling_cases {fuel : ℕ} {handled : Result σ} {outcome : Outcome Exn (Reader σ)}
    (hafter : afterHandling host reentrant fuel reader handled = .ok outcome) :
    (∃ error next, handled = .ok (.threw error next) ∧ outcome = .threw error next) ∨
      ∃ next, handled = .ok (.returned next) ∧
        next.buffer.storage = reader.buffer.storage ∧
        process host reentrant fuel (next.eraseFront (sizeofPacketHeader +
          (PacketHeader.view host.order next.buffer.bytes).length.toNat)) = .ok outcome := by
  cases handled with
  | error halt => cases hafter
  | ok handled =>
    cases handled with
    | threw error next => exact .inl ⟨error, next, rfl, (Except.ok.inj hafter).symm⟩
    | returned next =>
      by_cases hvalid : next.buffer.storage = reader.buffer.storage
      · exact .inr ⟨next, rfl, hvalid, (if_pos hvalid).symm.trans hafter⟩
      · exact absurd ((if_neg hvalid).symm.trans hafter) nofun

end Pass

/-! ## Handlers that never feed their session -/

section Flat

variable {host} {reentrant}

/-- What the buffer holds and what the handlers can reach. -/
def Reader.contents (reader : Reader σ) : Bytes × σ := (reader.buffer.bytes, reader.state)

/-- The size `process_buffer` reads again is that of the frame it has handled. -/
theorem size_of_frame {bytes : Bytes} {packet : Packet} {size : ℕ}
    (hscan : scanFrame host bytes = .frame packet size) :
    sizeofPacketHeader + (PacketHeader.view host.order bytes).length.toNat = size := by
  obtain ⟨rfl, hheader, -, -⟩ := scanFrame_eq_frame hscan
  exact ((messageSize_lt_or_eq host bytes).resolve_left (Nat.not_lt_of_le hheader)).symm

variable (host) in
/-- Without handlers that feed the session, enough fuel makes of the nested loop the plain one. -/
theorem process_eq_drain (hcalm : ∀ packet state, ¬ ReentersAt reentrant packet state) {fuel : ℕ}
    {reader : Reader σ} (hfuel : reader.buffer.bytes.length < fuel) :
    ∃ outcome, process host reentrant fuel reader = .ok outcome ∧
      (wireDecoder host).drain (router reentrant.program).dispatch reader.buffer.bytes
        reader.state = outcome.map Reader.contents := by
  induction fuel generalizing reader with
  | zero => exact absurd hfuel (Nat.not_lt_zero _)
  | succ fuel ih =>
    cases hscan : scanFrame host reader.buffer.bytes with
    | more =>
      refine ⟨_, process_of_more fuel hscan, ?_⟩
      exact (wireDecoder host).drain_of_more _ hscan reader.state
    | reject =>
      refine ⟨_, process_of_reject fuel hscan, ?_⟩
      exact (wireDecoder host).drain_of_reject _ hscan reader.state
    | frame packet size =>
      have hprocess : process host reentrant (fuel + 1) reader =
          afterHandling host reentrant fuel reader
            (.ok (((router reentrant.program).dispatch packet reader.state).map
              (handOver reentrant reader packet))) := by
        rw [process_of_frame fuel hscan, handlePacketBy_of_calm (hcalm packet reader.state)]
      cases hdispatch : (router reentrant.program).dispatch packet reader.state with
      | threw error next =>
        rw [hdispatch] at hprocess
        refine ⟨_, hprocess, ?_⟩
        exact (wireDecoder host).drain_of_frame_threw _ hscan hdispatch
      | returned next =>
        have hlength : ((handOver reentrant reader packet next).eraseFront
            size).buffer.bytes.length < fuel :=
          ((wireDecoder host).drop_length_lt hscan).trans_le (Nat.le_of_lt_succ hfuel)
        obtain ⟨outcome, hrest, hdrain⟩ := ih hlength
        refine ⟨outcome, ?_, ?_⟩
        · rw [hprocess, hdispatch]
          refine (if_pos rfl).trans ?_
          rw [← size_of_frame hscan] at hrest
          exact hrest
        · rw [(wireDecoder host).drain_of_frame _ hscan hdispatch]
          exact hdrain

/-- Then `append_to_buffer` with its nesting is `append_to_buffer` without it. -/
theorem appendBy_refines (hcalm : ∀ packet state, ¬ ReentersAt reentrant packet state)
    (data : Bytes) (reader : Reader σ) (trace : List (Obs H)) :
    ∃ fuel outcome, appendBy host reentrant fuel data reader = .ok outcome ∧
      (appendToBuffer host reentrant.program data
        ⟨⟨reader.state, trace⟩, reader.buffer.bytes⟩).map
          (fun session ↦ (session.buffer, session.state)) = outcome.map Reader.contents := by
  have hbytes : (reader.insert reentrant.grow data).buffer.bytes =
      reader.buffer.bytes ++ data := ByteVector.insert_bytes _ _ _
  obtain ⟨outcome, hprocess, hdrain⟩ := process_eq_drain host hcalm
    (Nat.lt_succ_self (reader.insert reentrant.grow data).buffer.bytes.length)
  refine ⟨_, outcome, hprocess, ?_⟩
  have hplain := appendToBufferBy_eq_append host (handlePacket reentrant.program) data
    (reader.buffer.bytes, ⟨reader.state, trace⟩)
  have hstate := (wireDecoder host).drain_map (handlePacket reentrant.program) Endpoint.state
    (fun packet endpoint ↦ (handlePacket_router reentrant.program packet endpoint).symm)
    (reader.buffer.bytes ++ data) ⟨reader.state, trace⟩
  rw [← hdrain, hbytes]
  change (appendToBufferBy host (handlePacket reentrant.program) data
    (.ofPair (reader.buffer.bytes, ⟨reader.state, trace⟩))).map _ = _
  rw [hplain, Outcome.map_map]
  exact hstate.symm

end Flat

end Session

end LibuvNet
