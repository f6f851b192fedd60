import LibuvNet.Client.Calls
import LibuvNet.Endpoint.Transfer
import LibuvNet.Server.Keeping

/-!
# What an endpoint writes

Between two moments at which no write waits an endpoint hands whole frames to `uv_write`, in
order, and the transport emits their bytes in that order, whatever user code did in the meantime;
and as long as the handle is open nothing is held back.  This is said of one handle first, then of
a client step by step and of every session of a server at once.
-/

namespace LibuvNet

open Foundation

/-- Every frame is short enough for a `uv_buf_t` to describe it, and so for its header to tell its
length. -/
def Announced (socket : UvTcp) : Prop :=
  ∀ frame ∈ socket.writer.accepted, frame.length < 2 ^ 32

instance (socket : UvTcp) : Decidable (Announced socket) :=
  inferInstanceAs (Decidable (∀ frame ∈ socket.writer.accepted, _))

/-- What a handle has written since it stood as `start`: more frames and more bytes, all of them
serialized packets, and in order unless one of them was too long. -/
structure Outgoing (host : Host) (start socket : UvTcp) : Prop where
  accepted : start.writer.accepted <+: socket.writer.accepted
  emitted : start.writer.emitted <+: socket.writer.emitted
  framed : ∀ frame ∈ socket.writer.accepted, ∃ packet padding,
    frame = Packet.serialize host padding packet
  front : Announced socket → socket.writer.emitted <+: socket.writer.accepted.flatten
  ordered : Announced socket → socket.closing = false → socket.writer.Ordered

namespace Outgoing

variable {host : Host} {start socket next : UvTcp}

/-- A handle that has written nothing. -/
theorem of_idle (hemitted : socket.writer.emitted = []) (haccepted : socket.writer.accepted = []) :
    Outgoing host socket socket where
  accepted := List.prefix_rfl
  emitted := List.prefix_rfl
  framed frame hframe := by
    rw [haccepted] at hframe
    cases hframe
  front _ := (Writer.Ordered.of_idle hemitted haccepted).front
  ordered _ _ := .of_idle hemitted haccepted

/-- Start over from where the handle stands now. -/
theorem here (houtgoing : Outgoing host start socket) : Outgoing host socket socket where
  accepted := List.prefix_rfl
  emitted := List.prefix_rfl
  framed := houtgoing.framed
  front := houtgoing.front
  ordered := houtgoing.ordered

/-- Only the writes of the handle matter, and whether it is closed. -/
theorem congr (houtgoing : Outgoing host start socket)
    (haccepted : next.writer.accepted = socket.writer.accepted)
    (hemitted : next.writer.emitted = socket.writer.emitted)
    (hqueue : next.writer.queue = socket.writer.queue)
    (hclosing : next.closing = false → socket.closing = false) : Outgoing host start next where
  accepted := haccepted ▸ houtgoing.accepted
  emitted := hemitted ▸ houtgoing.emitted
  framed := haccepted ▸ houtgoing.framed
  front hannounced := by
    unfold Announced at hannounced
    rw [haccepted] at hannounced
    rw [haccepted, hemitted]
    exact houtgoing.front hannounced
  ordered hannounced hopen := by
    unfold Announced at hannounced
    rw [haccepted] at hannounced
    have hordered := houtgoing.ordered hannounced (hclosing hopen)
    exact ⟨by rw [haccepted, hemitted]; exact hordered.front,
      by rw [haccepted, hemitted, hqueue]; exact hordered.whole⟩

/-- Closing the handle ends the writes that wait; what was emitted stays a front. -/
theorem close (houtgoing : Outgoing host start socket) (callback : Bool) :
    Outgoing host start (socket.close callback) where
  accepted := houtgoing.accepted
  emitted := houtgoing.emitted
  framed := houtgoing.framed
  front := houtgoing.front
  ordered _ hopen := by cases hopen

/-- Without a write that waits the transport has nothing to take. -/
theorem transmit (houtgoing : Outgoing host start socket) (hqueue : socket.writer.queue = [])
    (heap : Memory UInt8) (count : ℕ) : Outgoing host start (socket.transmit heap count) := by
  have hsame : socket.transmit heap count = socket := by
    rw [UvTcp.transmit, Writer.take, hqueue]
  rwa [hsame]

/-- Nor is there one that could fail. -/
theorem reportWrite (houtgoing : Outgoing host start socket) (hqueue : socket.writer.queue = [])
    (status : ℤ) : Outgoing host start (socket.reportWrite status) := by
  unfold UvTcp.reportWrite
  split
  · split
    · exact houtgoing.congr rfl rfl rfl id
    · refine houtgoing.congr rfl rfl ?_ id
      change socket.writer.queue.tail = socket.writer.queue
      rw [hqueue]
      rfl
  · exact houtgoing.congr rfl rfl rfl id

/-- A packet written on an open handle goes behind what was written before. -/
theorem writeLocal (houtgoing : Outgoing host start socket) (hopen : socket.closing = false)
    (packet : Packet) (write : WriteCall) (heap : Memory UInt8) :
    Outgoing host start (LibuvNet.writeLocal host packet write heap socket).2 := by
  by_cases hresult : write.result = 0
  · have hcell := heap.cell_allocate write.address (packet.serialize host write.padding)
    have hinside := uvBufInit_length_le (packet.serialize host write.padding)
    rw [writeLocal_accepted host packet heap socket hresult]
    have hordered (hannounced : ∀ frame ∈ socket.writer.accepted ++
        [packet.serialize host write.padding], frame.length < 2 ^ 32) :
        (socket.writer.submit (heap.allocate write.address (packet.serialize host write.padding))
          (heap.place write.address) (packet.serialize host write.padding)
          (uvBufInit (packet.serialize host write.padding)).length write.taken).Ordered := by
      obtain ⟨hearlier, hlength⟩ := List.forall_mem_append.mp hannounced
      have hwhole := uvBufInit_of_lt (hlength _ (List.mem_singleton_self _))
      exact (houtgoing.ordered hearlier hopen).submit hcell (congrArg List.length hwhole)
        write.taken
    refine ⟨?_, ?_, ?_, fun hannounced ↦ ?_, fun hannounced _ ↦ ?_⟩
    · rw [Writer.submit_accepted]
      exact houtgoing.accepted.trans (List.prefix_append _ _)
    · exact houtgoing.emitted.trans (Writer.emitted_submit hcell hinside write.taken)
    · intro frame hframe
      rw [Writer.submit_accepted] at hframe
      rcases List.mem_append.mp hframe with hold | hnew
      · exact houtgoing.framed frame hold
      · exact ⟨packet, write.padding, List.mem_singleton.mp hnew⟩
    · rw [Announced, Writer.submit_accepted] at hannounced
      exact (hordered hannounced).front
    · rw [Announced, Writer.submit_accepted] at hannounced
      exact hordered hannounced
  · rwa [writeLocal_rejected host packet heap socket hresult]

/-- Serialized packets that their headers announce are messages of the wire codec. -/
theorem exists_messages {order : ByteOrder} (houtgoing : Outgoing (.wide order) start socket)
    (hannounced : Announced socket) {messages : List WirePacket}
    (hmessages : start.writer.accepted = messages.map (wireCodec order).encode) :
    ∃ more, socket.writer.accepted = (messages ++ more).map (wireCodec order).encode := by
  have hall (frames : List Bytes)
      (hframes : ∀ frame ∈ frames, ∃ message, frame = (wireCodec order).encode message) :
      ∃ more : List WirePacket, frames = more.map (wireCodec order).encode := by
    induction frames with
    | nil => exact ⟨[], rfl⟩
    | cons frame frames ih =>
      obtain ⟨⟨message, rfl⟩, hlater⟩ := List.forall_mem_cons.mp hframes
      obtain ⟨more, rfl⟩ := ih hlater
      exact ⟨message :: more, rfl⟩
  obtain ⟨rest, hrest⟩ := houtgoing.accepted
  obtain ⟨more, hmore⟩ := hall rest fun frame hframe ↦ by
    have hmem : frame ∈ socket.writer.accepted := hrest ▸ List.mem_append_right _ hframe
    obtain ⟨packet, padding, rfl⟩ := houtgoing.framed frame hmem
    have hlength := hannounced _ hmem
    rw [Packet.serialize_length] at hlength
    exact ⟨⟨packet, padding, (Nat.le_add_left _ _).trans_lt hlength⟩, rfl⟩
  exact ⟨more, by rw [← hrest, hmessages, hmore, List.map_append]⟩

end Outgoing

/-! ## A client -/

namespace Client

variable {U : Type*}

/-- The call may start the socket over: the client has no connection and no attempt to lose. -/
def Event.Restarts (core : Core U) : Event → Prop
  | .call (.connect _ _) => core.isConnected = false ∧ core.isConnecting = false
  | _ => False

instance (core : Core U) : (event : Event) → Decidable (event.Restarts core)
  | .call (.connect _ _) =>
    inferInstanceAs (Decidable (core.isConnected = false ∧ core.isConnecting = false))
  | .call .disconnect | .call (.send _ _) | .start | .stop | .onConnect _ _ | .onClose
  | .onRead _ _ | .onWrite _ | .onHeartbeatTimer _ | .transmit _ | .elapse _ => isFalse id

/-- A client on the connection on which its socket stood as `start`. -/
structure Sending (host : Host) (start : UvTcp) (core : Core U) : Prop where
  outgoing : Outgoing host start core.socket
  isOpen : core.isConnected → core.socket.closing = false

namespace Sending

variable {host : Host} {start : UvTcp} {core next : Core U}

/-- Only the socket and the flag matter. -/
theorem congr (hsending : Sending host start core) (hsocket : next.socket = core.socket)
    (hconnected : next.isConnected = core.isConnected) : Sending host start next where
  outgoing := hsocket ▸ hsending.outgoing
  isOpen := by
    rw [hsocket, hconnected]
    exact hsending.isOpen

theorem disconnect (hsending : Sending host start core) : Sending host start core.disconnect where
  outgoing := by
    unfold Core.disconnect
    split
    · exact hsending.outgoing
    · simp only [Core.stopHeartbeat]
      split
      · exact hsending.outgoing.close true
      · exact hsending.outgoing
  isOpen hconnected := by
    rw [Core.disconnect_isConnected] at hconnected
    cases hconnected

theorem send (hsending : Sending host start core) (packet : Packet) (write : WriteCall) :
    Sending host start (core.send host packet write) := by
  unfold Core.send
  split
  · exact hsending
  · rename_i hconnected
    have hopen := hsending.isOpen (not_not.mp hconnected)
    obtain ⟨writer, hsocket⟩ := writeLocal_socket host packet core.heap core.socket write
    constructor
    · exact hsending.outgoing.writeLocal hopen packet write core.heap
    · simp only [hsocket]
      exact fun _ ↦ hopen

theorem tick (hsending : Sending host start core) (write : WriteCall) :
    Sending host start (core.tick host write) := by
  have harmed : Sending host start
      { core with heartbeatTimer := core.heartbeatTimer.again core.now } := hsending.congr rfl rfl
  unfold Core.tick Core.onHeartbeatTimer
  split
  · exact harmed.disconnect
  · exact harmed.send _ write

theorem onWrite (hsending : Sending host start core) (hqueue : core.socket.writer.queue = [])
    (status : ℤ) : Sending host start (core.onWrite status) := by
  have hreported : Sending host start
      { core with socket := core.socket.reportWrite status } := by
    obtain ⟨canceledWrites, writer, hsocket⟩ := core.socket.reportWrite_eq status
    constructor
    · exact hsending.outgoing.reportWrite hqueue status
    · simp only [hsocket]
      exact hsending.isOpen
  unfold Core.onWrite
  dsimp only
  split
  · exact hreported.disconnect
  · exact hreported

theorem onConnect (hsending : Sending host start core) {status readResult : ℤ}
    (hdue : core.socket.closing → status < 0) :
    Sending host start (Event.effect host core (.onConnect status readResult)) := by
  have hdone : Outgoing host start core.socket.connectDone :=
    hsending.outgoing.congr rfl rfl rfl id
  simp only [Event.effect]
  split_ifs with hstatus hread
  · exact ⟨hdone, hsending.isOpen⟩
  · have hfailed : Sending host start
        { core with socket := core.socket.connectDone, isConnecting := false } :=
      ⟨hdone, hsending.isOpen⟩
    exact hfailed.disconnect
  · exact ⟨hdone.congr rfl rfl rfl id,
      fun _ ↦ Bool.eq_false_of_not_eq_true fun hclosing ↦ hstatus (hdue hclosing)⟩

/-- Whatever happens to the client on this connection while no write waits. -/
theorem effect (hsending : Sending host start core) {event : Event} (hdue : event.Due core)
    (hrestarts : ¬ event.Restarts core) (hqueue : core.socket.writer.queue = []) :
    Sending host start (event.effect host core) := by
  cases event with
  | start =>
    simp only [Event.effect, Core.start]
    split
    · exact hsending
    · exact hsending.congr rfl rfl
  | stop =>
    simp only [Event.effect, Core.stop]
    split
    · exact hsending
    · exact hsending.congr rfl rfl
  | call call =>
    cases call with
    | connect initResult connectResult =>
      rcases core.connect_cases initResult connectResult with hsame | ⟨hneither, -⟩
      · change Sending host start (core.connect initResult connectResult).2
        rwa [hsame]
      · exact absurd hneither hrestarts
    | disconnect => exact hsending.disconnect
    | send packet write => exact hsending.send packet write
  | onConnect status readResult => exact hsending.onConnect hdue.2.2
  | onClose =>
    exact ⟨hsending.outgoing.congr rfl rfl rfl id,
      fun hconnected ↦ absurd hconnected Bool.false_ne_true⟩
  | onRead nread base =>
    simp only [Event.effect]
    split
    · exact hsending.disconnect
    · exact hsending
  | onWrite status => exact hsending.onWrite hqueue status
  | onHeartbeatTimer write => exact hsending.tick write
  | transmit count => exact ⟨hsending.outgoing.transmit hqueue core.heap count, hsending.isOpen⟩
  | elapse milliseconds => exact hsending.congr rfl rfl

end Sending

end Client

/-! ## The sessions of a server -/

namespace Session

/-- A session since its socket stood as `start`. -/
structure Sending (host : Host) (start : UvTcp) (core : Core) : Prop where
  outgoing : Outgoing host start core.socket
  closing : core.isClosing = core.socket.closing

namespace Sending

variable {host : Host} {start : UvTcp} {core next : Core}

/-- A session that was just accepted. -/
theorem accept (host : Host) : Sending host Core.accept.socket .accept where
  outgoing := .of_idle rfl rfl
  closing := rfl

/-- Only the socket and the flag matter. -/
theorem congr (hsending : Sending host start core)
    (haccepted : next.socket.writer.accepted = core.socket.writer.accepted)
    (hemitted : next.socket.writer.emitted = core.socket.writer.emitted)
    (hqueue : next.socket.writer.queue = core.socket.writer.queue)
    (hclosing : next.socket.closing = core.socket.closing)
    (hisClosing : next.isClosing = core.isClosing) : Sending host start next where
  outgoing := hsending.outgoing.congr haccepted hemitted hqueue (hclosing ▸ id)
  closing := by
    rw [hisClosing, hclosing]
    exact hsending.closing

theorem close (hsending : Sending host start core) : Sending host start core.close where
  outgoing := by
    unfold Core.close
    split
    · exact hsending.outgoing.close true
    · exact hsending.outgoing
  closing := by
    obtain ⟨hisClosing, hclosing⟩ := Core.close_closes hsending.closing
    rw [hisClosing, hclosing]

theorem send (hsending : Sending host start core) (packet : Packet) (write : WriteCall)
    (heap : Memory UInt8) : Sending host start (core.send host packet write heap).2 := by
  unfold Core.send
  split
  · exact hsending
  · rename_i hopen
    have hsocket : core.socket.closing = false := by
      rw [← hsending.closing]
      exact Bool.eq_false_of_not_eq_true hopen
    obtain ⟨writer, hwritten⟩ := writeLocal_socket host packet heap core.socket write
    constructor
    · exact hsending.outgoing.writeLocal hsocket packet write heap
    · simp only [hwritten]
      exact hsending.closing

theorem start_read (hsending : Sending host start core) (now : ℕ) (readResult : ℤ) :
    Sending host start (core.start now readResult) := by
  unfold Core.start Core.startRead
  split_ifs
  · exact hsending.congr rfl rfl rfl rfl rfl
  · exact hsending.congr rfl rfl rfl rfl rfl
  · exact hsending.congr rfl rfl rfl rfl rfl

/-- No operation of a session breaks the order. -/
theorem userStep (hsending : Sending host start core) {timers : Prop} {now : ℕ}
    (hstep : UserStep host timers now core next) : Sending host start next := by
  cases hstep with
  | call hcall =>
    cases hcall with
    | start readResult => exact hsending.start_read now readResult
    | stop => exact hsending.congr rfl rfl rfl rfl rfl
    | close => exact hsending.close
    | send packet write heap => exact hsending.send packet write heap
  | hear => exact hsending.congr rfl rfl rfl rfl rfl

theorem tick (hsending : Sending host start core) (write : WriteCall) (now : ℕ)
    (heap : Memory UInt8) : Sending host start (core.tick host write now heap).2 := by
  have harmed : Sending host start
      { core with heartbeatTimer := core.heartbeatTimer.again now } :=
    hsending.congr rfl rfl rfl rfl rfl
  unfold Core.tick Core.onHeartbeatTimer
  split
  · exact harmed.close
  · exact harmed.send _ write heap

theorem onWrite (hsending : Sending host start core) (hqueue : core.socket.writer.queue = [])
    (status : ℤ) : Sending host start (core.onWrite status) := by
  have hreported : Sending host start
      { core with socket := core.socket.reportWrite status } := by
    obtain ⟨canceledWrites, writer, hsocket⟩ := core.socket.reportWrite_eq status
    constructor
    · exact hsending.outgoing.reportWrite hqueue status
    · simp only [hsocket]
      exact hsending.closing
  unfold Core.onWrite
  dsimp only
  split
  · exact hreported.close
  · exact hreported

end Sending

end Session

namespace Server

variable {U V H : Type*} {app : Application U V H} {world next : World U V H}

/-- Where the socket of a session stands, or will stand when it is created. -/
def World.standing (world : World U V H) (id : ℕ) : UvTcp :=
  if id < world.created then (world.slot id).core.socket else Session.Core.accept.socket

/-- Every session has written in order, and none is waiting. -/
structure World.Tidy (host : Host) (world : World U V H) : Prop where
  sending : ∀ id < world.created,
    Session.Sending host (world.slot id).core.socket (world.slot id).core
  queue : ∀ id < world.created, (world.slot id).core.socket.writer.queue = []

/-- No user code stops the sessions from writing in order. -/
theorem kept_sending (host : Host) (start : ℕ → UvTcp) (count : ℕ) :
    Kept host Call.Any fun world : World U V H ↦ ∀ id, id < count →
      Session.Sending host (start id) (world.slot id).core :=
  Kept.of_sessions (fun _ _ ↦ trivial)
    (fun _ id core ↦ id < count → Session.Sending host (start id) core)
    fun hsending hstep hid ↦ (hsending hid).userStep hstep

/-- What the server does at an event: its sessions write on. -/
theorem sending_effect {host : Host} (htidy : world.Tidy host) {event : Event V H}
    (hdue : event.Due world) :
    ∀ id < (event.effect host world).created,
      Session.Sending host (world.standing id) ((event.effect host world).slot id).core := by
  have hbefore (id : ℕ) (hid : id < world.created) :
      Session.Sending host (world.standing id) (world.slot id).core := by
    rw [World.standing, if_pos hid]
    exact htidy.sending id hid
  have hset (id : ℕ) {core : Session.Core}
      (hcore : id < world.created → Session.Sending host (world.standing id) core) (other : ℕ) :
      other < world.created →
        Session.Sending host (world.standing other) ((world.setCore id core).slot other).core :=
    World.forall_setSlot (fun other slot ↦ other < world.created →
      Session.Sending host (world.standing other) slot.core) hbefore id hcore other
  cases event with
  | call call =>
    intro id hid
    have hcreated : (call.run host world).created = world.created :=
      (Serves.run 0 world host call).created
    have hrun := (kept_sending host world.standing world.created).run call trivial hbefore
    exact hrun id (hcreated ▸ hid)
  | onConnection status readResult =>
    simp only [Event.effect]
    split
    · exact hbefore
    · intro id hid
      change Session.Sending host (world.standing id)
        (Function.update world.slot world.created _ id).core
      by_cases heq : id = world.created
      · subst heq
        rw [Function.update_self, World.standing, if_neg (lt_irrefl _)]
        exact (Session.Sending.accept host).start_read world.now readResult
      · rw [Function.update_of_ne heq]
        exact hbefore id (Nat.lt_of_le_of_ne (Nat.le_of_lt_succ hid) heq)
  | onRead id nread base =>
    simp only [Event.effect]
    split
    · exact hset id fun hid ↦ (hbefore id hid).close
    · exact hbefore
  | onWrite id status =>
    exact hset id fun hid ↦ (hbefore id hid).onWrite (htidy.queue id hid) status
  | onClose id => exact hset id fun hid ↦ (hbefore id hid).congr rfl rfl rfl rfl rfl
  | onHeartbeatTimer id write =>
    exact hset id fun hid ↦ (hbefore id hid).tick write world.now world.heap
  | transmit id count =>
    refine hset id fun hid ↦ ⟨?_, (hbefore id hid).closing⟩
    exact (hbefore id hid).outgoing.transmit (htidy.queue id hid) world.heap count
  | elapse milliseconds => exact hbefore

/-- A step of a server: whatever its user code does, every session writes on. -/
theorem sending_step (htidy : world.Tidy app.host) {event : Event V H}
    (hstep : step app world event = some next) :
    ∀ id < next.created, Session.Sending app.host (world.standing id) (next.slot id).core := by
  have hdue : event.Due world := by
    unfold step at hstep
    split at hstep
    · assumption
    · cases hstep
  have hkept : Kept app.host Call.Any fun next : World U V H ↦
      next.created = (event.effect app.host world).created ∧
        ∀ id < (event.effect app.host world).created,
          Session.Sending app.host (world.standing id) (next.slot id).core :=
    (Kept.created app.host _).and (kept_sending app.host world.standing _)
  obtain ⟨last, ⟨hlast, hsending⟩, rfl⟩ :=
    hkept.step app.makes_any ⟨rfl, sending_effect htidy hdue⟩ hstep
  intro id hid
  rw [Event.buffer_created, hlast] at hid
  rw [Event.buffer_core]
  exact hsending id hid

theorem standing_of_lt {id : ℕ} (hid : id < world.created) :
    world.standing id = (world.slot id).core.socket :=
  if_pos hid

theorem standing_step (htidy : world.Tidy app.host) {event : Event V H}
    (hstep : step app world event = some next) (id : ℕ) :
    Outgoing app.host (world.standing id) (next.standing id) := by
  by_cases hid : id < next.created
  · rw [standing_of_lt hid]
    exact (sending_step htidy hstep id hid).outgoing
  · have hcreated := (Older.of_step hstep).created
    unfold World.standing
    rw [if_neg hid, if_neg (by omega)]
    exact .of_idle rfl rfl

end Server

end LibuvNet
