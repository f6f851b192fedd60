import LibuvNet.Server.Serving

/-!
# The tables of the server

A packet that a session decodes reaches the tables of the server through the default handler that
`on_connection` gives the session, which looks them up when it is called.  As long as user code
adds nothing to the sessions themselves, every packet goes that way but one kind:
`Session::handle_packet` returns early on a `HEARTBEAT` packet, so a handler that is registered on
the server for that type, or as default, never sees it.
-/

namespace LibuvNet

open Foundation

namespace Server

variable {U V H : Type*}

/-! ## Runs over the packets of one chunk -/

/-- The handler that is registered on the server for a type, else the default handler. -/
def World.findHandler (world : World U V H) (type : PacketType) : Option H :=
  match world.packetHandlers type with
  | some handler => some handler
  | none => world.defaultPacketHandler

/-- The calls into the packet handlers of the server. -/
def World.packetCalls (world : World U V H) : List (ℕ × H × Packet) :=
  world.calls.filterMap fun call ↦
    match call.2 with
    | .packet handler packet => some (call.1, handler, packet)
    | _ => none

/-- The packets decoded from a chunk that arrives for a session. -/
def World.decoded (world : World U V H) (host : Host) (id : ℕ) (base : Bytes) : List Packet :=
  ((wireDecoder host).parse ((world.slot id).buffer ++ base)).values

/-- What handling a packet makes of the world. -/
def Application.dispatch (app : Application U V H) (id : ℕ) (packet : Packet)
    (world : World U V H) : Outcome Exn (World U V H) :=
  (app.handlePacket id packet ⟨world, []⟩).map Endpoint.state

/-- Handling a packet as a step. -/
def Application.dispatchStep (app : Application U V H) (id : ℕ) (world : World U V H)
    (packet : Packet) : Option (World U V H) :=
  (app.dispatch id packet world).returned?

/-- The session and the chunk of an event that brings bytes. -/
def Event.received? : Event V H → Option (ℕ × Bytes)
  | .onRead id nread base => if 0 < nread then some (id, base) else none
  | _ => none

variable {app : Application U V H} {world next : World U V H}

variable (app) in
/-- Handling a packet looks at no trace. -/
theorem handlePacket_state_eq (id : ℕ) (packet : Packet)
    (endpoint : Endpoint (World U V H) (SessionHandler H)) :
    app.dispatch id packet endpoint.state =
      (app.handlePacket id packet endpoint).map Endpoint.state := by
  unfold Application.dispatch Application.handlePacket
  by_cases htype : packet.type = .heartbeat
  · rw [Session.handlePacket_of_heartbeat _ htype, Session.handlePacket_of_heartbeat _ htype]
    rfl
  · rw [Session.handlePacket_of_ne _ htype, Session.handlePacket_of_ne _ htype,
      Client.dispatch_eq, Client.dispatch_eq]
    simp only [Endpoint.observe]
    cases (app.program id (endpoint.state.slot id)).intercept packet with
    | error error => rfl
    | ok handler =>
      cases handler with
      | none => rfl
      | some handler => simp only [Program.call, Program.callHandler, Outcome.map_map]

theorem runFrom_of_forEach {id : ℕ} {packets : List Packet}
    (hforEach : Outcome.forEach (app.dispatch id) packets world = .returned next) :
    runFrom (app.dispatchStep id) packets world = some next := by
  induction packets generalizing world with
  | nil =>
    cases hforEach
    rfl
  | cons packet packets ih =>
    obtain ⟨mid, hmid, hlater⟩ := Outcome.andThen_eq_returned hforEach
    exact (runFrom_cons _).mpr ⟨mid, Outcome.returned?_eq_some.mpr hmid, ih hlater⟩

/-- A chunk is handled packet by packet. -/
theorem onRead_dispatches {id : ℕ} {nread : ℤ} {base : Bytes} (hnread : 0 < nread)
    (hread : onRead app id nread base world = .returned next) :
    ∃ last buffer, runFrom (app.dispatchStep id) (world.decoded app.host id base) world =
        some last ∧ next = last.setSlot id { last.slot id with buffer := buffer } := by
  rw [onRead, if_neg (by omega), if_neg (by omega)] at hread
  obtain ⟨receiver, happend, rfl⟩ := Outcome.map_eq_returned hread
  obtain ⟨-, hpackets⟩ := (wireDecoder app.host).drain_returned (app.handlePacket id)
    (Session.drain_of_appendToBufferBy happend)
  refine ⟨receiver.state, receiver.buffer, runFrom_of_forEach ?_, rfl⟩
  have hview := Outcome.forEach_map Endpoint.state
    (handlePacket_state_eq app id) (world.decoded app.host id base) ⟨world, []⟩
  exact hview.trans (by rw [World.decoded, hpackets]; rfl)

/-! ## The sessions' own tables -/

/-- The call adds nothing to the tables of a session. -/
def Call.LeavesTables : Call V H → Prop
  | .setSessionPacketHandler _ _ _ | .addInterceptor _ _ => False
  | _ => True

/-- User code adds nothing to the tables of a session when it is called. -/
structure Application.LeavesTables (app : Application U V H) : Prop where
  connect : ∀ id world, ∀ call ∈ (app.connectHandler id world).calls, call.LeavesTables
  close : ∀ id world, ∀ call ∈ (app.closeHandler id world).calls, call.LeavesTables
  packet : ∀ handler id packet world, ∀ call ∈ (app.onPacket handler id packet world).calls,
    call.LeavesTables

/-- Every session has the tables that `on_connection` gives it. -/
def World.Tables (world : World U V H) : Prop :=
  ∀ id, (world.slot id).interceptorManager = .empty ∧
    (world.slot id).packetHandlers = (Slot.accepted : Slot V H).packetHandlers

namespace World.Tables

theorem initial (memory : U) : (World.initial memory : World U V H).Tables :=
  fun _ ↦ ⟨rfl, rfl⟩

theorem setSlot (htables : world.Tables) (id : ℕ) {slot : Slot V H}
    (hinterceptors : slot.interceptorManager = .empty)
    (hhandlers : slot.packetHandlers = (Slot.accepted : Slot V H).packetHandlers) :
    (world.setSlot id slot).Tables := by
  intro other
  change (Function.update world.slot id slot other).interceptorManager = _ ∧
    (Function.update world.slot id slot other).packetHandlers = _
  by_cases heq : other = id
  · rw [heq, Function.update_self]
    exact ⟨hinterceptors, hhandlers⟩
  · rw [Function.update_of_ne heq]
    exact htables other

theorem setCore (htables : world.Tables) (id : ℕ) (core : Session.Core) :
    (world.setCore id core).Tables :=
  htables.setSlot id (htables id).1 (htables id).2

theorem send (htables : world.Tables) (host : Host) (id : ℕ) (packet : Packet)
    (write : WriteCall) : (world.send host id packet write).Tables :=
  htables.setCore id _

theorem broadcast (htables : world.Tables) (host : Host) (packet : Packet)
    (writes : ℕ → WriteCall) : (world.broadcast host packet writes).Tables := by
  unfold World.broadcast
  generalize world.sessions = sessions
  induction sessions generalizing world with
  | nil => exact htables
  | cons id sessions ih => exact ih (htables.send host id packet (writes id))

theorem run (htables : world.Tables) (host : Host) {call : Call V H} (hcall : call.LeavesTables) :
    (call.run host world).Tables := by
  have hcreated {id : ℕ} {after : World U V H} (hafter : after.Tables) :
      (if id < world.created then after else world).Tables := by
    split
    · exact hafter
    · exact htables
  cases call with
  | close id => exact hcreated (htables.setCore id _)
  | send id packet write => exact hcreated (htables.send host id packet write)
  | start id readResult => exact hcreated (htables.setCore id _)
  | stop id => exact hcreated (htables.setCore id _)
  | broadcast packet writes => exact htables.broadcast host packet writes
  | setPacketHandler type handler => exact htables
  | setDefaultPacketHandler handler => exact htables
  | setSessionPacketHandler id type handler => exact hcall.elim
  | addInterceptor id interceptor => exact hcall.elim

theorem react (htables : world.Tables) {reaction : Reaction U V H}
    (hcalls : ∀ call ∈ reaction.calls, call.LeavesTables)
    (hreact : app.react reaction world = .returned next) : next.Tables := by
  have hfold (calls : List (Call V H)) (hcalls : ∀ call ∈ calls, call.LeavesTables)
      {world : World U V H} (htables : world.Tables) :
      (calls.foldl (Call.run app.host) world).Tables := by
    induction calls generalizing world with
    | nil => exact htables
    | cons call calls ih =>
      obtain ⟨hcall, hlater⟩ := List.forall_mem_cons.mp hcalls
      exact ih hlater (htables.run app.host hcall)
  unfold Application.react at hreact
  split at hreact
  · cases hreact
    exact hfold reaction.calls hcalls htables
  · cases hreact

theorem create (htables : world.Tables) (readResult : ℤ) : (world.create readResult).Tables :=
  htables.setSlot world.created rfl rfl

end World.Tables

/-! ## One packet -/

/-- Handling the packet of a session called the handler registered at that moment, and no other. -/
def Honours (id : ℕ) (world : World U V H) (packet : Packet) (next : World U V H) : Prop :=
  next.packetCalls = world.packetCalls ++
    (world.findHandler packet.type).toList.map fun handler ↦ (id, handler, packet)

theorem World.packetCalls_record (id : ℕ) (handler : H) (packet : Packet) :
    (world.record id (.packet handler packet)).packetCalls =
      world.packetCalls ++ [(id, handler, packet)] := by
  simp [World.packetCalls, World.record]

theorem packetCalls_of_serves {id : ℕ} (hserves : Serves id [] world next) :
    next.packetCalls = world.packetCalls := by
  rw [World.packetCalls, hserves.calls]
  simp [World.packetCalls]

/-- A handler of the server is called for the packet, and it calls no other. -/
theorem callPacketHandler_packetCalls {id : ℕ} {handler : H} {packet : Packet}
    (hcall : app.callPacketHandler handler id packet world = .returned next) :
    next.packetCalls = world.packetCalls ++ [(id, handler, packet)] := by
  have hreact := packetCalls_of_serves (Serves.react id hcall)
  exact hreact.trans (World.packetCalls_record id handler packet)

/-- The default handler of a session consults the tables of the server as they are. -/
theorem serverTables_eq (id : ℕ) (packet : Packet) :
    app.serverTables id packet world =
      match world.findHandler packet.type with
      | some handler => app.callPacketHandler handler id packet world
      | none => .returned world := by
  unfold Application.serverTables World.findHandler
  cases world.packetHandlers packet.type with
  | some handler => rfl
  | none => rfl

/-- A packet that is no heartbeat goes to the tables of the server. -/
theorem dispatch_of_ne (htables : world.Tables) (id : ℕ) {packet : Packet}
    (htype : packet.type ≠ .heartbeat) :
    app.dispatch id packet world = app.serverTables id packet world := by
  obtain ⟨hinterceptors, hhandlers⟩ := htables id
  have hnone : (world.slot id).packetHandlers packet.type = none := by
    rw [hhandlers]
    exact if_neg htype
  have hintercept : (app.program id (world.slot id)).intercept packet =
      .ok (some .serverTables) := by
    simp [Program.intercept, Program.findHandler, Application.program, hinterceptors, hnone,
      InterceptorManager.getInterceptor, InterceptorManager.empty]
  unfold Application.dispatch Application.handlePacket
  rw [Session.handlePacket_of_ne _ htype, Client.dispatch_eq, hintercept]
  simp only [Endpoint.observe, Program.call, Program.callHandler, Outcome.map_map]
  change (app.serverTables id packet world).map _ = _
  cases app.serverTables id packet world with
  | returned state => rfl
  | threw error state => rfl

theorem dispatch_of_heartbeat (id : ℕ) {packet : Packet} (htype : packet.type = .heartbeat) :
    app.dispatch id packet world = .returned
      (world.setCore id { (world.slot id).core with lastHeartbeatTime := world.now }) := by
  unfold Application.dispatch Application.handlePacket
  rw [Session.handlePacket_of_heartbeat _ htype]
  rfl

/-- The registrations are honoured for a packet unless it is a heartbeat for which there is one. -/
theorem honours_iff (htables : world.Tables) {id : ℕ} {packet : Packet}
    (hstep : app.dispatchStep id world packet = some next) :
    Honours id world packet next ↔
      (packet.type = .heartbeat → world.findHandler packet.type = none) := by
  have hdispatch := Outcome.returned?_eq_some.mp hstep
  by_cases htype : packet.type = .heartbeat
  · rw [dispatch_of_heartbeat id htype] at hdispatch
    cases hdispatch
    have hbeat : Serves id [] world
        (world.setCore id { (world.slot id).core with lastHeartbeatTime := world.now }) :=
      .setCore id (.hearHeartbeat world.now)
    rw [Honours, packetCalls_of_serves hbeat, List.self_eq_append_right, List.map_eq_nil_iff,
      Option.toList_eq_nil_iff]
    simp [htype]
  · rw [dispatch_of_ne htables id htype, serverTables_eq] at hdispatch
    refine iff_of_true ?_ fun hheartbeat ↦ absurd hheartbeat htype
    unfold Honours
    cases hhandler : world.findHandler packet.type with
    | none =>
      rw [hhandler] at hdispatch
      cases hdispatch
      simp
    | some handler =>
      rw [hhandler] at hdispatch
      exact callPacketHandler_packetCalls hdispatch

theorem World.Tables.dispatchStep (hleaves : app.LeavesTables) (htables : world.Tables) {id : ℕ}
    {packet : Packet} (hstep : app.dispatchStep id world packet = some next) : next.Tables := by
  have hdispatch := Outcome.returned?_eq_some.mp hstep
  by_cases htype : packet.type = .heartbeat
  · rw [dispatch_of_heartbeat id htype] at hdispatch
    cases hdispatch
    exact htables.setCore id _
  · rw [dispatch_of_ne htables id htype, serverTables_eq] at hdispatch
    cases hhandler : world.findHandler packet.type with
    | none =>
      rw [hhandler] at hdispatch
      cases hdispatch
      exact htables
    | some handler =>
      rw [hhandler] at hdispatch
      have hrecord : (world.record id (.packet handler packet)).Tables := htables
      exact hrecord.react (hleaves.packet handler id packet _) hdispatch

/-! ## Runs -/

/-- A step that brings a chunk for a session runs through the packets decoded from it, for each of
which the registrations are honoured; any other step calls no packet handler of the server. -/
def HonoursRegistrations (app : Application U V H) (world : World U V H) (event : Event V H)
    (next : World U V H) : Prop :=
  match event.received? with
  | none => next.packetCalls = world.packetCalls
  | some (id, base) =>
    Along (app.dispatchStep id) (Honours id) (world.decoded app.host id base) world ∧
      ∃ last, runFrom (app.dispatchStep id) (world.decoded app.host id base) world = some last ∧
        next.packetCalls = last.packetCalls

/-- Every heartbeat packet that a chunk brings finds neither a handler for its type nor a default
handler on the server when its turn comes. -/
def NoHeartbeatHandler (app : Application U V H) (world : World U V H) (event : Event V H)
    (_ : World U V H) : Prop :=
  ∀ received ∈ event.received?,
    Along (app.dispatchStep received.1)
      (fun world packet _ ↦ packet.type = .heartbeat → world.findHandler packet.type = none)
      (world.decoded app.host received.1 received.2) world

theorem received?_onRead {id : ℕ} {nread : ℤ} {base : Bytes} (hnread : 0 < nread) :
    (.onRead id nread base : Event V H).received? = some (id, base) :=
  if_pos hnread

theorem received?_eq_some {event : Event V H} {id : ℕ} {base : Bytes}
    (hreceived : event.received? = some (id, base)) :
    ∃ nread, 0 < nread ∧ event = .onRead id nread base := by
  cases event with
  | onRead other nread bytes =>
    simp only [Event.received?, Option.ite_none_right_eq_some, Option.some.injEq,
      Prod.mk.injEq] at hreceived
    obtain ⟨hnread, rfl, rfl⟩ := hreceived
    exact ⟨nread, hnread, rfl⟩
  | _ => cases hreceived

/-- Without a chunk no packet handler is called, and the sessions keep their tables. -/
theorem step_of_received?_none {event : Event V H} (hleaves : app.LeavesTables)
    (hevent : ∀ call, event = .call call → call.LeavesTables) (htables : world.Tables)
    (hreceived : event.received? = none) (hstep : step app world event = some next) :
    next.packetCalls = world.packetCalls ∧ next.Tables := by
  unfold step at hstep
  split at hstep
  · rw [Outcome.returned?_eq_some] at hstep
    cases event with
    | call call =>
      cases hstep
      exact ⟨packetCalls_of_serves (.run 0 world app.host call),
        htables.run app.host (hevent call rfl)⟩
    | onConnection status readResult =>
      change onConnection app status readResult world = .returned next at hstep
      unfold onConnection at hstep
      split at hstep
      · cases hstep
        exact ⟨rfl, htables⟩
      · have hcreated : ((world.create readResult).record world.created .connect).Tables :=
          htables.create readResult
        have hsame : ((world.create readResult).record world.created .connect).packetCalls =
            world.packetCalls := by
          simp [World.packetCalls, World.record, World.create]
        exact ⟨(packetCalls_of_serves (Serves.react 0 hstep)).trans hsame,
          hcreated.react (hleaves.connect _ _) hstep⟩
    | onRead id nread base =>
      have hnread : ¬ 0 < nread := fun hnread ↦ by
        rw [received?_onRead hnread] at hreceived
        cases hreceived
      change onRead app id nread base world = .returned next at hstep
      unfold onRead at hstep
      split_ifs at hstep with hnegative hzero
      · cases hstep
        exact ⟨rfl, htables.setCore id _⟩
      · cases hstep
        exact ⟨rfl, htables⟩
      · omega
    | onWrite id status =>
      cases hstep
      exact ⟨rfl, htables.setCore id _⟩
    | onClose id =>
      have hforgotten : ((world.forget id).record id .close).Tables := htables.setCore id _
      have hsame : ((world.forget id).record id .close).packetCalls = world.packetCalls := by
        simp [World.packetCalls, World.record, World.forget, World.setCore, World.setSlot]
      exact ⟨(packetCalls_of_serves (Serves.react 0 hstep)).trans hsame,
        hforgotten.react (hleaves.close _ _) hstep⟩
    | onHeartbeatTimer id write =>
      cases hstep
      exact ⟨rfl, htables.setCore id _⟩
    | transmit id count =>
      cases hstep
      exact ⟨rfl, htables.setCore id _⟩
    | elapse milliseconds =>
      cases hstep
      exact ⟨rfl, htables⟩
  · cases hstep

/-- A chunk is handled packet by packet, and the sessions keep their tables. -/
theorem step_of_received?_some {event : Event V H} {id : ℕ} {base : Bytes}
    (hleaves : app.LeavesTables) (htables : world.Tables)
    (hreceived : event.received? = some (id, base)) (hstep : step app world event = some next) :
    next.Tables ∧ ∃ last,
      runFrom (app.dispatchStep id) (world.decoded app.host id base) world = some last ∧
        next.packetCalls = last.packetCalls := by
  obtain ⟨nread, hnread, rfl⟩ := received?_eq_some hreceived
  unfold step at hstep
  split at hstep
  · rw [Outcome.returned?_eq_some] at hstep
    obtain ⟨last, buffer, hrun, rfl⟩ := onRead_dispatches hnread hstep
    have hlast : last.Tables := runFrom_invariant
      (fun htables hstep ↦ World.Tables.dispatchStep hleaves htables hstep) htables hrun
    exact ⟨hlast.setSlot id (hlast id).1 (hlast id).2, last, hrun, rfl⟩
  · cases hstep

/-- A step honours the registrations exactly if no heartbeat packet in it finds one. -/
theorem honoursRegistrations_iff {event : Event V H} (hleaves : app.LeavesTables)
    (hevent : ∀ call, event = .call call → call.LeavesTables) (htables : world.Tables)
    (hstep : step app world event = some next) :
    HonoursRegistrations app world event next ↔ NoHeartbeatHandler app world event next := by
  unfold HonoursRegistrations NoHeartbeatHandler
  cases hreceived : event.received? with
  | none =>
    refine iff_of_true ?_ (by simp)
    exact (step_of_received?_none hleaves hevent htables hreceived hstep).1
  | some received =>
    obtain ⟨id, base⟩ := received
    obtain ⟨-, hrun⟩ := step_of_received?_some hleaves htables hreceived hstep
    change (_ ∧ _) ↔ _
    rw [and_iff_left hrun]
    simp only [Option.mem_def, Option.some.injEq, forall_eq']
    refine Along.congr ?_ ?_ htables
    · intro packet _ world next htables hstep
      exact honours_iff htables hstep
    · intro packet _ world next htables hstep _
      exact htables.dispatchStep hleaves hstep

theorem World.Tables.step {event : Event V H} (hleaves : app.LeavesTables)
    (hevent : ∀ call, event = .call call → call.LeavesTables) (htables : world.Tables)
    (hstep : Server.step app world event = some next) : next.Tables := by
  cases hreceived : event.received? with
  | none => exact (step_of_received?_none hleaves hevent htables hreceived hstep).2
  | some received => exact (step_of_received?_some hleaves htables hreceived hstep).1

theorem along_honours_iff (hleaves : app.LeavesTables) (memory : U) {events : List (Event V H)}
    (hevents : ∀ call, .call call ∈ events → call.LeavesTables) :
    Along (Server.step app) (HonoursRegistrations app) events (.initial memory) ↔
      Along (Server.step app) (NoHeartbeatHandler app) events (.initial memory) := by
  have hcalls {event : Event V H} (hevent : event ∈ events) (call : Call V H)
      (hcall : event = .call call) : call.LeavesTables := hevents call (hcall ▸ hevent)
  exact Along.congr
    (fun event hevent _ _ htables hstep ↦
      honoursRegistrations_iff hleaves (hcalls hevent) htables hstep)
    (fun event hevent _ _ htables hstep _ ↦
      World.Tables.step hleaves (hcalls hevent) htables hstep)
    (World.Tables.initial memory)

/-- **Dispatch through the tables of the server.** As long as user code adds nothing to the tables
of the sessions, a run honours the registrations on the server (each packet decoded on a session
goes to the handler that is registered for its type at that moment, or else to the default handler,
and to no other) if and only if no heartbeat packet that is decoded in it finds a handler for its
type, or a default handler, on the server. -/
theorem registrations_honoured_iff (app : Application U V H) (hleaves : app.LeavesTables)
    (memory : U) (events : List (Event V H))
    (hevents : ∀ call, .call call ∈ events → call.LeavesTables) :
    Along (step app) (HonoursRegistrations app) events (.initial memory) ↔
      Along (step app) (NoHeartbeatHandler app) events (.initial memory) :=
  along_honours_iff hleaves memory hevents

/-- A frame of a heartbeat packet. -/
def heartbeatFrame : Bytes := [1, 4, 0, 0, 0, 0, 0, 0, 0, 0, 0, 0]

/-- A frame of a text packet of one byte. -/
def textFrame : Bytes := [1, 0, 0, 0, 1, 0, 0, 0, 0, 0, 0, 0, 104]

/-- An application that sets a default handler and hears of everything, and does no more. -/
def listener : Application Unit Unit Unit where
  host := .wide .little
  connectHandler _ _ := ⟨[.setDefaultPacketHandler ()], (), none⟩
  closeHandler _ _ := ⟨[], (), none⟩
  onPacket _ _ _ _ := ⟨[], (), none⟩
  onSessionPacket _ _ _ _ := ⟨[], (), none⟩

theorem listener_leavesTables : listener.LeavesTables where
  connect _ _ := List.forall_mem_singleton.mpr trivial
  close _ _ := List.forall_mem_nil _
  packet _ _ _ _ := List.forall_mem_nil _

/-- A connection, a handler for a type, and a chunk. -/
def registerThenRead (type : PacketType) (chunk : Bytes) : List (Event Unit Unit) :=
  [.onConnection 0 0, .call (.setPacketHandler type ()), .onRead 0 chunk.length chunk]

theorem registerThenRead_leavesTables (type : PacketType) (chunk : Bytes) :
    ∀ call, .call call ∈ registerThenRead type chunk → call.LeavesTables := by
  intro call hcall
  simp only [registerThenRead, List.mem_cons, reduceCtorEq, Event.call.injEq, List.not_mem_nil,
    or_false, false_or] at hcall
  rw [hcall]
  trivial

theorem registrations_honoured_text :
    Along (step listener) (HonoursRegistrations listener) (registerThenRead .text textFrame)
      (.initial ()) :=
  (registrations_honoured_iff listener listener_leavesTables () _
    (registerThenRead_leavesTables .text textFrame)).mpr (by
      unfold NoHeartbeatHandler
      decide)

/-- A handler that is registered for heartbeat packets is not called for one. -/
theorem heartbeat_registration_ignored :
    ¬ ∀ events : List (Event Unit Unit), (∀ call, .call call ∈ events → call.LeavesTables) →
      (runFrom (step listener) events (.initial ())).isSome →
      Along (step listener) (HonoursRegistrations listener) events (.initial ()) := by
  intro hhonours
  have hrun := hhonours (registerThenRead .heartbeat heartbeatFrame)
    (registerThenRead_leavesTables .heartbeat heartbeatFrame) (by decide)
  rw [along_honours_iff listener_leavesTables ()
    (registerThenRead_leavesTables .heartbeat heartbeatFrame)] at hrun
  revert hrun
  unfold NoHeartbeatHandler
  decide

end Server

end LibuvNet
