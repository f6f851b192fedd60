import LibuvNet.Server.Keeping
import LibuvNet.Server.Registry

/-!
# What a server makes of what it hears

Each session takes packets out of its buffer one after the other, and a property that ties the
server to the packets its sessions have taken out so far is an invariant as soon as every packet
keeps it and every step that brings none.  The first such property is about the handlers of the
server: whatever user code does, they are called for the packets of a session in their order, and
at most once for each; and once a default handler is set, they are called for every packet that is
no heartbeat, as long as user code adds nothing to the tables of the sessions.
-/

namespace LibuvNet

open Foundation

namespace Server

variable {U V H : Type*}

/-- The packet a handler is called with. -/
def UserCall.handed? : UserCall H → Option Packet
  | .packet _ handed => some handed
  | .connect | .close => none

/-- The packets that handlers of the server were called with for one session. -/
def World.handled (world : World U V H) (id : ℕ) : List Packet :=
  (world.callsOf id).filterMap UserCall.handed?

/-- What the sessions have taken out of their buffers once the event has happened. -/
def Event.hear (host : Host) (world : World U V H) (event : Event V H)
    (heard : ℕ → List Packet) : ℕ → List Packet :=
  match event.received? with
  | none => heard
  | some (id, base) => Function.update heard id (heard id ++ world.decoded host id base)

/-! ## Invariants about what was heard -/

/-- A property of a server and of what its sessions have heard that is kept by every packet and by
the admitted events that bring none. -/
structure HeardInvariant (app : Application U V H) (Admits : Event V H → Prop)
    (Holds : (ℕ → List Packet) → World U V H → Prop) : Prop where
  other : ∀ {heard world next event}, Admits event → event.received? = none →
    step app world event = some next → Holds heard world → Holds heard next
  packet : ∀ {heard world next id packet}, id < world.created →
    app.dispatch id packet world = .returned next → Holds heard world →
    Holds (Function.update heard id (heard id ++ [packet])) next
  buffer : ∀ {heard world id} (buffer : Bytes), Holds heard world →
    Holds heard (world.setSlot id { world.slot id with buffer := buffer })

section Dispatch

variable {app : Application U V H} {world next : World U V H} {id : ℕ} {packet : Packet}

/-- Handling a packet calls one handler of the server with it, or none. -/
theorem dispatch_serves (hdispatch : app.dispatch id packet world = .returned next) :
    ∃ handler : Option H, Serves id (handler.toList.map fun called ↦ (called, packet)) world
      next := by
  obtain ⟨endpoint, hhandle, rfl⟩ := Outcome.map_eq_returned hdispatch
  rcases Session.handlePacket_state _ hhandle with hsame | hbeat | ⟨handler, hinvoke⟩
  · rw [hsame]
    exact ⟨none, .refl id world⟩
  · rw [hbeat]
    exact ⟨none, .setCore id (.hearHeartbeat world.now)⟩
  · cases handler with
    | ignoreHeartbeat =>
      cases hinvoke
      exact ⟨none, .refl id _⟩
    | serverTables =>
      change app.serverTables id packet world = .returned endpoint.state at hinvoke
      rw [serverTables_eq] at hinvoke
      cases hhandler : world.findHandler packet.type with
      | none =>
        rw [hhandler] at hinvoke
        cases hinvoke
        exact ⟨none, .refl id _⟩
      | some called =>
        rw [hhandler] at hinvoke
        exact ⟨some called, .callPacketHandler hinvoke⟩
    | user handler => exact ⟨none, .react id hinvoke⟩

theorem dispatch_created (hdispatch : app.dispatch id packet world = .returned next) :
    next.created = world.created := by
  obtain ⟨handler, hserves⟩ := dispatch_serves hdispatch
  exact hserves.created

end Dispatch

variable {app : Application U V H} {Admits : Event V H → Prop}
  {Holds : (ℕ → List Packet) → World U V H → Prop} {world next : World U V H}

/-- The packets of one chunk, one after the other. -/
theorem HeardInvariant.dispatches (hinvariant : HeardInvariant app Admits Holds)
    {heard : ℕ → List Packet} (hholds : Holds heard world) {id : ℕ} (hid : id < world.created)
    {packets : List Packet} (hrun : runFrom (app.dispatchStep id) packets world = some next) :
    Holds (Function.update heard id (heard id ++ packets)) next := by
  have hstep {past : List Packet} {world next : World U V H} {packet : Packet}
      (hpast : id < world.created ∧ Holds (Function.update heard id (heard id ++ past)) world)
      (hdispatch : app.dispatchStep id world packet = some next) :
      id < next.created ∧
        Holds (Function.update heard id (heard id ++ (past ++ [packet]))) next := by
    rw [Application.dispatchStep, Outcome.returned?_eq_some] at hdispatch
    have hpacket := hinvariant.packet hpast.1 hdispatch hpast.2
    rw [Function.update_self, Function.update_idem, List.append_assoc] at hpacket
    exact ⟨(dispatch_created hdispatch).symm ▸ hpast.1, hpacket⟩
  have hstart : id < world.created ∧ Holds (Function.update heard id (heard id ++ [])) world := by
    rw [List.append_nil, Function.update_eq_self]
    exact ⟨hid, hholds⟩
  exact (runFrom_history (fun past world ↦ id < world.created ∧
    Holds (Function.update heard id (heard id ++ past)) world) hstep hstart hrun).2

/-- An invariant about what was heard is kept by every admitted step. -/
theorem HeardInvariant.step (hinvariant : HeardInvariant app Admits Holds) {event : Event V H}
    (hadmits : Admits event) {heard : ℕ → List Packet} (hholds : Holds heard world)
    (hstep : Server.step app world event = some next) :
    Holds (event.hear app.host world heard) next := by
  unfold Event.hear
  cases hreceived : event.received? with
  | none => exact hinvariant.other hadmits hreceived hstep hholds
  | some received =>
    obtain ⟨id, base⟩ := received
    obtain ⟨nread, hnread, rfl⟩ := received?_eq_some hreceived
    unfold Server.step at hstep
    split at hstep
    · rename_i hdue
      rw [Outcome.returned?_eq_some] at hstep
      obtain ⟨last, buffer, hrun, rfl⟩ := onRead_dispatches hnread hstep
      exact hinvariant.buffer buffer (hinvariant.dispatches hholds hdue.1 hrun)
    · cases hstep

/-! ## The handlers of the server -/

theorem World.handled_congr {id : ℕ} (hcalls : next.callsOf id = world.callsOf id) :
    next.handled id = world.handled id := by
  rw [World.handled, World.handled, hcalls]

/-- What was recorded of a connection or a close callback is no packet. -/
theorem World.handled_record {id other : ℕ} {call : UserCall H} (hcall : call.handed? = none) :
    (world.record other call).handled id = world.handled id := by
  unfold World.handled
  by_cases heq : other = id
  · subst heq
    rw [World.callsOf_record_self, List.filterMap_append, List.filterMap_cons_none hcall,
      List.filterMap_nil, List.append_nil]
  · rw [World.callsOf_record_ne call heq]

/-- Handlers that are called for one session are called for no other. -/
theorem Serves.handled {id : ℕ} {packets : List (H × Packet)}
    (hserves : Serves id packets world next) :
    next.handled = Function.update world.handled id (world.handled id ++ packets.map Prod.snd) := by
  funext other
  by_cases heq : other = id
  · subst heq
    rw [Function.update_self, World.handled, hserves.callsOf_self, List.filterMap_append,
      List.filterMap_map]
    exact congrArg (world.handled other ++ ·) (congrFun List.filterMap_eq_map packets)
  · rw [Function.update_of_ne heq]
    exact World.handled_congr (hserves.callsOf_ne (Ne.symm heq))

theorem Serves.handled_nil {id : ℕ} (hserves : Serves id [] world next) :
    next.handled = world.handled := by
  rw [hserves.handled, List.map_nil, List.append_nil, Function.update_eq_self]

/-- A step that brings no chunk calls no packet handler of the server. -/
theorem handled_step {event : Event V H} (hreceived : event.received? = none)
    (hstep : step app world event = some next) : next.handled = world.handled := by
  unfold step at hstep
  split at hstep
  · rw [Outcome.returned?_eq_some] at hstep
    cases event with
    | call call =>
      cases hstep
      exact (Serves.run 0 world app.host call).handled_nil
    | onConnection status readResult =>
      change onConnection app status readResult world = .returned next at hstep
      unfold onConnection at hstep
      split at hstep
      · cases hstep
        rfl
      · rw [(Serves.react 0 hstep).handled_nil]
        funext id
        exact World.handled_record rfl
    | onRead id nread base =>
      change onRead app id nread base world = .returned next at hstep
      have hnread : ¬ 0 < nread := fun hnread ↦ by
        rw [received?_onRead hnread] at hreceived
        cases hreceived
      unfold onRead at hstep
      split_ifs at hstep
      · cases hstep
        exact (Serves.setCore 0 .close).handled_nil
      · cases hstep
        rfl
      · omega
    | onClose id =>
      rw [(Serves.react 0 hstep).handled_nil]
      funext other
      exact World.handled_record rfl
    | onWrite id status =>
      cases hstep
      exact (Serves.setCore 0 (.onWrite status)).handled_nil
    | onHeartbeatTimer id write =>
      cases hstep
      have hticked : Serves 0 [] world (world.setCore id
          ((world.slot id).core.tick app.host write world.now world.heap).2) :=
        .setCore 0 (.tick app.host write world.now world.heap)
      exact (hticked.withHeap _).handled_nil
    | transmit id count =>
      cases hstep
      exact (Serves.setCore 0 (.transmit world.heap count)).handled_nil
    | elapse milliseconds =>
      cases hstep
      rfl
  · cases hstep

/-- Handlers are called with packets their session has heard, in order and at most once each. -/
def World.HandlesHeard (heard : ℕ → List Packet) (world : World U V H) : Prop :=
  ∀ id, (world.handled id).Sublist (heard id)

theorem handlesHeard_invariant (app : Application U V H) :
    HeardInvariant app (fun _ ↦ True) World.HandlesHeard where
  other _ hreceived hstep hholds id := by
    rw [handled_step hreceived hstep]
    exact hholds id
  packet {heard world next id packet} _ hdispatch hholds other := by
    obtain ⟨handler, hserves⟩ := dispatch_serves hdispatch
    rw [hserves.handled]
    by_cases heq : other = id
    · subst heq
      rw [Function.update_self, Function.update_self]
      apply (hholds other).append
      cases handler with
      | none => exact List.nil_sublist _
      | some called => exact List.Sublist.refl _
    · rw [Function.update_of_ne heq, Function.update_of_ne heq]
      exact hholds other
  buffer _ hholds := hholds

/-! ## With a default handler -/

/-- A default handler is set on the server. -/
def World.HasDefault (world : World U V H) : Prop := world.defaultPacketHandler.isSome

/-- Handlers were called with all that was heard but the heartbeats, and will be. -/
structure World.HandlesAll (heard : ℕ → List Packet) (world : World U V H) : Prop where
  tables : world.Tables
  default : world.HasDefault
  handled : ∀ id, world.handled id = (heard id).filter fun packet ↦ packet.type ≠ .heartbeat

/-- A default handler is never unset. -/
theorem kept_hasDefault (host : Host) :
    Kept host Call.Any fun world : World U V H ↦ world.HasDefault where
  run {world} call _ hworld := by
    cases call with
    | setDefaultPacketHandler handler => rfl
    | broadcast packet writes =>
      change (world.broadcast host packet writes).HasDefault
      unfold World.broadcast
      generalize world.sessions = sessions
      induction sessions generalizing world with
      | nil => exact hworld
      | cons id sessions ih => exact ih hworld
    | setPacketHandler type handler => exact hworld
    | close | send | start | stop | setSessionPacketHandler | addInterceptor =>
      simp only [Call.run]
      split
      · exact hworld
      · exact hworld
  memory _ hworld := hworld
  record _ _ hworld := hworld
  hear _ hworld := hworld

theorem findHandler_isSome (hdefault : world.HasDefault) (type : PacketType) :
    ∃ handler, world.findHandler type = some handler := by
  unfold World.findHandler
  cases world.packetHandlers type with
  | some handler => exact ⟨handler, rfl⟩
  | none => exact Option.isSome_iff_exists.mp hdefault

/-- The calls among the events add nothing to the tables of the sessions. -/
def Event.LeavesTables (event : Event V H) : Prop :=
  ∀ call, event = .call call → call.LeavesTables

theorem handlesAll_invariant (hleaves : app.LeavesTables) :
    HeardInvariant app Event.LeavesTables World.HandlesAll where
  other {heard world next event} hadmits hreceived hstep hholds := by
    refine ⟨hholds.tables.step hleaves hadmits hstep, ?_, fun id ↦ ?_⟩
    · have heffect : (event.effect app.host world).HasDefault := by
        cases event with
        | call call => exact (kept_hasDefault app.host).run call trivial hholds.default
        | onConnection | onRead =>
          simp only [Event.effect]
          split
          · exact hholds.default
          · exact hholds.default
        | onWrite | onClose | onHeartbeatTimer | transmit | elapse => exact hholds.default
      obtain ⟨last, hlast, rfl⟩ := (kept_hasDefault app.host).step app.makes_any heffect hstep
      simp only [Event.buffer, hreceived]
      exact hlast
    · rw [handled_step hreceived hstep]
      exact hholds.handled id
  packet {heard world next id packet} _ hdispatch hholds := by
    have hstep : app.dispatchStep id world packet = some next :=
      Outcome.returned?_eq_some.mpr hdispatch
    refine ⟨hholds.tables.dispatchStep hleaves hstep,
      (kept_hasDefault app.host).dispatch app.makes_any hholds.default hdispatch, fun other ↦ ?_⟩
    have hhandled : next.handled = Function.update world.handled id
        (world.handled id ++ [packet].filter fun packet ↦ packet.type ≠ .heartbeat) := by
      by_cases htype : packet.type = .heartbeat
      · rw [dispatch_of_heartbeat id htype] at hdispatch
        cases hdispatch
        rw [(Serves.setCore id (.hearHeartbeat world.now)).handled_nil]
        simp [htype]
      · obtain ⟨handler, hhandler⟩ := findHandler_isSome hholds.default packet.type
        rw [dispatch_of_ne hholds.tables id htype, serverTables_eq, hhandler] at hdispatch
        rw [(Serves.callPacketHandler hdispatch).handled]
        simp [htype]
    rw [hhandled]
    by_cases heq : other = id
    · subst heq
      rw [Function.update_self, Function.update_self, List.filter_append, hholds.handled]
    · rw [Function.update_of_ne heq, Function.update_of_ne heq]
      exact hholds.handled other
  buffer {heard world id} _ hholds :=
    ⟨hholds.tables.setSlot id (hholds.tables id).1 (hholds.tables id).2, hholds.default,
      hholds.handled⟩

end Server

end LibuvNet
