import LibuvNet.Server.Dispatching

/-!
# What user code cannot break

Between the callbacks of the loop user code runs with the whole server in its hands, and yet it
changes it through the calls of the library only.  A property that every such call keeps, and that
the handling of a heartbeat keeps, survives any step if it survives what the server itself does at
the event.  A property of the members of the sessions, one by one, is such a property as soon as
the operations of a session keep it.
-/

namespace LibuvNet

open Foundation

/-- What user code can do to the members of a session at some time.  Only some user code may start
and stop the timer. -/
inductive Session.CallStep (host : Host) (timers : Prop) (now : ℕ) (core : Session.Core) :
    Session.Core → Prop
  | start (readResult : ℤ) (htimers : timers) : CallStep host timers now core
      (core.start now readResult)
  | stop (htimers : timers) : CallStep host timers now core core.stop
  | close : CallStep host timers now core core.close
  | send (packet : Packet) (write : WriteCall) (heap : Memory UInt8) :
      CallStep host timers now core (core.send host packet write heap).2

/-- What user code or a heartbeat of the peer can do. -/
inductive Session.UserStep (host : Host) (timers : Prop) (now : ℕ) (core : Session.Core) :
    Session.Core → Prop
  | call {next : Session.Core} (hcall : Session.CallStep host timers now core next) :
      UserStep host timers now core next
  | hear : UserStep host timers now core { core with lastHeartbeatTime := now }

namespace Server

variable {U V H : Type*}

/-- Any call. -/
def Call.Any (_ : Call V H) : Prop := True

/-- The call neither starts nor stops a session, and so leaves its timer alone. -/
def Call.LeavesTimers : Call V H → Prop
  | .start _ _ | .stop _ => False
  | _ => True

/-- What the application does when it is called it does by calls of a certain kind. -/
structure Application.Makes (app : Application U V H) (Admits : Call V H → Prop) : Prop where
  connect : ∀ id world, ∀ call ∈ (app.connectHandler id world).calls, Admits call
  close : ∀ id world, ∀ call ∈ (app.closeHandler id world).calls, Admits call
  packet : ∀ handler id packet world, ∀ call ∈ (app.onPacket handler id packet world).calls,
    Admits call
  sessionPacket : ∀ handler id packet world,
    ∀ call ∈ (app.onSessionPacket handler id packet world).calls, Admits call

theorem Application.makes_any (app : Application U V H) : app.Makes Call.Any :=
  ⟨fun _ _ _ _ ↦ trivial, fun _ _ _ _ ↦ trivial, fun _ _ _ _ _ _ ↦ trivial,
    fun _ _ _ _ _ _ ↦ trivial⟩

section Runs

variable {app : Application U V H} {world next : World U V H}

theorem step_eq_some {event : Event V H} :
    step app world event = some next ↔
      event.Due world ∧ handle app event world = .returned next := by
  unfold step
  split
  · rename_i hdue
    simp [hdue]
  · rename_i hnot
    simp [hnot]

theorem react_eq_returned {reaction : Reaction U V H} :
    app.react reaction world = .returned next ↔ reaction.throws = none ∧
      { reaction.calls.foldl (Call.run app.host) world with memory := reaction.memory } = next := by
  unfold Application.react
  cases reaction.throws with
  | none => simp
  | some error => simp

end Runs

/-- A property of a server that no call of a certain kind and nothing user code remembers can
break. -/
structure Unbroken (host : Host) (Admits : Call V H → Prop) (Holds : World U V H → Prop) :
    Prop where
  run : ∀ {world} (call : Call V H), Admits call → Holds world → Holds (call.run host world)
  memory : ∀ {world} (memory : U), Holds world → Holds { world with memory := memory }
  record : ∀ {world} (id : ℕ) (call : UserCall H), Holds world → Holds (world.record id call)

/-- No heartbeat of a peer can break it either. -/
structure Kept (host : Host) (Admits : Call V H → Prop) (Holds : World U V H → Prop) : Prop
    extends Unbroken host Admits Holds where
  hear : ∀ {world} (id : ℕ), Holds world →
    Holds (world.setCore id { (world.slot id).core with lastHeartbeatTime := world.now })

/-- What the server itself does at an event, before it handles packets and calls user code. -/
def Event.effect (host : Host) (world : World U V H) : Event V H → World U V H
  | .call made => made.run host world
  | .onConnection status readResult =>
    if status < 0 then world else (world.create readResult).record world.created .connect
  | .onRead id nread _ => if nread < 0 then world.close id else world
  | .onWrite id status => world.setCore id ((world.slot id).core.onWrite status)
  | .onClose id => (world.forget id).record id .close
  | .onHeartbeatTimer id write =>
    let ticked := (world.slot id).core.tick host write world.now world.heap
    { world.setCore id ticked.2 with heap := ticked.1 }
  | .transmit id count =>
    let core := (world.slot id).core
    world.setCore id { core with socket := core.socket.transmit world.heap count }
  | .elapse milliseconds => { world with now := world.now + milliseconds }

/-- The session whose receive buffer a chunk goes to gets a new one. -/
def Event.buffer (host : Host) (world : World U V H) (event : Event V H) (next : World U V H) :
    World U V H :=
  match event.received? with
  | none => next
  | some (id, base) =>
    next.setSlot id
      { next.slot id with buffer := (wireDecoder host).kept ((world.slot id).buffer ++ base) }

@[simp]
theorem Event.buffer_created (host : Host) (world next : World U V H) (event : Event V H) :
    (event.buffer host world next).created = next.created := by
  unfold Event.buffer
  split <;> rfl

/-- A buffer is no member that the operations of a session look at. -/
@[simp]
theorem Event.buffer_core (host : Host) (world next : World U V H) (event : Event V H) (id : ℕ) :
    ((event.buffer host world next).slot id).core = (next.slot id).core := by
  unfold Event.buffer
  split
  · rfl
  · rename_i session base _
    change (Function.update next.slot session _ id).core = _
    by_cases heq : id = session
    · rw [heq, Function.update_self]
    · rw [Function.update_of_ne heq]

namespace World

variable (Holds : ℕ → Slot V H → Prop) {world : World U V H}

/-- A property of all sessions is one of the session that changes. -/
theorem forall_setSlot (hworld : ∀ other, Holds other (world.slot other)) (id : ℕ)
    {slot : Slot V H} (hslot : Holds id slot) (other : ℕ) :
    Holds other ((world.setSlot id slot).slot other) := by
  change Holds other (Function.update world.slot id slot other)
  by_cases heq : other = id
  · subst heq
    rwa [Function.update_self]
  · rw [Function.update_of_ne heq]
    exact hworld other

end World

namespace Unbroken

variable {app : Application U V H} {Admits : Call V H → Prop} {Holds : World U V H → Prop}
  {world next : World U V H}

/-- What no operation of a session and no new handler breaks, of all sessions. -/
theorem of_slots {host : Host} {timers : Prop}
    (htimers : ∀ {call : Call V H}, Admits call → ¬ call.LeavesTimers → timers)
    (Each : ℕ → ℕ → Slot V H → Prop)
    (hcore : ∀ {now id slot core}, Each now id slot →
      Session.CallStep host timers now slot.core core → Each now id { slot with core := core })
    (htables : ∀ {now id slot} manager handlers, Each now id slot →
      Each now id { slot with interceptorManager := manager, packetHandlers := handlers }) :
    Unbroken host Admits fun world : World U V H ↦ ∀ id, Each world.now id (world.slot id) where
  run {world} call hadmits hworld := by
    have hcreated {id : ℕ} {after : World U V H}
        (hafter : ∀ other, Each after.now other (after.slot other)) :
        ∀ other, Each (if id < world.created then after else world).now other
          ((if id < world.created then after else world).slot other) := by
      split
      · exact hafter
      · exact hworld
    have hset (id : ℕ) {core : Session.Core} {world : World U V H}
        (hworld : ∀ other, Each world.now other (world.slot other))
        (hstep : Session.CallStep host timers world.now (world.slot id).core core) :
        ∀ other, Each world.now other ((world.setCore id core).slot other) :=
      World.forall_setSlot (Each world.now) hworld id (hcore (hworld id) hstep)
    cases call with
    | close id => exact hcreated (hset id hworld .close)
    | send id packet write => exact hcreated (hset id hworld (.send packet write world.heap))
    | start id readResult =>
      exact hcreated (hset id hworld (.start readResult (htimers hadmits not_false)))
    | stop id => exact hcreated (hset id hworld (.stop (htimers hadmits not_false)))
    | broadcast packet writes =>
      change ∀ id, Each (world.broadcast host packet writes).now id
        ((world.broadcast host packet writes).slot id)
      unfold World.broadcast
      clear hcreated
      generalize world.sessions = sessions
      induction sessions generalizing world with
      | nil => exact hworld
      | cons id sessions ih => exact ih (hset id hworld (.send packet (writes id) world.heap))
    | setPacketHandler type handler => exact hworld
    | setDefaultPacketHandler handler => exact hworld
    | setSessionPacketHandler id type handler =>
      exact hcreated (World.forall_setSlot (Each world.now) hworld id (htables _ _ (hworld id)))
    | addInterceptor id interceptor =>
      exact hcreated (World.forall_setSlot (Each world.now) hworld id (htables _ _ (hworld id)))
  memory _ hworld := hworld
  record _ _ hworld := hworld

/-- It survives any number of such calls. -/
theorem runs {host : Host} (hunbroken : Unbroken host Admits Holds) {calls : List (Call V H)}
    (hadmits : ∀ call ∈ calls, Admits call) (hworld : Holds world) :
    Holds (calls.foldl (Call.run host) world) := by
  induction calls generalizing world with
  | nil => exact hworld
  | cons call calls ih =>
    obtain ⟨hfirst, hlater⟩ := List.forall_mem_cons.mp hadmits
    exact ih hlater (hunbroken.run call hfirst hworld)

theorem react (hunbroken : Unbroken app.host Admits Holds) {reaction : Reaction U V H}
    (hadmits : ∀ call ∈ reaction.calls, Admits call) (hworld : Holds world)
    (hreact : app.react reaction world = .returned next) : Holds next := by
  unfold Application.react at hreact
  split at hreact
  · cases hreact
    exact hunbroken.memory _ (hunbroken.runs hadmits hworld)
  · cases hreact

theorem callPacketHandler (hunbroken : Unbroken app.host Admits Holds) (hmakes : app.Makes Admits)
    {handler : H} {id : ℕ} {packet : Packet} (hworld : Holds world)
    (hcall : app.callPacketHandler handler id packet world = .returned next) : Holds next :=
  hunbroken.react (hmakes.packet handler id packet _) (hunbroken.record id _ hworld) hcall

theorem invoke (hunbroken : Unbroken app.host Admits Holds) (hmakes : app.Makes Admits) {id : ℕ}
    {slot : Slot V H} {handler : SessionHandler H} {packet : Packet} (hworld : Holds world)
    (hinvoke : (app.program id slot).invoke handler packet world = .returned next) :
    Holds next := by
  cases handler with
  | ignoreHeartbeat =>
    cases hinvoke
    exact hworld
  | serverTables =>
    change app.serverTables id packet world = .returned next at hinvoke
    rw [serverTables_eq] at hinvoke
    cases hhandler : world.findHandler packet.type with
    | none =>
      rw [hhandler] at hinvoke
      cases hinvoke
      exact hworld
    | some handler =>
      rw [hhandler] at hinvoke
      exact hunbroken.callPacketHandler hmakes hworld hinvoke
  | user handler =>
    exact hunbroken.react (hmakes.sessionPacket handler id packet world) hworld hinvoke

/-- It survives the handling of a packet that is no heartbeat. -/
theorem dispatch (hunbroken : Unbroken app.host Admits Holds) (hmakes : app.Makes Admits) {id : ℕ}
    {packet : Packet} (htype : packet.type ≠ .heartbeat) (hworld : Holds world)
    (hdispatch : app.dispatch id packet world = .returned next) : Holds next := by
  obtain ⟨endpoint, hhandle, rfl⟩ := Outcome.map_eq_returned hdispatch
  rw [Application.handlePacket, Session.handlePacket_of_ne _ htype] at hhandle
  rcases Client.dispatch_state _ hhandle with hsame | ⟨handler, hinvoke⟩
  · rw [hsame]
    exact hworld
  · exact hunbroken.invoke hmakes hworld hinvoke

/-- It holds after a step that brings no chunk if it holds once the server has done its part. -/
theorem step (hunbroken : Unbroken app.host Admits Holds) (hmakes : app.Makes Admits)
    {event : Event V H} (hreceived : event.received? = none)
    (heffect : Holds (event.effect app.host world))
    (hstep : Server.step app world event = some next) : Holds next := by
  unfold Server.step at hstep
  split at hstep
  · rw [Outcome.returned?_eq_some] at hstep
    cases event with
    | call call | onWrite id status | onHeartbeatTimer id write | transmit id count
    | elapse milliseconds =>
      cases hstep
      exact heffect
    | onConnection status readResult =>
      change onConnection app status readResult world = .returned next at hstep
      unfold onConnection at hstep
      simp only [Event.effect] at heffect
      split_ifs at hstep heffect
      · cases hstep
        exact heffect
      · exact hunbroken.react (hmakes.connect _ _) heffect hstep
    | onClose id => exact hunbroken.react (hmakes.close id _) heffect hstep
    | onRead id nread base =>
      change Server.onRead app id nread base world = .returned next at hstep
      have hnread : ¬ 0 < nread := fun hnread ↦ by
        rw [received?_onRead hnread] at hreceived
        cases hreceived
      simp only [Event.effect] at heffect
      unfold Server.onRead at hstep
      split_ifs at hstep heffect
      · cases hstep
        exact heffect
      · cases hstep
        exact heffect
      · omega
  · cases hstep

end Unbroken

namespace Kept

variable {app : Application U V H} {Admits : Call V H → Prop} {Holds : World U V H → Prop}
  {world next : World U V H}

/-- What neither user code nor a heartbeat does to a session breaks, of all sessions. -/
theorem of_slots {host : Host} {timers : Prop}
    (htimers : ∀ {call : Call V H}, Admits call → ¬ call.LeavesTimers → timers)
    (Each : ℕ → ℕ → Slot V H → Prop)
    (hcore : ∀ {now id slot core}, Each now id slot →
      Session.UserStep host timers now slot.core core → Each now id { slot with core := core })
    (htables : ∀ {now id slot} manager handlers, Each now id slot →
      Each now id { slot with interceptorManager := manager, packetHandlers := handlers }) :
    Kept host Admits fun world : World U V H ↦ ∀ id, Each world.now id (world.slot id) where
  toUnbroken := .of_slots htimers Each (fun heach hcall ↦ hcore heach (.call hcall)) htables
  hear {world} id hworld :=
    World.forall_setSlot (Each world.now) hworld id (hcore (hworld id) .hear)

/-- The same of the members of the sessions. -/
theorem of_sessions {host : Host} {timers : Prop}
    (htimers : ∀ {call : Call V H}, Admits call → ¬ call.LeavesTimers → timers)
    (Each : ℕ → ℕ → Session.Core → Prop)
    (hcore : ∀ {now id core next}, Each now id core →
      Session.UserStep host timers now core next → Each now id next) :
    Kept host Admits fun world : World U V H ↦ ∀ id, Each world.now id (world.slot id).core :=
  of_slots htimers (fun now id slot ↦ Each now id slot.core) hcore fun _ _ heach ↦ heach

/-- No user code touches a receive buffer. -/
theorem buffers (host : Host) (buffer : ℕ → Bytes) :
    Kept host Admits fun world : World U V H ↦ ∀ id, (world.slot id).buffer = buffer id :=
  of_slots (fun _ _ ↦ trivial) (fun _ id slot ↦ slot.buffer = buffer id) (fun heach _ ↦ heach)
    fun _ _ heach ↦ heach

theorem and {host : Host} {Also : World U V H → Prop} (hkept : Kept host Admits Holds)
    (halso : Kept host Admits Also) : Kept host Admits fun world ↦ Holds world ∧ Also world where
  run call hadmits hworld := ⟨hkept.run call hadmits hworld.1, halso.run call hadmits hworld.2⟩
  memory memory hworld := ⟨hkept.memory memory hworld.1, halso.memory memory hworld.2⟩
  record id call hworld := ⟨hkept.record id call hworld.1, halso.record id call hworld.2⟩
  hear id hworld := ⟨hkept.hear id hworld.1, halso.hear id hworld.2⟩

/-- User code creates no session. -/
theorem created (host : Host) (count : ℕ) :
    Kept host Admits fun world : World U V H ↦ world.created = count where
  run {world} call _ hworld := (Serves.run 0 world host call).created.trans hworld
  memory _ hworld := hworld
  record _ _ hworld := hworld
  hear _ hworld := hworld

theorem dispatch (hkept : Kept app.host Admits Holds) (hmakes : app.Makes Admits) {id : ℕ}
    {packet : Packet} (hworld : Holds world)
    (hdispatch : app.dispatch id packet world = .returned next) : Holds next := by
  obtain ⟨endpoint, hhandle, rfl⟩ := Outcome.map_eq_returned hdispatch
  rcases Session.handlePacket_state _ hhandle with hsame | hbeat | ⟨handler, hinvoke⟩
  · rw [hsame]
    exact hworld
  · rw [hbeat]
    exact hkept.hear id hworld
  · exact hkept.invoke hmakes hworld hinvoke

/-- It holds once the packets of a chunk have been handled; the buffer is set last. -/
theorem onRead (hkept : Kept app.host Admits Holds) (hmakes : app.Makes Admits) {id : ℕ}
    {nread : ℤ} {base : Bytes}
    (hnread : 0 < nread) (hworld : Holds world)
    (hread : Server.onRead app id nread base world = .returned next) :
    ∃ last, Holds last ∧ next = last.setSlot id { last.slot id with
      buffer := (wireDecoder app.host).kept ((world.slot id).buffer ++ base) } := by
  rw [Server.onRead, if_neg (by omega), if_neg (by omega)] at hread
  obtain ⟨receiver, happend, rfl⟩ := Outcome.map_eq_returned hread
  obtain ⟨hbuffer, hpackets⟩ := (wireDecoder app.host).drain_returned (app.handlePacket id)
    (Session.drain_of_appendToBufferBy happend)
  have hview := Outcome.forEach_map Endpoint.state (handlePacket_state_eq app id)
    (world.decoded app.host id base) ⟨world, []⟩
  have hdispatched : Outcome.forEach (app.dispatch id) (world.decoded app.host id base) world =
      .returned receiver.state := hview.trans (by rw [World.decoded, hpackets]; rfl)
  refine ⟨receiver.state, ?_, by rw [hbuffer]⟩
  exact Outcome.forEach_preserves
    (fun _ _ hholds _ hdispatch ↦ hkept.dispatch hmakes hholds hdispatch) hworld hdispatched

/-- **What user code cannot break** holds after a step, but for the buffer, if it holds once the
server has done its part. -/
theorem step (hkept : Kept app.host Admits Holds) (hmakes : app.Makes Admits) {event : Event V H}
    (heffect : Holds (event.effect app.host world))
    (hstep : Server.step app world event = some next) :
    ∃ last, Holds last ∧ next = event.buffer app.host world last := by
  cases hreceived : event.received? with
  | none =>
    refine ⟨next, hkept.toUnbroken.step hmakes hreceived heffect hstep, ?_⟩
    simp only [Event.buffer, hreceived]
  | some received =>
    obtain ⟨id, base⟩ := received
    obtain ⟨nread, hnread, rfl⟩ := received?_eq_some hreceived
    unfold Server.step at hstep
    split at hstep
    · rw [Outcome.returned?_eq_some] at hstep
      simp only [Event.effect, if_neg (show ¬ nread < 0 by omega)] at heffect
      obtain ⟨last, hlast, rfl⟩ := hkept.onRead hmakes hnread heffect hstep
      exact ⟨last, hlast, by simp only [Event.buffer, hreceived]⟩
    · cases hstep

end Kept

/-! ## The receive buffers -/

/-- The receive buffer of a session, which is empty until the session is created. -/
def World.bufferOf (world : World U V H) (id : ℕ) : Bytes :=
  if id < world.created then (world.slot id).buffer else []

theorem World.bufferOf_congr {world next : World U V H} (hcreated : next.created = world.created)
    (hbuffer : ∀ id, (next.slot id).buffer = (world.slot id).buffer) (id : ℕ) :
    next.bufferOf id = world.bufferOf id := by
  unfold World.bufferOf
  rw [hcreated, hbuffer]

/-- What the server itself does at an event leaves the buffers alone. -/
theorem bufferOf_effect (host : Host) (world : World U V H) (event : Event V H) (id : ℕ) :
    (event.effect host world).bufferOf id = world.bufferOf id := by
  have hset (session : ℕ) (core : Session.Core) :
      (world.setCore session core).bufferOf id = world.bufferOf id := by
    have hbuffers : ∀ other, ((world.setCore session core).slot other).buffer =
        (world.slot other).buffer :=
      World.forall_setSlot (fun other slot ↦ slot.buffer = (world.slot other).buffer)
        (fun _ ↦ rfl) session rfl
    have hcreated : (world.setCore session core).created = world.created := rfl
    exact World.bufferOf_congr hcreated hbuffers id
  cases event with
  | call call =>
    have hbuffers : Kept host Call.Any fun next : World U V H ↦
        ∀ id, (next.slot id).buffer = (world.slot id).buffer := Kept.buffers host _
    exact World.bufferOf_congr (Serves.run 0 world host call).created
      (hbuffers.run call trivial fun _ ↦ rfl) id
  | onConnection status readResult =>
    simp only [Event.effect]
    split
    · rfl
    · change (if id < world.created + 1 then
        (Function.update world.slot world.created _ id).buffer else []) = _
      unfold World.bufferOf
      by_cases heq : id = world.created
      · rw [heq, if_pos (Nat.lt_succ_self _), if_neg (lt_irrefl _), Function.update_self]
        rfl
      · rw [Function.update_of_ne heq]
        exact if_congr (by omega) rfl rfl
  | onRead session nread base =>
    simp only [Event.effect]
    split
    · exact hset session _
    · rfl
  | onWrite session status => exact hset session _
  | onClose session => exact hset session _
  | onHeartbeatTimer session write => exact hset session _
  | transmit session count => exact hset session _
  | elapse milliseconds => rfl

variable {app : Application U V H} {world next : World U V H} {event : Event V H}

/-- Only a chunk changes a buffer, and only that of the session it arrives for. -/
theorem bufferOf_step (hstep : step app world event = some next) (id : ℕ) :
    next.bufferOf id = match event.received? with
      | none => world.bufferOf id
      | some (session, base) =>
        if id = session then (wireDecoder app.host).kept (world.bufferOf id ++ base)
        else world.bufferOf id := by
  have hkept : Kept app.host Call.Any fun next : World U V H ↦
      next.created = (event.effect app.host world).created ∧
        ∀ id, (next.slot id).buffer = ((event.effect app.host world).slot id).buffer :=
    (Kept.created app.host _).and (Kept.buffers app.host _)
  obtain ⟨last, ⟨hcreated, hbuffers⟩, rfl⟩ :=
    hkept.step app.makes_any ⟨rfl, fun _ ↦ rfl⟩ hstep
  have hlast : last.bufferOf id = world.bufferOf id :=
    (World.bufferOf_congr hcreated hbuffers id).trans (bufferOf_effect app.host world event id)
  cases hreceived : event.received? with
  | none =>
    simp only [Event.buffer, hreceived]
    exact hlast
  | some received =>
    obtain ⟨session, base⟩ := received
    obtain ⟨nread, hnread, rfl⟩ := received?_eq_some hreceived
    have hsession : session < world.created := by
      unfold step at hstep
      split at hstep
      · rename_i hdue
        exact hdue.1
      · cases hstep
    simp only [Event.buffer, hreceived]
    by_cases heq : id = session
    · subst heq
      have heffect : last.created = world.created := by
        rw [hcreated]
        simp only [Event.effect]
        split <;> rfl
      have hin : id < (last.setSlot id { last.slot id with
          buffer := (wireDecoder app.host).kept ((world.slot id).buffer ++ base) }).created :=
        heffect ▸ hsession
      rw [if_pos rfl, World.bufferOf, if_pos hin, World.bufferOf, if_pos hsession]
      simp only [World.setSlot, Function.update_self]
    · rw [if_neg heq, ← hlast]
      unfold World.bufferOf
      change (if id < last.created then (Function.update last.slot session _ id).buffer else []) = _
      rw [Function.update_of_ne heq]

end Server

end LibuvNet
