import LibuvNet.Server.Lifecycle

/-!
# What a step of a server can do

User code and the receive loop of a session can do many things to a server, but all of them come
down to this: the sessions go through steps of their own, and the user's packet handlers are
called for the one session that is being served.  The registry and the record of close callbacks
change in two kinds of steps only, a new connection and a close callback; and a session that is
registered and open after a step was so before it, or is new.
-/

namespace LibuvNet

open Foundation

namespace Server

variable {U V H : Type*}

/-- From one world to the other the sessions only go through steps of their own, and the user's
packet handlers are called for one session with the given packets. -/
structure Serves (id : ℕ) (packets : List (H × Packet)) (world next : World U V H) : Prop where
  sessions : next.sessions = world.sessions
  created : next.created = world.created
  closedSessions : next.closedSessions = world.closedSessions
  cores : ∀ other, (world.slot other).core.Reaches (next.slot other).core
  calls : next.calls = world.calls ++ packets.map fun call ↦ (id, .packet call.1 call.2)

namespace Serves

variable {id : ℕ} {packets more : List (H × Packet)} {world next last : World U V H}

theorem refl (id : ℕ) (world : World U V H) : Serves id [] world world :=
  ⟨rfl, rfl, rfl, fun _ ↦ .refl _, (List.append_nil _).symm⟩

theorem trans (hfirst : Serves id packets world next) (hsecond : Serves id more next last) :
    Serves id (packets ++ more) world last where
  sessions := hsecond.sessions.trans hfirst.sessions
  created := hsecond.created.trans hfirst.created
  closedSessions := hsecond.closedSessions.trans hfirst.closedSessions
  cores other := (hfirst.cores other).trans (hsecond.cores other)
  calls := by rw [hsecond.calls, hfirst.calls, List.map_append, List.append_assoc]

/-- A session that changes by a step of its own. -/
theorem setSlot (id : ℕ) {other : ℕ} {slot : Slot V H}
    (hslot : (world.slot other).core.Reaches slot.core) :
    Serves id [] world (world.setSlot other slot) := by
  refine ⟨rfl, rfl, rfl, fun session ↦ ?_, (List.append_nil _).symm⟩
  change (world.slot session).core.Reaches (Function.update world.slot other slot session).core
  by_cases heq : session = other
  · subst heq
    rw [Function.update_self]
    exact hslot
  · rw [Function.update_of_ne heq]
    exact .refl _

theorem setCore (id : ℕ) {other : ℕ} {core : Session.Core}
    (hstep : Session.CoreStep (world.slot other).core core) :
    Serves id [] world (world.setCore other core) :=
  setSlot id (.single hstep)

theorem withHeap (hserves : Serves id packets world next) (heap : Memory UInt8) :
    Serves id packets world { next with heap := heap } :=
  ⟨hserves.sessions, hserves.created, hserves.closedSessions, hserves.cores, hserves.calls⟩

theorem withMemory (hserves : Serves id packets world next) (memory : U) :
    Serves id packets world { next with memory := memory } :=
  ⟨hserves.sessions, hserves.created, hserves.closedSessions, hserves.cores, hserves.calls⟩

theorem send (id : ℕ) (world : World U V H) (host : Host) (other : ℕ) (packet : Packet)
    (write : WriteCall) : Serves id [] world (world.send host other packet write) := by
  unfold World.send
  exact (setCore id (.send host packet write world.heap)).withHeap _

theorem broadcast (id : ℕ) (world : World U V H) (host : Host) (packet : Packet)
    (writes : ℕ → WriteCall) : Serves id [] world (world.broadcast host packet writes) := by
  unfold World.broadcast
  generalize world.sessions = sessions
  induction sessions generalizing world with
  | nil => exact refl id world
  | cons other sessions ih =>
    exact (send id world host other packet (writes other)).trans (ih _)

/-- A call that names a session does nothing unless the session was created. -/
theorem ifCreated {other : ℕ} (hserves : Serves id [] world next) :
    Serves id [] world (if other < world.created then next else world) := by
  split
  · exact hserves
  · exact refl id world

/-- User code serves no session by its calls. -/
theorem run (id : ℕ) (world : World U V H) (host : Host) (call : Call V H) :
    Serves id [] world (call.run host world) := by
  cases call with
  | close other => exact (setCore id .close).ifCreated
  | send other packet write => exact (send id world host other packet write).ifCreated
  | start other readResult => exact (setCore id (.start world.now readResult)).ifCreated
  | stop other => exact (setCore id .stop).ifCreated
  | broadcast packet writes => exact broadcast id world host packet writes
  | setPacketHandler type handler =>
    exact ⟨rfl, rfl, rfl, fun _ ↦ .refl _, (List.append_nil _).symm⟩
  | setDefaultPacketHandler handler =>
    exact ⟨rfl, rfl, rfl, fun _ ↦ .refl _, (List.append_nil _).symm⟩
  | setSessionPacketHandler other type handler =>
    apply ifCreated
    exact setSlot id (.refl _)
  | addInterceptor other interceptor =>
    apply ifCreated
    exact setSlot id (.refl _)

theorem react (id : ℕ) {app : Application U V H} {reaction : Reaction U V H}
    (hreact : app.react reaction world = .returned next) : Serves id [] world next := by
  have hcalls (calls : List (Call V H)) (world : World U V H) :
      Serves id [] world (calls.foldl (Call.run app.host) world) := by
    induction calls generalizing world with
    | nil => exact refl id world
    | cons call calls ih => exact (run id world app.host call).trans (ih _)
  unfold Application.react at hreact
  split at hreact
  · cases hreact
    exact (hcalls reaction.calls world).withMemory reaction.memory
  · cases hreact

theorem callPacketHandler {app : Application U V H} {handler : H} {packet : Packet}
    (hcall : app.callPacketHandler handler id packet world = .returned next) :
    Serves id [(handler, packet)] world next := by
  have hrecord : Serves id [(handler, packet)] world
      (world.record id (.packet handler packet)) :=
    ⟨rfl, rfl, rfl, fun _ ↦ .refl _, rfl⟩
  exact hrecord.trans (react id hcall)

/-- The handlers of a session serve that session. -/
theorem invoke {app : Application U V H} {slot : Slot V H} {handler : SessionHandler H}
    {packet : Packet}
    (hinvoke : (app.program id slot).invoke handler packet world = .returned next) :
    ∃ packets, Serves id packets world next := by
  cases handler with
  | ignoreHeartbeat =>
    cases hinvoke
    exact ⟨[], refl id world⟩
  | serverTables =>
    change app.serverTables id packet world = .returned next at hinvoke
    unfold Application.serverTables at hinvoke
    split at hinvoke
    · exact ⟨_, callPacketHandler hinvoke⟩
    · split at hinvoke
      · exact ⟨_, callPacketHandler hinvoke⟩
      · cases hinvoke
        exact ⟨[], refl id world⟩
  | user handler => exact ⟨[], react id hinvoke⟩

theorem handlePacket {app : Application U V H} {packet : Packet}
    {endpoint after : Endpoint (World U V H) (SessionHandler H)}
    (hhandle : app.handlePacket id packet endpoint = .returned after) :
    ∃ packets, Serves id packets endpoint.state after.state := by
  rcases Session.handlePacket_state _ hhandle with hsame | hbeat | ⟨handler, hinvoke⟩
  · rw [hsame]
    exact ⟨[], refl id _⟩
  · rw [hbeat]
    exact ⟨[], setCore id (.hearHeartbeat _)⟩
  · exact invoke hinvoke

theorem onRead {app : Application U V H} {nread : ℤ} {base : Bytes}
    (hread : onRead app id nread base world = .returned next) :
    ∃ packets, Serves id packets world next := by
  unfold Server.onRead at hread
  split_ifs at hread
  · cases hread
    exact ⟨[], setCore id .close⟩
  · cases hread
    exact ⟨[], refl id world⟩
  · obtain ⟨receiver, happend, rfl⟩ := Outcome.map_eq_returned hread
    obtain ⟨packets, hserves⟩ : ∃ packets, Serves id packets world receiver.state := by
      refine Session.appendToBufferBy_preserves
        (fun endpoint ↦ ∃ packets, Serves id packets world endpoint.state) ?_
        ⟨[], refl id world⟩ happend
      rintro packet endpoint after ⟨packets, hserves⟩ hhandle
      obtain ⟨more, hmore⟩ := handlePacket hhandle
      exact ⟨packets ++ more, hserves.trans hmore⟩
    exact ⟨packets ++ [], hserves.trans (setSlot id (.refl _))⟩

end Serves

/-- What a step can do: serve a session that libuv reads from, let sessions go through steps of
their own, accept a connection, or run a close callback. -/
theorem step_cases {app : Application U V H} {world next : World U V H} {event : Event V H}
    (hstep : step app world event = some next) :
    (∃ id packets, id < world.created ∧ (world.slot id).core.socket.reading ∧
      Serves id packets world next) ∨
    (∀ id, Serves id [] world next) ∨
    (∃ status readResult, event = .onConnection status readResult ∧ ¬ status < 0 ∧
      ∀ id, Serves id [] ((world.create readResult).record world.created .connect) next) ∨
    (∃ closed, event = .onClose closed ∧ closed < world.created ∧
      0 < (world.slot closed).core.socket.closeReqs ∧
      ∀ id, Serves id [] ((world.forget closed).record closed .close) next) := by
  unfold step at hstep
  split at hstep
  · rename_i hdue
    rw [Outcome.returned?_eq_some] at hstep
    cases event with
    | call call =>
      cases hstep
      exact .inr (.inl fun id ↦ .run id world app.host call)
    | onConnection status readResult =>
      change onConnection app status readResult world = .returned next at hstep
      unfold onConnection at hstep
      split at hstep
      · cases hstep
        exact .inr (.inl fun id ↦ .refl id world)
      · rename_i haccepted
        exact .inr (.inr (.inl ⟨status, readResult, rfl, haccepted, fun id ↦ .react id hstep⟩))
    | onRead id nread base =>
      obtain ⟨packets, hserves⟩ := Serves.onRead hstep
      exact .inl ⟨id, packets, hdue.1, hdue.2.1, hserves⟩
    | onWrite id status =>
      cases hstep
      exact .inr (.inl fun other ↦ .setCore other (.onWrite status))
    | onClose id =>
      exact .inr (.inr (.inr ⟨id, rfl, hdue.1, hdue.2, fun other ↦ .react other hstep⟩))
    | onHeartbeatTimer id write =>
      cases hstep
      have hticked (other : ℕ) : Serves other [] world (world.setCore id
          ((world.slot id).core.tick app.host write world.now world.heap).2) :=
        .setCore other (.tick app.host write world.now world.heap)
      exact .inr (.inl fun other ↦ (hticked other).withHeap _)
    | transmit id count =>
      cases hstep
      exact .inr (.inl fun other ↦ .setCore other (.transmit world.heap count))
    | elapse milliseconds =>
      cases hstep
      exact .inr (.inl fun _ ↦ ⟨rfl, rfl, rfl, fun _ ↦ .refl _, (List.append_nil _).symm⟩)
  · cases hstep

/-! ## What a step does to the registry -/

/-- A session is in `sessions_` and not closing. -/
def World.Open (world : World U V H) (id : ℕ) : Prop :=
  id ∈ world.sessions ∧ (world.slot id).core.isClosing = false

instance (world : World U V H) (id : ℕ) : Decidable (world.Open id) := by
  unfold World.Open
  infer_instance

/-- No session that exists comes back to the registry or stops closing. -/
structure Older (world next : World U V H) : Prop where
  created : world.created ≤ next.created
  mem : ∀ id < world.created, id ∈ next.sessions → id ∈ world.sessions
  isClosing : ∀ id < world.created,
    (world.slot id).core.isClosing → (next.slot id).core.isClosing

namespace Older

variable {world next : World U V H}

/-- A session that is open later is open now. -/
theorem isOpen (holder : Older world next) {id : ℕ} (hid : id < world.created)
    (hopen : next.Open id) : world.Open id := by
  refine ⟨holder.mem id hid hopen.1, Bool.eq_false_of_not_eq_true fun hclosing ↦ ?_⟩
  have hlater := holder.isClosing id hid hclosing
  rw [hopen.2] at hlater
  cases hlater

theorem trans {last : World U V H} (hfirst : Older world next) (hsecond : Older next last) :
    Older world last where
  created := hfirst.created.trans hsecond.created
  mem id hid hmem :=
    hfirst.mem id hid (hsecond.mem id (lt_of_lt_of_le hid hfirst.created) hmem)
  isClosing id hid hclosing :=
    hsecond.isClosing id (lt_of_lt_of_le hid hfirst.created) (hfirst.isClosing id hid hclosing)

theorem of_serves {id : ℕ} {packets : List (H × Packet)}
    (hserves : Serves id packets world next) : Older world next where
  created := hserves.created.ge
  mem other _ hmem := by rwa [hserves.sessions] at hmem
  isClosing other _ hclosing := (hserves.cores other).isClosing hclosing

theorem create (world : World U V H) (readResult : ℤ) :
    Older world ((world.create readResult).record world.created .connect) where
  created := Nat.le_succ _
  mem id hid hmem := by
    rcases List.mem_append.mp hmem with hmem | hnew
    · exact hmem
    · exact absurd (List.mem_singleton.mp hnew) hid.ne
  isClosing id hid hclosing := by
    change (Function.update world.slot world.created _ id).core.isClosing
    rwa [Function.update_of_ne hid.ne]

theorem forget (world : World U V H) (closed : ℕ) :
    Older world ((world.forget closed).record closed .close) where
  created := le_rfl
  mem id _ hmem := List.mem_of_mem_filter hmem
  isClosing id _ hclosing := by
    change (Function.update world.slot closed _ id).core.isClosing
    by_cases heq : id = closed
    · subst heq
      rwa [Function.update_self]
    · rwa [Function.update_of_ne heq]

theorem of_step {app : Application U V H} {event : Event V H}
    (hstep : step app world event = some next) : Older world next := by
  rcases step_cases hstep with ⟨id, packets, -, -, hserves⟩ | hserves |
    ⟨status, readResult, -, -, hserves⟩ | ⟨closed, -, -, -, hserves⟩
  · exact .of_serves hserves
  · exact .of_serves (hserves 0)
  · exact (create world readResult).trans (.of_serves (hserves 0))
  · exact (forget world closed).trans (.of_serves (hserves 0))

end Older

/-- A step leaves the vector alone, or it is a connection that enters it last, or a close callback
that takes its session out. -/
theorem sessions_step {app : Application U V H} {world next : World U V H}
    {event : Event V H} (hstep : step app world event = some next) :
    next.sessions = world.sessions ∨
    (∃ status readResult, event = .onConnection status readResult ∧ ¬ status < 0 ∧
      next.sessions = world.sessions ++ [world.created]) ∨
    (∃ closed, event = .onClose closed ∧
      next.sessions = world.sessions.filter fun other ↦ other ≠ closed) := by
  rcases step_cases hstep with ⟨id, packets, -, -, hserves⟩ | hserves |
    ⟨status, readResult, hevent, haccepted, hserves⟩ | ⟨closed, hevent, -, -, hserves⟩
  · exact .inl hserves.sessions
  · exact .inl (hserves 0).sessions
  · exact .inr (.inl ⟨status, readResult, hevent, haccepted, (hserves 0).sessions⟩)
  · exact .inr (.inr ⟨closed, hevent, (hserves 0).sessions⟩)

theorem sessions_onClose {app : Application U V H} {world next : World U V H} {closed : ℕ}
    (hstep : step app world (.onClose closed) = some next) :
    next.sessions = world.sessions.filter fun other ↦ other ≠ closed := by
  unfold step at hstep
  split at hstep
  · rw [Outcome.returned?_eq_some] at hstep
    exact (Serves.react 0 hstep).sessions
  · cases hstep

end Server

end LibuvNet
