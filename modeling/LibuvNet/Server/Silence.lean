import LibuvNet.Endpoint.Watchdog
import LibuvNet.Server.Handling

/-!
# Silent peers

Every session that `on_connection` creates starts its heartbeat timer, and the timer runs on as long
as user code does not stop it.  So a peer of which no heartbeat is heard any more is noticed: if
the loop does not keep the timer waiting for longer than some delay, the session is closed after
the timeout, one interval and the delay, whatever else the peer sends and whatever happens on the
other sessions.
-/

namespace LibuvNet

open Foundation

namespace Session

/-- The timer of a session runs, and watches over the session until it is closing. -/
structure Guards (now : ℕ) (core : Core) : Prop where
  active : core.heartbeatTimer.active
  interval : core.heartbeatTimer.interval = heartbeatIntervalMs
  last_le : core.lastHeartbeatTime ≤ now
  watches : ¬ core.isClosing → Watches core.heartbeatTimer core.lastHeartbeatTime
  closing : core.isClosing = core.socket.closing

namespace Guards

variable {now : ℕ} {core next : Core}

/-- Only the timer, the time and the flags matter. -/
theorem congr (hguards : Guards now core) (htimer : next.heartbeatTimer = core.heartbeatTimer)
    (hlast : next.lastHeartbeatTime = core.lastHeartbeatTime)
    (hisClosing : next.isClosing = core.isClosing)
    (hclosing : next.socket.closing = core.socket.closing) : Guards now next where
  active := htimer ▸ hguards.active
  interval := htimer ▸ hguards.interval
  last_le := hlast ▸ hguards.last_le
  watches := by
    rw [htimer, hlast, hisClosing]
    exact hguards.watches
  closing := by
    rw [hisClosing, hclosing]
    exact hguards.closing

/-- A session that was just started. -/
theorem start (now : ℕ) (readResult : ℤ) : Guards now (Core.accept.start now readResult) := by
  unfold Core.start Core.startRead
  split_ifs
  · exact ⟨rfl, rfl, le_rfl, fun _ ↦ .start, rfl⟩
  · exact ⟨rfl, rfl, le_rfl, fun _ ↦ .start, rfl⟩
  · exact ⟨rfl, rfl, le_rfl, fun _ ↦ .start, rfl⟩

theorem elapse (hguards : Guards now core) {time : ℕ} (htime : now ≤ time) : Guards time core where
  active := hguards.active
  interval := hguards.interval
  last_le := hguards.last_le.trans htime
  watches := hguards.watches
  closing := hguards.closing

theorem close (hguards : Guards now core) : Guards now core.close := by
  obtain ⟨hisClosing, hclosing⟩ := Core.close_closes hguards.closing
  constructor
  · rw [Core.close_heartbeatTimer]
    exact hguards.active
  · rw [Core.close_heartbeatTimer]
    exact hguards.interval
  · rw [Core.close_lastHeartbeatTime]
    exact hguards.last_le
  · exact fun hopen ↦ absurd hisClosing hopen
  · rw [hisClosing, hclosing]

theorem send (hguards : Guards now core) (host : Host) (packet : Packet) (write : WriteCall)
    (heap : Memory UInt8) : Guards now (core.send host packet write heap).2 := by
  obtain ⟨writer, hsend⟩ := core.send_eq host packet write heap
  rw [hsend]
  exact hguards.congr rfl rfl rfl rfl

/-- A heartbeat of the peer puts the timeout off. -/
theorem hear (hguards : Guards now core) : Guards now { core with lastHeartbeatTime := now } where
  active := hguards.active
  interval := hguards.interval
  last_le := le_rfl
  watches hopen := (hguards.watches hopen).later hguards.last_le
  closing := hguards.closing

/-- A tick after the timeout closes the session, and any other arms the timer in time. -/
theorem tick (hguards : Guards now core) (host : Host) (write : WriteCall) (heap : Memory UInt8) :
    Guards now (core.tick host write now heap).2 := by
  unfold Core.tick Core.onHeartbeatTimer
  split
  · have hagain : ({ core with
        heartbeatTimer := core.heartbeatTimer.again now } : Core).isClosing =
        core.socket.closing := hguards.closing
    obtain ⟨hisClosing, hclosing⟩ := Core.close_closes hagain
    refine ⟨?_, ?_, ?_, fun hopen ↦ absurd hisClosing hopen, hisClosing.trans hclosing.symm⟩
    · rw [Core.close_heartbeatTimer]
      exact hguards.active
    · rw [Core.close_heartbeatTimer]
      exact hguards.interval
    · rw [Core.close_lastHeartbeatTime]
      exact hguards.last_le
  · rename_i hintime
    have hagain : Guards now { core with heartbeatTimer := core.heartbeatTimer.again now } :=
      ⟨hguards.active, hguards.interval, hguards.last_le,
        fun hopen ↦ (hguards.watches hopen).again (not_lt.mp hintime), hguards.closing⟩
    exact hagain.send host _ write heap

theorem onWrite (hguards : Guards now core) (status : ℤ) : Guards now (core.onWrite status) := by
  obtain ⟨canceledWrites, writer, hreport⟩ := core.socket.reportWrite_eq status
  have hreported : Guards now { core with socket := core.socket.reportWrite status } := by
    rw [hreport]
    exact hguards.congr rfl rfl rfl rfl
  unfold Core.onWrite
  dsimp only
  split
  · exact hreported.close
  · exact hreported

/-- User code that leaves the timer alone does not stop the watch. -/
theorem userStep (hguards : Guards now core) {host : Host}
    (hstep : UserStep host False now core next) : Guards now next := by
  cases hstep with
  | call hcall =>
    cases hcall with
    | start readResult htimers => exact htimers.elim
    | stop htimers => exact htimers.elim
    | close => exact hguards.close
    | send packet write heap => exact hguards.send host packet write heap
  | hear => exact hguards.hear

end Guards

end Session

namespace Server

variable {U V H : Type*}

variable {app : Application U V H} {world next : World U V H}

/-- The timer of every session runs. -/
def World.Watched (world : World U V H) : Prop :=
  ∀ id < world.created, Session.Guards world.now (world.slot id).core

/-- User code that leaves the timers alone does not stop the watch over the first sessions. -/
theorem kept_watched (host : Host) (count : ℕ) :
    Kept host Call.LeavesTimers fun world : World U V H ↦
      ∀ id, id < count → Session.Guards world.now (world.slot id).core :=
  Kept.of_sessions (fun hleaves hnot ↦ hnot hleaves)
    (fun now id core ↦ id < count → Session.Guards now core)
    fun hguards hstep hid ↦ (hguards hid).userStep hstep

/-- What the server itself does does not stop the watch either. -/
theorem watched_effect {host : Host} (hwatched : world.Watched) {event : Event V H}
    (hcalls : ∀ call, event = .call call → call.LeavesTimers) :
    (event.effect host world).Watched := by
  have hset (id : ℕ) {core : Session.Core}
      (hcore : Session.Guards world.now (world.slot id).core → Session.Guards world.now core) :
      (world.setCore id core).Watched :=
    World.forall_setSlot
      (fun other slot ↦ other < world.created → Session.Guards world.now slot.core) hwatched id
      fun hid ↦ hcore (hwatched id hid)
  cases event with
  | call call =>
    intro id hid
    have hcreated : (call.run host world).created = world.created :=
      (Serves.run 0 world host call).created
    have hrun := (kept_watched host world.created).run call (hcalls call rfl) hwatched
    exact hrun id (hcreated ▸ hid)
  | onConnection status readResult =>
    simp only [Event.effect]
    split
    · exact hwatched
    · intro id hid
      change Session.Guards world.now (Function.update world.slot world.created _ id).core
      rcases Nat.lt_succ_iff_lt_or_eq.mp hid with hlt | rfl
      · rw [Function.update_of_ne hlt.ne]
        exact hwatched id hlt
      · rw [Function.update_self]
        exact .start world.now readResult
  | onRead id nread base =>
    simp only [Event.effect]
    split
    · exact hset id fun hguards ↦ hguards.close
    · exact hwatched
  | onWrite id status => exact hset id fun hguards ↦ hguards.onWrite status
  | onClose id => exact hset id fun hguards ↦ hguards.congr rfl rfl rfl rfl
  | onHeartbeatTimer id write => exact hset id fun hguards ↦ hguards.tick host write world.heap
  | transmit id count => exact hset id fun hguards ↦ hguards.congr rfl rfl rfl rfl
  | elapse milliseconds =>
    exact fun id hid ↦ (hwatched id hid).elapse (Nat.le_add_right world.now milliseconds)

theorem watched_step (hmakes : app.Makes Call.LeavesTimers) (hwatched : world.Watched)
    {event : Event V H} (hcalls : ∀ call, event = .call call → call.LeavesTimers)
    (hstep : step app world event = some next) : next.Watched := by
  have hkept : Kept app.host Call.LeavesTimers fun next : World U V H ↦
      next.created = (event.effect app.host world).created ∧
        ∀ id, id < (event.effect app.host world).created →
          Session.Guards next.now (next.slot id).core :=
    (Kept.created app.host _).and (kept_watched app.host _)
  obtain ⟨last, ⟨hcreated, hlast⟩, rfl⟩ :=
    hkept.step hmakes ⟨rfl, watched_effect hwatched hcalls⟩ hstep
  intro id hid
  rw [Event.buffer_created, hcreated] at hid
  rw [Event.buffer_core]
  have hnow : (event.buffer app.host world last).now = last.now := by
    unfold Event.buffer
    split <;> rfl
  rw [hnow]
  exact hlast id hid

/-! ## Silence -/

/-- What neither closing nor sending changes of a session, no user code changes that leaves the
timers alone. -/
theorem unbroken_view {S : Type*} (host : Host) (view : ℕ → Session.Core → S)
    (hclose : ∀ now core, view now core.close = view now core)
    (hsend : ∀ now core packet write heap,
      view now (Session.Core.send core host packet write heap).2 = view now core)
    (seen : ℕ → S) :
    Unbroken host Call.LeavesTimers fun world : World U V H ↦
      ∀ id, view world.now (world.slot id).core = seen id := by
  refine .of_slots (fun hleaves hnot ↦ hnot hleaves)
    (fun now id slot ↦ view now slot.core = seen id) (fun heach hcall ↦ ?_)
    fun _ _ heach ↦ heach
  cases hcall with
  | start readResult htimers => exact htimers.elim
  | stop htimers => exact htimers.elim
  | close => exact (hclose _ _).trans heach
  | send packet write heap => exact (hsend _ _ packet write heap).trans heach

/-- Such user code takes no sign of life for granted. -/
theorem unbroken_lastHeartbeatTime (host : Host) (last : ℕ → ℕ) :
    Unbroken host Call.LeavesTimers fun world : World U V H ↦
      ∀ id, (world.slot id).core.lastHeartbeatTime = last id := by
  refine unbroken_view host (fun _ core ↦ core.lastHeartbeatTime)
    (fun _ core ↦ core.close_lastHeartbeatTime) (fun _ core packet write heap ↦ ?_) last
  obtain ⟨writer, hsend⟩ := core.send_eq host packet write heap
  rw [hsend]

/-- Unless a heartbeat was heard on a session, its last sign of life is that of the beginning. -/
def World.Unheard (id begun : ℕ) (heard : ℕ → List Packet) (world : World U V H) : Prop :=
  id < world.created ∧ ((∀ packet ∈ heard id, packet.type ≠ .heartbeat) →
    (world.slot id).core.lastHeartbeatTime = begun)

/-- What the server does by itself is no sign of life of a session that exists. -/
theorem lastHeartbeatTime_effect {host : Host} {event : Event V H}
    (hcalls : ∀ call, event = .call call → call.LeavesTimers) {id : ℕ} (hid : id < world.created) :
    ((event.effect host world).slot id).core.lastHeartbeatTime =
      (world.slot id).core.lastHeartbeatTime := by
  have hset (session : ℕ) {core : Session.Core}
      (hcore : core.lastHeartbeatTime = (world.slot session).core.lastHeartbeatTime) :
      ((world.setCore session core).slot id).core.lastHeartbeatTime =
        (world.slot id).core.lastHeartbeatTime :=
    World.forall_setSlot (fun other slot ↦
      slot.core.lastHeartbeatTime = (world.slot other).core.lastHeartbeatTime) (fun _ ↦ rfl)
      session hcore id
  cases event with
  | call call =>
    exact (unbroken_lastHeartbeatTime host _).run call (hcalls call rfl) (fun _ ↦ rfl) id
  | onConnection status readResult =>
    simp only [Event.effect]
    split
    · rfl
    · change (Function.update world.slot world.created _ id).core.lastHeartbeatTime = _
      rw [Function.update_of_ne hid.ne]
  | onRead session nread base =>
    simp only [Event.effect]
    split
    · exact hset session (Session.Core.close_lastHeartbeatTime _)
    · rfl
  | onWrite session status =>
    apply hset session
    unfold Session.Core.onWrite
    dsimp only
    split
    · exact Session.Core.close_lastHeartbeatTime _
    · rfl
  | onClose session => exact hset session rfl
  | onHeartbeatTimer session write =>
    apply hset session
    unfold Session.Core.tick Session.Core.onHeartbeatTimer
    split
    · exact Session.Core.close_lastHeartbeatTime _
    · obtain ⟨writer, hsend⟩ := Session.Core.send_eq
        { (world.slot session).core with
          heartbeatTimer := (world.slot session).core.heartbeatTimer.again world.now }
        host ⟨.heartbeat, [], 0⟩ write world.heap
      rw [Session.Core.sendHeartbeat, hsend]
  | transmit session count => exact hset session rfl
  | elapse milliseconds => rfl

/-- Only heartbeats that are heard on a session are signs of its life. -/
theorem unheard_invariant (hmakes : app.Makes Call.LeavesTimers) (id begun : ℕ) :
    HeardInvariant app (fun event ↦ ∀ call, event = .call call → call.LeavesTimers)
      (World.Unheard id begun) where
  other {heard world next event} hcalls hreceived hstep hworld := by
    refine ⟨hworld.1.trans_le (Older.of_step hstep).created, fun hsilent ↦ ?_⟩
    have hlast := (unbroken_lastHeartbeatTime app.host _).step hmakes hreceived (fun _ ↦ rfl)
      hstep id
    rw [hlast, lastHeartbeatTime_effect hcalls hworld.1]
    exact hworld.2 hsilent
  packet {heard world next session packet} _ hdispatch hworld := by
    refine ⟨(dispatch_created hdispatch).symm ▸ hworld.1, fun hsilent ↦ ?_⟩
    by_cases htype : packet.type = .heartbeat
    · by_cases heq : id = session
      · subst heq
        rw [Function.update_self] at hsilent
        exact absurd htype (hsilent packet (List.mem_append_right _ (List.mem_singleton_self _)))
      · rw [Function.update_of_ne heq] at hsilent
        obtain ⟨endpoint, hhandle, rfl⟩ := Outcome.map_eq_returned hdispatch
        rw [Application.handlePacket, Session.handlePacket_of_heartbeat _ htype] at hhandle
        cases hhandle
        change (Function.update world.slot session _ id).core.lastHeartbeatTime = begun
        rw [Function.update_of_ne heq]
        exact hworld.2 hsilent
    · have hlast := (unbroken_lastHeartbeatTime app.host _).dispatch hmakes htype (fun _ ↦ rfl)
        hdispatch id
      rw [hlast]
      apply hworld.2
      intro earlier hearlier
      apply hsilent
      by_cases heq : id = session
      · subst heq
        rw [Function.update_self]
        exact List.mem_append_left _ hearlier
      · rwa [Function.update_of_ne heq]
  buffer {heard world session} buffer hworld := by
    refine ⟨hworld.1, fun hsilent ↦ ?_⟩
    have hlast : ((world.setSlot session
        { world.slot session with buffer := buffer }).slot id).core.lastHeartbeatTime =
          (world.slot id).core.lastHeartbeatTime := by
      refine World.forall_setSlot (fun other slot ↦
        slot.core.lastHeartbeatTime = (world.slot other).core.lastHeartbeatTime) (fun _ ↦ rfl)
        session ?_ id
      rfl
    exact hlast.trans (hworld.2 hsilent)

/-- One step together with what the sessions have heard. -/
def hearStep (app : Application U V H) (state : (ℕ → List Packet) × World U V H)
    (event : Event V H) : Option ((ℕ → List Packet) × World U V H) :=
  (step app state.2 event).map fun next ↦ (event.hear app.host state.2 state.1, next)

/-- The loop does not keep the timer of a session waiting for longer than the delay. -/
def TicksOnTime (delay id : ℕ) (_ : (ℕ → List Packet) × World U V H) (_ : Event V H)
    (next : (ℕ → List Packet) × World U V H) : Prop :=
  Punctual delay (next.2.slot id).core.heartbeatTimer next.2.now

instance (delay id : ℕ) (state : (ℕ → List Packet) × World U V H) (event : Event V H)
    (next : (ℕ → List Packet) × World U V H) : Decidable (TicksOnTime delay id state event next) :=
  inferInstanceAs (Decidable (Punctual delay (next.2.slot id).core.heartbeatTimer next.2.now))

theorem hearStep_eq_some {state next : (ℕ → List Packet) × World U V H} {event : Event V H}
    (hstep : hearStep app state event = some next) :
    step app state.2 event = some next.2 ∧ next.1 = event.hear app.host state.2 state.1 := by
  obtain ⟨world, hworld, rfl⟩ := Option.map_eq_some_iff.mp hstep
  exact ⟨hworld, rfl⟩

/-- Such a step keeps the watch, and what is known of a session that stays silent. -/
theorem unheard_step (hmakes : app.Makes Call.LeavesTimers) {id begun : ℕ} {event : Event V H}
    (hcalls : ∀ call, event = .call call → call.LeavesTimers)
    {state next : (ℕ → List Packet) × World U V H} (hwatched : state.2.Watched)
    (hunheard : state.2.Unheard id begun state.1) (hstep : hearStep app state event = some next) :
    next.2.Watched ∧ next.2.Unheard id begun next.1 := by
  obtain ⟨hnext, hheard⟩ := hearStep_eq_some hstep
  rw [hheard]
  exact ⟨watched_step hmakes hwatched hcalls hnext,
    (unheard_invariant hmakes id begun).step hcalls hunheard hnext⟩

/-- The timers are watched in every state of a run whose user code leaves them alone. -/
theorem watched_run (hmakes : app.Makes Call.LeavesTimers) {events : List (Event V H)}
    (hevents : ∀ call, .call call ∈ events → call.LeavesTimers) (memory : U)
    (hrun : runFrom (step app) events (.initial memory) = some world) : world.Watched := by
  have hstep (event : Event V H) (hmem : event ∈ events) {world next : World U V H}
      (hwatched : world.Watched) (hstep : step app world event = some next) : next.Watched :=
    watched_step hmakes hwatched (fun call hcall ↦ hevents call (hcall ▸ hmem)) hstep
  exact runFrom_invariant_of_mem World.Watched hstep
    (fun id hid ↦ absurd hid (Nat.not_lt_zero id)) hrun

/-- **Silent peers are dropped.** In any state of a server whose user code leaves the heartbeat
timers alone, and for any session there: if from then on no heartbeat is heard on the session and
its timer is never kept waiting for longer than the delay, the session is closing, or no more time
has passed than the timeout, one interval and the delay.  It does not matter what else the peer
sends, nor what happens on the other sessions. -/
theorem silent_session_closes (app : Application U V H) (hmakes : app.Makes Call.LeavesTimers)
    (delay : ℕ) (memory : U) (past : List (Event V H))
    (hpast : ∀ call, .call call ∈ past → call.LeavesTimers) (world : World U V H)
    (hworld : runFrom (step app) past (.initial memory) = some world) (id : ℕ)
    (hid : id < world.created)
    (hstart : Punctual delay (world.slot id).core.heartbeatTimer world.now)
    (events : List (Event V H)) (hevents : ∀ call, .call call ∈ events → call.LeavesTimers)
    (htime : Along (hearStep app) (TicksOnTime delay id) events (fun _ ↦ [], world))
    (heard : ℕ → List Packet) (last : World U V H)
    (hrun : runFrom (hearStep app) events (fun _ ↦ [], world) = some (heard, last))
    (hsilent : ∀ packet ∈ heard id, packet.type ≠ .heartbeat) :
    (last.slot id).core.isClosing ∨
      last.now ≤ world.now + heartbeatTimeoutMs + heartbeatIntervalMs + delay := by
  have hwatched : world.Watched := watched_run hmakes hpast memory hworld
  let Holds (state : (ℕ → List Packet) × World U V H) : Prop :=
    (state.2.Watched ∧ state.2.Unheard id (world.slot id).core.lastHeartbeatTime state.1) ∧
      Punctual delay (state.2.slot id).core.heartbeatTimer state.2.now
  have hstep (event : Event V H) (hmem : event ∈ events)
      {state next : (ℕ → List Packet) × World U V H} (hholds : Holds state)
      (hstep : hearStep app state event = some next)
      (htime : TicksOnTime delay id state event next) :
      Holds next := by
    have hcalls (call : Call V H) (hcall : event = .call call) : call.LeavesTimers :=
      hevents call (hcall ▸ hmem)
    exact ⟨unheard_step hmakes hcalls hholds.1.1 hholds.1.2 hstep, htime⟩
  have hfirst : Holds (fun _ ↦ [], world) := ⟨⟨hwatched, hid, fun _ ↦ rfl⟩, hstart⟩
  obtain ⟨⟨hlast, hcreated, hunheard⟩, hpunctual⟩ : Holds (heard, last) :=
    htime.invariant_of_mem hstep hfirst hrun
  have hguards := hlast id hcreated
  by_cases hclosing : (last.slot id).core.isClosing
  · exact .inl hclosing
  · right
    have hbegun := (hwatched id hid).last_le
    have hlast : (last.slot id).core.lastHeartbeatTime =
        (world.slot id).core.lastHeartbeatTime := hunheard hsilent
    have hbounded := (hguards.watches hclosing).bounded hpunctual hguards.active
    rw [hlast] at hbounded
    calc last.now
        ≤ (world.slot id).core.lastHeartbeatTime + heartbeatTimeoutMs + heartbeatIntervalMs +
            delay := hbounded
      _ ≤ world.now + heartbeatTimeoutMs + heartbeatIntervalMs + delay := by omega

/-- Thirty seconds pass, a text packet is received, and the timer ticks. -/
def textPeriod : List (Event Unit Unit) :=
  [.elapse 30000, .onRead 0 13 textFrame, .onHeartbeatTimer 0 ⟨0, ⟨0, 0⟩, 0, 12⟩]

/-- The application makes no calls when it is called. -/
theorem listener_leavesTimers : listener.Makes Call.LeavesTimers where
  connect _ _ := List.forall_mem_singleton.mpr trivial
  close _ _ := List.forall_mem_nil _
  packet _ _ _ _ := List.forall_mem_nil _
  sessionPacket _ _ _ _ := List.forall_mem_nil _

/-- A peer that keeps sending text packets is dropped at the fourth tick. -/
theorem silent_session_closes_text :
    ∃ world heard last, runFrom (step listener) [.onConnection 0 0] (.initial ()) = some world ∧
      runFrom (hearStep listener) (List.replicate 4 textPeriod).flatten (fun _ ↦ [], world) =
        some (heard, last) ∧
      (last.slot 0).core.isClosing ∧
      ((last.slot 0).core.isClosing ∨
        last.now ≤ world.now + heartbeatTimeoutMs + heartbeatIntervalMs + 0) :=
  ⟨_, _, _, rfl, rfl, rfl, silent_session_closes listener listener_leavesTimers 0 ()
    [.onConnection 0 0] (by simp) _ rfl 0 (by decide) (by decide)
    (List.replicate 4 textPeriod).flatten (by simp [textPeriod, List.replicate]) (by decide) _ _ rfl
    (by decide)⟩

end Server

end LibuvNet
