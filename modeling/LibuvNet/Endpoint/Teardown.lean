import LibuvNet.Client.Calls
import LibuvNet.Server.Listening

/-!
# The loop is deleted

The destructors of `Client` and `Server` stop the thread, close what they know of and delete the
loop.  A loop may be deleted when it is drained: every handle initialised on it has been passed to
`uv_close`, and its close callback has run.  No function passes a heartbeat timer to `uv_close`, so
a client never leaves a drained loop, nor does a server that has accepted a connection; any other
server does so exactly when the close callback of its listening handle came in time.
-/

namespace LibuvNet

open Foundation

/-! ## Clients -/

namespace Client

variable {U : Type*}

/-- The handles a client initialises on its loop. -/
inductive Handle where
  | socket
  | heartbeatTimer
  deriving DecidableEq, Repr

namespace Core

variable (core : Core U)

/-- The calls about handles that `Client::init_socket` makes. -/
def initSocketCalls (initResult : ℤ) : List (HandleCall Handle) :=
  if core.socket.active then
    if ¬ core.socket.closing then [.close .socket] else []
  else if initResult ≠ 0 then []
  else [.init .socket]

/-- The calls about handles that `Client::connect` makes. -/
def connectCalls (initResult : ℤ) : List (HandleCall Handle) :=
  if core.isConnected ∨ core.isConnecting then [] else core.initSocketCalls initResult

/-- The calls about handles that `Client::disconnect` makes. -/
def disconnectCalls : List (HandleCall Handle) :=
  if ¬ core.isConnected ∧ ¬ core.isConnecting then []
  else if ¬ core.socket.closing then [.close .socket]
  else []

end Core

/-- The calls about handles at an event.  The timer is started and stopped, but passed to
`uv_close` nowhere. -/
def Event.handleCalls (core : Core U) : Event → List (HandleCall Handle)
  | .call (.connect initResult _) => core.connectCalls initResult
  | .call .disconnect => core.disconnectCalls
  | .onConnect status readResult =>
    if status < 0 then []
    else if readResult ≠ 0 then { core with isConnecting := false }.disconnectCalls
    else []
  | .onClose => [.closed .socket]
  | .onRead nread _ => if nread < 0 then core.disconnectCalls else []
  | .onWrite status => if status < 0 then core.disconnectCalls else []
  | .onHeartbeatTimer _ =>
    if heartbeatTimeoutMs < core.now - core.lastHeartbeatTime then core.disconnectCalls else []
  | .start | .stop | .call (.send _ _) | .transmit _ | .elapse _ => []

/-- A client with the ledger of its loop. -/
structure Recorded (U : Type*) where
  core : Core U
  ledger : List (HandleCall Handle)

namespace Recorded

/-- `Client::Client`. -/
def initial (active closing : Bool) (memory : U) : Recorded U where
  core := .initial active closing memory
  ledger := [.init .heartbeatTimer]

/-- One step of a client with its ledger. -/
def step (host : Host) (client : Recorded U) (event : Event) : Option (Recorded U) :=
  (Core.step host client.core event).map fun core ↦
    ⟨core, client.ledger ++ event.handleCalls client.core⟩

end Recorded

/-- `Client::~Client` up to `uv_loop_delete`, with the callbacks before the thread is joined. -/
def teardown (during : List Event) : List Event := during ++ [.stop, .call .disconnect]

variable {core : Core U}

theorem handle_disconnectCalls : ∀ call ∈ core.disconnectCalls, call.handle = .socket := by
  unfold Core.disconnectCalls
  split_ifs <;> simp [HandleCall.handle]

theorem handle_connectCalls (initResult : ℤ) :
    ∀ call ∈ core.connectCalls initResult, call.handle = .socket := by
  unfold Core.connectCalls Core.initSocketCalls
  split_ifs <;> simp [HandleCall.handle]

/-- Once the client is constructed, all calls about handles are about the socket. -/
theorem handle_handleCalls (event : Event) :
    ∀ call ∈ event.handleCalls core, call.handle = .socket := by
  have hnone : ∀ call ∈ ([] : List (HandleCall Handle)), call.handle = .socket :=
    List.forall_mem_nil _
  cases event with
  | call made =>
    cases made with
    | connect initResult connectResult => exact handle_connectCalls initResult
    | disconnect => exact handle_disconnectCalls
    | send packet write => exact hnone
  | onConnect status readResult =>
    simp only [Event.handleCalls]
    split_ifs
    · exact hnone
    · exact handle_disconnectCalls
    · exact hnone
  | onClose => exact List.forall_mem_singleton.mpr rfl
  | onRead nread base =>
    simp only [Event.handleCalls]
    split
    · exact handle_disconnectCalls
    · exact hnone
  | onWrite status =>
    simp only [Event.handleCalls]
    split
    · exact handle_disconnectCalls
    · exact hnone
  | onHeartbeatTimer write =>
    simp only [Event.handleCalls]
    split
    · exact handle_disconnectCalls
    · exact hnone
  | start | stop | transmit | elapse => exact hnone

/-- The timer of a client is on its loop and has not been passed to `uv_close`. -/
def Recorded.TimerOpen (client : Recorded U) : Prop :=
  .init .heartbeatTimer ∈ client.ledger ∧ .close .heartbeatTimer ∉ client.ledger

theorem Recorded.TimerOpen.step {host : Host} {client next : Recorded U} {event : Event}
    (hopen : client.TimerOpen) (hstep : Recorded.step host client event = some next) :
    next.TimerOpen := by
  obtain ⟨core, -, rfl⟩ := Option.map_eq_some_iff.mp hstep
  refine ⟨List.mem_append_left _ hopen.1, fun hclose ↦ ?_⟩
  rcases List.mem_append.mp hclose with hearlier | hnow
  · exact hopen.2 hearlier
  · exact Handle.noConfusion (handle_handleCalls event _ hnow)

/-- The timer of a client never leaves its loop. -/
theorem not_drained {host : Host} {active closing : Bool} {memory : U} {events : List Event}
    {last : Recorded U}
    (hrun : runFrom (Recorded.step host) events (.initial active closing memory) = some last) :
    ¬ HandleLedger.Drained last.ledger := by
  have hinitial : (Recorded.initial active closing memory).TimerOpen := by
    simp [Recorded.TimerOpen, Recorded.initial]
  obtain ⟨hinit, hclose⟩ := runFrom_invariant Recorded.TimerOpen.step hinitial hrun
  exact HandleLedger.not_drained hinit hclose

/-! ### The ledger and the socket -/

theorem connect_closeCalls (initResult connectResult : ℤ) :
    (core.connect initResult connectResult).2.socket.closeCalls =
      core.socket.closeCalls + (core.connectCalls initResult).count (.close .socket) := by
  unfold Core.connect Core.connectCalls Core.initSocket Core.initSocketCalls
  split_ifs <;> simp [UvTcp.close, UvTcp.init, UvTcp.connect, *]

theorem disconnect_closeCalls :
    core.disconnect.socket.closeCalls =
      core.socket.closeCalls + core.disconnectCalls.count (.close .socket) := by
  unfold Core.disconnect Core.disconnectCalls
  split_ifs <;> simp_all [Core.stopHeartbeat, UvTcp.close]

theorem effect_closeCalls (host : Host) (event : Event) :
    (event.effect host core).socket.closeCalls =
      core.socket.closeCalls + (event.handleCalls core).count (.close .socket) := by
  cases event with
  | call made =>
    cases made with
    | connect initResult connectResult => exact connect_closeCalls initResult connectResult
    | disconnect => exact disconnect_closeCalls
    | send packet write =>
      obtain ⟨heap, writer, hsend⟩ := core.send_eq host packet write
      simp only [Event.effect, Call.run, hsend]
      rfl
  | onConnect status readResult =>
    simp only [Event.effect, Event.handleCalls]
    split_ifs
    · rfl
    · exact disconnect_closeCalls
    · rfl
  | onClose => rfl
  | onRead nread base =>
    simp only [Event.effect, Event.handleCalls]
    split
    · exact disconnect_closeCalls
    · rfl
  | onWrite status =>
    obtain ⟨canceledWrites, writer, hreport⟩ := core.socket.reportWrite_eq status
    simp only [Event.effect, Event.handleCalls, Core.onWrite, hreport]
    split
    · exact disconnect_closeCalls
    · rfl
  | onHeartbeatTimer write =>
    simp only [Event.effect, Event.handleCalls, Core.tick, Core.onHeartbeatTimer]
    split
    · exact disconnect_closeCalls
    · obtain ⟨heap, writer, hsend⟩ := Core.send_eq
        { core with heartbeatTimer := core.heartbeatTimer.again core.now } host
        ⟨.heartbeat, [], 0⟩ write
      simp only [Core.sendHeartbeat, hsend]
      rfl
  | start =>
    simp only [Event.effect, Core.start]
    split <;> rfl
  | stop =>
    simp only [Event.effect, Core.stop]
    split <;> rfl
  | transmit count => rfl
  | elapse milliseconds => rfl

/-- The ledger lists every call of `uv_close` on the socket. -/
def Recorded.CountsCloses (client : Recorded U) : Prop :=
  client.ledger.count (.close .socket) = client.core.socket.closeCalls

theorem Recorded.CountsCloses.step {host : Host} {client next : Recorded U} {event : Event}
    (hcounts : client.CountsCloses) (hstep : Recorded.step host client event = some next) :
    next.CountsCloses := by
  obtain ⟨core, hcore, rfl⟩ := Option.map_eq_some_iff.mp hstep
  obtain ⟨-, rfl⟩ := Core.step_eq_some.mp hcore
  change (client.ledger ++ event.handleCalls client.core).count (.close .socket) = _
  rw [List.count_append, hcounts, effect_closeCalls]

theorem ledger_closeCalls {host : Host} {active closing : Bool} {memory : U} {events : List Event}
    {last : Recorded U}
    (hrun : runFrom (Recorded.step host) events (.initial active closing memory) = some last) :
    last.CountsCloses := by
  have hinitial : (Recorded.initial active closing memory).CountsCloses := rfl
  exact runFrom_invariant Recorded.CountsCloses.step hinitial hrun

end Client

/-! ## Servers -/

namespace Server

variable {U V H : Type*}

/-- The event is a connection that is accepted. -/
def Event.Accepts : Event V H → Prop
  | .onConnection status _ => ¬ status < 0
  | _ => False

/-- A step that is no accepted connection creates no session. -/
theorem created_step {app : Application U V H} {world next : World U V H} {event : Event V H}
    (hstep : step app world event = some next) :
    event.Accepts ∧ next.created = world.created + 1 ∨
      ¬ event.Accepts ∧ next.created = world.created := by
  by_cases haccepts : event.Accepts
  · refine .inl ⟨haccepts, ?_⟩
    unfold step at hstep
    split at hstep
    · rw [Outcome.returned?_eq_some] at hstep
      cases event with
      | onConnection status readResult =>
        change onConnection app status readResult world = .returned next at hstep
        rw [onConnection, if_neg haccepts] at hstep
        exact (Serves.react 0 hstep).created
      | _ => exact haccepts.elim
    · cases hstep
  · refine .inr ⟨haccepts, ?_⟩
    rcases step_cases hstep with ⟨id, packets, -, -, hserves⟩ | hserves |
      ⟨status, readResult, rfl, hstatus, -⟩ | ⟨closed, -, -, -, hserves⟩
    · exact hserves.created
    · exact (hserves 0).created
    · exact absurd hstatus haccepts
    · exact (hserves 0).created

namespace Service

variable {service next : Service U V H}

/-- The event is a connection that is accepted. -/
def Event.Accepts : Event V H → Prop
  | .world event => event.Accepts
  | _ => False

/-- `Server::~Server` up to `uv_loop_delete`, with the callbacks before the thread is joined. -/
def teardown (during : List (Event V H)) : List (Event V H) :=
  .stopListening :: during ++ [.stop]

/-- Every session has its timer on the loop, none of them has been passed to `uv_close`, and
without a session there are only calls about the listening handle. -/
structure TimersOpen (service : Service U V H) : Prop where
  init : ∀ id < service.world.created, .init (.heartbeatTimer id) ∈ service.ledger
  close : ∀ id, .close (.heartbeatTimer id) ∉ service.ledger
  alone : service.world.created = 0 → ∀ call ∈ service.ledger, call.handle = .server

theorem timersOpen_initial (memory : U) : TimersOpen (initial memory : Service U V H) where
  init _ hid := absurd hid (Nat.not_lt_zero _)
  close _ := by simp [initial]
  alone _ := List.forall_mem_singleton.mpr rfl

/-- A new session initialises its timer. -/
theorem init_mem_handleCalls {world after : World U V H} {event : Server.Event V H}
    (haccepts : event.Accepts) :
    .init (.heartbeatTimer world.created) ∈ world.handleCalls event after := by
  cases event with
  | onConnection status readResult =>
    have hstatus : ¬ status < 0 := haccepts
    simp [World.handleCalls, hstatus]
  | _ => exact haccepts.elim

theorem close_not_mem_handleCalls (world : World U V H) (event : Server.Event V H)
    (after : World U V H) (id : ℕ) :
    .close (.heartbeatTimer id) ∉ world.handleCalls event after := by
  unfold World.handleCalls
  cases event with
  | onConnection status readResult =>
    simp only
    split <;> simp
  | _ => simp

/-- Without sessions there are no calls about their handles. -/
theorem handleCalls_eq_nil {app : Application U V H} {world after : World U V H}
    {event : Server.Event V H} (hstep : Server.step app world event = some after)
    (hnone : after.created = 0) : world.handleCalls event after = [] := by
  rcases created_step hstep with ⟨-, hcreated⟩ | ⟨haccepts, hcreated⟩
  · omega
  · have hdue : event.Due world := by
      unfold Server.step at hstep
      split at hstep
      · assumption
      · cases hstep
    unfold World.handleCalls
    rw [hnone, List.range_zero, List.filter_nil, List.map_nil, List.append_nil]
    cases event with
    | onConnection status readResult => exact if_pos (not_not.mp haccepts)
    | onClose id =>
      have hid : id < world.created := hdue.1
      omega
    | _ => rfl

theorem TimersOpen.step {app : Application U V H} {event : Event V H} (hopen : service.TimersOpen)
    (hstep : step app service event = some next) : next.TimersOpen := by
  rcases step_cases hstep with
    ⟨event, world, -, hworld, rfl⟩ | ⟨-, hworld, calls, hcalls, hledger⟩
  · constructor
    · intro id hid
      rcases created_step hworld with ⟨haccepts, hcreated⟩ | ⟨-, hcreated⟩
      · have hid' : id < service.world.created + 1 := hcreated ▸ hid
        rcases Nat.lt_succ_iff_lt_or_eq.mp hid' with hlt | rfl
        · exact List.mem_append_left _ (hopen.init id hlt)
        · exact List.mem_append_right _ (init_mem_handleCalls haccepts)
      · exact List.mem_append_left _ (hopen.init id (hcreated ▸ hid))
    · intro id hmem
      rcases List.mem_append.mp hmem with hearlier | hnow
      · exact hopen.close id hearlier
      · exact close_not_mem_handleCalls service.world event world id hnow
    · intro hnone
      have hbefore : service.world.created = 0 := by
        rcases created_step hworld with ⟨-, hcreated⟩ | ⟨-, hcreated⟩
        · exact absurd (hcreated.symm.trans hnone) (Nat.succ_ne_zero _)
        · exact hcreated.symm.trans hnone
      change ∀ call ∈ service.ledger ++ service.world.handleCalls event world, _
      rw [handleCalls_eq_nil hworld hnone, List.append_nil]
      exact hopen.alone hbefore
  · refine ⟨?_, ?_, ?_⟩ <;> rw [hledger]
    · intro id hid
      rw [hworld] at hid
      exact List.mem_append_left _ (hopen.init id hid)
    · intro id hmem
      rcases List.mem_append.mp hmem with hearlier | hnow
      · exact hopen.close id hearlier
      · exact Handle.noConfusion (hcalls _ hnow)
    · intro hnone
      rw [hworld] at hnone
      exact List.forall_mem_append.mpr ⟨hopen.alone hnone, hcalls⟩

/-- No session exists as long as no connection has been accepted. -/
theorem created_run {app : Application U V H} {events : List (Event V H)}
    (hrun : runFrom (step app) events service = some next) :
    next.world.created = 0 ↔
      service.world.created = 0 ∧ ∀ event ∈ events, ¬ event.Accepts := by
  induction events generalizing service with
  | nil =>
    obtain rfl := Option.some.inj hrun
    simp
  | cons event events ih =>
    obtain ⟨mid, hmid, hlater⟩ := (runFrom_cons _).mp hrun
    have hstep : mid.world.created = 0 ↔ service.world.created = 0 ∧ ¬ event.Accepts := by
      rcases step_cases hmid with ⟨event, world, rfl, hworld, rfl⟩ | ⟨hnot, hworld, -⟩
      · rcases created_step hworld with ⟨haccepts, hcreated⟩ | ⟨haccepts, hcreated⟩
        · simp [hcreated, Event.Accepts, haccepts]
        · simp [hcreated, Event.Accepts, haccepts]
      · have haccepts : ¬ event.Accepts := by
          cases event with
          | world event => exact absurd rfl (hnot event)
          | _ => exact id
        rw [hworld]
        simp [haccepts]
    rw [ih hlater, hstep, List.forall_mem_cons, and_assoc]

/-! ### The listening handle -/

theorem closed_step {app : Application U V H} {event : Event V H} (hcoherent : service.Coherent)
    (hstep : Service.step app service event = some next) :
    next.server = .closed ↔ service.server = .closed ∨ event = .onServerClose := by
  cases event with
  | start =>
    cases hstep
    obtain ⟨loopThread, hstart⟩ := service.start_eq
    rw [hstart]
    simp
  | stop =>
    cases hstep
    obtain ⟨loopThread, hstop⟩ := service.stop_eq
    rw [hstop]
    simp
  | listen bindResult listenResult =>
    cases hstep
    rcases service.listen_cases bindResult listenResult with
      ⟨hsame, -⟩ | ⟨-, hbindable, ⟨-, hinUse⟩ | ⟨-, ⟨-, hbound⟩ | ⟨-, hlistening⟩⟩⟩
    · simp [hsame]
    · simp [hinUse, hbindable.ne_closed]
    · simp [hbound, hbindable.ne_closed]
    · simp [hlistening, hbindable.ne_closed]
  | stopListening =>
    cases hstep
    rcases service.stopListening_cases with ⟨-, hsame⟩ | ⟨hflag, ⟨-, hstop⟩ | ⟨-, hstop⟩⟩
    · simp [hsame]
    · simp [hstop, hcoherent.listening hflag]
    · simp [hstop]
  | onServerClose =>
    obtain ⟨-, rfl⟩ := step_onServerClose hstep
    simp [Service.onServerClose]
  | world event =>
    obtain ⟨-, world, -, rfl⟩ := step_world hstep
    simp

/-- The handle is closed once its close callback has run, and stays so. -/
theorem closed_run {app : Application U V H} {events : List (Event V H)}
    (hcoherent : service.Coherent) (hrun : runFrom (Service.step app) events service = some next) :
    next.server = .closed ↔ service.server = .closed ∨ .onServerClose ∈ events := by
  induction events generalizing service with
  | nil =>
    obtain rfl := Option.some.inj hrun
    simp
  | cons event events ih =>
    obtain ⟨mid, hmid, hlater⟩ := (runFrom_cons _).mp hrun
    rw [ih (hcoherent.step hmid) hlater, closed_step hcoherent hmid, List.mem_cons, or_assoc,
      @eq_comm _ event]

/-- The loop of a server is drained if no session was ever created and the listening handle is
closed. -/
theorem drained_iff (hcoherent : service.Coherent) (hopen : service.TimersOpen) :
    HandleLedger.Drained service.ledger ↔
      service.world.created = 0 ∧ service.server = .closed := by
  constructor
  · intro hdrained
    refine ⟨Nat.eq_zero_of_not_pos fun hpos ↦ ?_, ?_⟩
    · exact HandleLedger.not_drained (hopen.init 0 hpos) (hopen.close 0) hdrained
    · have hserver := hdrained .server
      rw [hcoherent.phase] at hserver
      cases hphase : service.server <;> simp [hphase, ListenPhase.toHandlePhase] at hserver ⊢
  · rintro ⟨hnone, hclosed⟩ handle
    cases handle with
    | server =>
      rw [hcoherent.phase, hclosed]
      exact .inr rfl
    | socket id =>
      refine .inl (HandleLedger.phase_eq_absent fun call hcall heq ↦ ?_)
      exact Handle.noConfusion ((hopen.alone hnone call hcall).symm.trans heq)
    | heartbeatTimer id =>
      refine .inl (HandleLedger.phase_eq_absent fun call hcall heq ↦ ?_)
      exact Handle.noConfusion ((hopen.alone hnone call hcall).symm.trans heq)

theorem drained_run {app : Application U V H} {memory : U} {events : List (Event V H)}
    (hrun : runFrom (Service.step app) events (.initial memory) = some service) :
    HandleLedger.Drained service.ledger ↔
      (∀ event ∈ events, ¬ event.Accepts) ∧ .onServerClose ∈ events := by
  have hcoherent : (initial memory : Service U V H).Coherent := coherent_initial memory
  have hlast := runFrom_invariant Coherent.step hcoherent hrun
  have hopen := runFrom_invariant TimersOpen.step (timersOpen_initial memory) hrun
  rw [drained_iff hlast hopen, created_run hrun, closed_run hcoherent hrun]
  simp [initial, World.initial]

end Service

end Server

variable {U V H : Type*}

/-- **The deletion of the loop.** When a client deletes its loop, it is never drained; when a server
does, it is drained if and only if the server accepted no connection and its listening handle was
closed and saw its close callback before the thread was joined. -/
theorem deletes_drained_loop_iff :
    (∀ (host : Host) (active closing : Bool) (memory : U) (before during : List Client.Event)
        (last : Client.Recorded U),
      runFrom (Client.Recorded.step host) (before ++ Client.teardown during)
          (.initial active closing memory) = some last →
        ¬ HandleLedger.Drained last.ledger) ∧
      ∀ (app : Server.Application U V H) (memory : U)
        (before during : List (Server.Service.Event V H)) (last : Server.Service U V H),
      (∀ event ∈ during, event.IsCallback) →
        runFrom (Server.Service.step app) (before ++ Server.Service.teardown during)
          (.initial memory) = some last →
        (HandleLedger.Drained last.ledger ↔
          (∀ event ∈ before ++ during, ¬ event.Accepts) ∧
            .onServerClose ∈ before ++ during) := by
  refine ⟨fun _ _ _ _ _ _ _ hrun ↦ Client.not_drained hrun, ?_⟩
  intro app memory before during last _ hrun
  rw [Server.Service.drained_run hrun]
  simp [Server.Service.teardown, or_imp, forall_and, Server.Service.Event.Accepts]

/-- A server that listened, accepted nobody and was given a turn of its loop. -/
theorem deletes_drained_loop_iff_unvisited :
    ∃ last, runFrom (Server.Service.step Server.hangingUp)
        ([.start, .listen 0 0] ++ Server.Service.teardown [.onServerClose]) (.initial ()) =
          some last ∧ HandleLedger.Drained last.ledger :=
  ⟨_, rfl, (deletes_drained_loop_iff.2 Server.hangingUp () [.start, .listen 0 0] [.onServerClose] _
    (List.forall_mem_singleton.mpr trivial) rfl).mpr
      ⟨by simp [Server.Service.Event.Accepts], by simp⟩⟩

/-- A client leaves its timer on the loop, and so does a server whose only visitor has left. -/
theorem loop_deleted_undrained :
    (¬ ∀ (before during : List Client.Event) (last : Client.Recorded Unit),
      runFrom (Client.Recorded.step (.wide .little)) (before ++ Client.teardown during)
          (.initial false false ()) = some last →
        HandleLedger.Drained last.ledger) ∧
      ¬ ∀ (before during : List (Server.Service.Event Unit Unit))
        (last : Server.Service Unit Unit Unit),
      (∀ event ∈ during, event.IsCallback) →
        runFrom (Server.Service.step Server.hangingUp)
          (before ++ Server.Service.teardown during) (.initial ()) = some last →
        HandleLedger.Drained last.ledger := by
  constructor
  · intro hdrained
    have hlast := hdrained [] [] _ rfl .heartbeatTimer
    revert hlast
    decide
  · intro hdrained
    have hlast := hdrained
      [.start, .listen 0 0, .world (.onConnection 0 0), .world (.call (.close 0)),
        .world (.onClose 0)]
      [.onServerClose] _ (List.forall_mem_singleton.mpr trivial) rfl (.heartbeatTimer 0)
    revert hlast
    decide

end LibuvNet
