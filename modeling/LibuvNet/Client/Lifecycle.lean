import LibuvNet.Endpoint.Receive
import LibuvNet.Foundation.Run
import LibuvNet.Uv.Handle

/-!
# The life of a client

The functions of `client.cpp` around the receive loop: connecting, disconnecting, sending, the
heartbeat and the five libuv callbacks.  User code runs inside some of them.  It is given as the
list of calls it makes, which may depend on everything it can see, and on what it remembers; the
results libuv has for those calls come with them.

A step is one call of the application or one callback of the loop, which calls back only while
its thread runs and only when the callback is due.  An exception that leaves a callback ends the
process, so there is no step for it.
-/

namespace LibuvNet

open Foundation

namespace Client

/-- The members of a `Client` other than its tables and its receive buffer, the clock it reads and
what user code remembers. -/
structure Core (U : Type*) where
  loopThread : Bool
  socket : UvTcp
  isConnected : Bool
  isConnecting : Bool
  heartbeatTimer : UvTimer
  lastHeartbeatTime : ℕ
  now : ℕ
  heap : Memory UInt8
  memory : U

variable {U V H : Type*}

namespace Core

variable (core : Core U)

/-- A constructed client.  `socket_` is memory that no call has initialised. -/
def initial (active closing : Bool) (memory : U) : Core U where
  loopThread := false
  socket := .raw active closing
  isConnected := false
  isConnecting := false
  heartbeatTimer := .init
  lastHeartbeatTime := 0
  now := 0
  heap := ⟨fun _ ↦ [], []⟩
  memory := memory

/-- `Client::start_heartbeat`. -/
def startHeartbeat : Core U :=
  { core with
    lastHeartbeatTime := core.now
    heartbeatTimer := .start core.now heartbeatIntervalMs heartbeatIntervalMs }

/-- `Client::stop_heartbeat`. -/
def stopHeartbeat : Core U :=
  { core with heartbeatTimer := core.heartbeatTimer.stop }

/-- `Client::start`. -/
def start : Bool × Core U :=
  if core.loopThread then (false, core) else (true, { core with loopThread := true })

/-- `Client::stop`. -/
def stop : Core U :=
  if ¬ core.loopThread then core else { core with loopThread := false }.stopHeartbeat

/-- `Client::init_socket`, given the result of `uv_tcp_init`. -/
def initSocket (initResult : ℤ) : Bool × Core U :=
  if core.socket.active then
    if ¬ core.socket.closing then (false, { core with socket := core.socket.close false })
    else (false, core)
  else if initResult ≠ 0 then (false, core)
  else (true, { core with socket := core.socket.init })

/-- `Client::connect`, given the results of `uv_tcp_init` and `uv_tcp_connect`. -/
def connect (initResult connectResult : ℤ) : Bool × Core U :=
  if core.isConnected ∨ core.isConnecting then (false, core)
  else
    match core.initSocket initResult with
    | (false, core) => (false, core)
    | (true, core) =>
      if connectResult ≠ 0 then (false, { core with isConnecting := false })
      else (true, { core with socket := core.socket.connect, isConnecting := true })

/-- `Client::disconnect`. -/
def disconnect : Core U :=
  if ¬ core.isConnected ∧ ¬ core.isConnecting then core
  else
    let socket := if ¬ core.socket.closing then core.socket.close true else core.socket
    { core with socket := socket, isConnected := false, isConnecting := false }.stopHeartbeat

/-- `Client::send`. -/
def send (host : Host) (packet : Packet) (write : WriteCall) : Core U :=
  if ¬ core.isConnected then core
  else
    let written := writeLocal host packet write core.heap core.socket
    { core with heap := written.1, socket := written.2 }

/-- `Client::send_heartbeat`. -/
def sendHeartbeat (host : Host) (write : WriteCall) : Core U :=
  core.send host ⟨.heartbeat, [], 0⟩ write

/-- `Client::on_heartbeat_timer`. -/
def onHeartbeatTimer (host : Host) (write : WriteCall) : Core U :=
  if heartbeatTimeoutMs < core.now - core.lastHeartbeatTime then core.disconnect
  else core.sendHeartbeat host write

/-- The timer fires: the loop arms it again and calls back. -/
def tick (host : Host) (write : WriteCall) : Core U :=
  { core with heartbeatTimer := core.heartbeatTimer.again core.now }.onHeartbeatTimer host write

/-- `Client::on_write`. -/
def onWrite (status : ℤ) : Core U :=
  let core := { core with socket := core.socket.reportWrite status }
  if status < 0 then core.disconnect else core

@[simp]
theorem disconnect_isConnected : core.disconnect.isConnected = false := by
  unfold disconnect
  split
  · rename_i hneither
    exact Bool.eq_false_of_not_eq_true hneither.1
  · rfl

@[simp]
theorem send_isConnected (host : Host) (packet : Packet) (write : WriteCall) :
    (core.send host packet write).isConnected = core.isConnected := by
  unfold send
  split <;> rfl

/-- `init_socket` starts the socket over, or fails: then it has closed a socket that is in use, or
done nothing. -/
theorem initSocket_cases (initResult : ℤ) :
    core.initSocket initResult = (false, core) ∨
      core.initSocket initResult = (false, { core with socket := core.socket.close false }) ∨
      core.initSocket initResult = (true, { core with socket := core.socket.init }) := by
  unfold initSocket
  split_ifs
  · exact .inl rfl
  · exact .inr (.inl rfl)
  · exact .inl rfl
  · exact .inr (.inr rfl)

/-- What `connect` can do to a client: nothing, or, without a connection and an attempt, close a
socket that is in use, fail after the socket was started over, or begin an attempt on it. -/
theorem connect_cases (initResult connectResult : ℤ) :
    (core.connect initResult connectResult).2 = core ∨
      (core.isConnected = false ∧ core.isConnecting = false) ∧
        ((core.connect initResult connectResult).2 =
            { core with socket := core.socket.close false } ∨
          (core.connect initResult connectResult).2 =
            { core with socket := core.socket.init, isConnecting := false } ∨
          (core.connect initResult connectResult).2 =
            { core with socket := core.socket.init.connect, isConnecting := true }) := by
  unfold connect
  split
  · exact .inl rfl
  · rename_i hflags
    obtain ⟨hconnected, hconnecting⟩ := not_or.mp hflags
    have hneither := And.intro (Bool.eq_false_of_not_eq_true hconnected)
      (Bool.eq_false_of_not_eq_true hconnecting)
    rcases core.initSocket_cases initResult with heq | heq | heq <;> rw [heq]
    · exact .inl rfl
    · exact .inr ⟨hneither, .inl rfl⟩
    · by_cases hresult : connectResult ≠ 0
      · simp only [if_pos hresult]
        exact .inr ⟨hneither, .inr (.inl trivial)⟩
      · simp only [if_neg hresult]
        exact .inr ⟨hneither, .inr (.inr trivial)⟩

/-- Sending changes the memory and the account of the writes only. -/
theorem send_eq (host : Host) (packet : Packet) (write : WriteCall) :
    ∃ heap writer, core.send host packet write =
      { core with heap := heap, socket := { core.socket with writer := writer } } := by
  unfold send
  split
  · exact ⟨core.heap, core.socket.writer, rfl⟩
  · obtain ⟨writer, hsocket⟩ := writeLocal_socket host packet core.heap core.socket write
    refine ⟨(writeLocal host packet write core.heap core.socket).1, writer, ?_⟩
    simp only [hsocket]

/-- What a connected client is asked to send it sends, whatever its size. -/
theorem send_accepted (host : Host) (packet : Packet) {write : WriteCall}
    (hconnected : core.isConnected) (hresult : write.result = 0) :
    (core.send host packet write).socket.writer.accepted =
      core.socket.writer.accepted ++ [packet.serialize host write.padding] := by
  rw [send, if_neg (not_not.mpr hconnected)]
  simp only [writeLocal_accepted host packet core.heap core.socket hresult]
  exact Writer.submit_accepted ..

/-- A client that is not connected, or whose write is refused, sends nothing. -/
theorem send_refused (host : Host) (packet : Packet) {write : WriteCall}
    (hrefused : ¬ (core.isConnected = true ∧ write.result = 0)) :
    (core.send host packet write).socket.writer.accepted = core.socket.writer.accepted := by
  unfold send
  by_cases hconnected : core.isConnected = true
  · have hresult : write.result ≠ 0 := fun hresult ↦ hrefused ⟨hconnected, hresult⟩
    simp only [hconnected, not_true_eq_false, if_false, writeLocal_rejected host packet _ _ hresult]
  · rw [if_pos hconnected]

/-- A tick leaves the client connected unless the timeout has passed. -/
theorem tick_isConnected (host : Host) (write : WriteCall) (hconnected : core.isConnected) :
    (core.tick host write).isConnected ↔
      core.now - core.lastHeartbeatTime ≤ heartbeatTimeoutMs := by
  unfold tick onHeartbeatTimer
  split
  · rename_i hlate
    rw [disconnect_isConnected, Bool.false_eq_true, false_iff]
    exact not_le.mpr hlate
  · rename_i hintime
    rw [sendHeartbeat, send_isConnected]
    exact ⟨fun _ ↦ not_lt.mp hintime, fun _ ↦ hconnected⟩

end Core

/-- The calls user code makes on the client, with what libuv answers. -/
inductive Call where
  | connect (initResult connectResult : ℤ)
  | disconnect
  | send (packet : Packet) (write : WriteCall)
  deriving DecidableEq

def Call.run (host : Host) (core : Core U) : Call → Core U
  | .connect initResult connectResult => (core.connect initResult connectResult).2
  | .disconnect => core.disconnect
  | .send packet write => core.send host packet write

/-- A property of a client that no call of user code and nothing it remembers can break. -/
structure Kept (host : Host) (Holds : Core U → Prop) : Prop where
  connect : ∀ {core} (initResult connectResult : ℤ), Holds core →
    Holds (core.connect initResult connectResult).2
  disconnect : ∀ {core}, Holds core → Holds core.disconnect
  send : ∀ {core} (packet : Packet) (write : WriteCall), Holds core →
    Holds (core.send host packet write)
  memory : ∀ {core} (memory : U), Holds core → Holds { core with memory := memory }

theorem Kept.run {host : Host} {Holds : Core U → Prop} (hkept : Kept host Holds) {core : Core U}
    (call : Call) (hcore : Holds core) : Holds (call.run host core) := by
  cases call with
  | connect initResult connectResult => exact hkept.connect initResult connectResult hcore
  | disconnect => exact hkept.disconnect hcore
  | send packet write => exact hkept.send packet write hcore

/-- What user code does when it is called: the calls it makes, what it remembers, and whether it
ends by an exception. -/
structure Reaction (U : Type*) where
  calls : List Call
  memory : U
  throws : Option Exn

/-- The application around a client: the tables it installed and its handlers. -/
structure Application (U V H : Type*) where
  host : Host
  interceptorManager : InterceptorManager V
  packetHandlers : PacketType → Option H
  defaultPacketHandler : Option H
  onPacket : H → Packet → Core U → Reaction U
  connectHandler : Option (Core U → Reaction U)
  disconnectHandler : Option (Core U → Reaction U)

namespace Application

variable (app : Application U V H)

def react (reaction : Reaction U) (core : Core U) : Outcome Exn (Core U) :=
  let core := { reaction.calls.foldl (Call.run app.host) core with memory := reaction.memory }
  match reaction.throws with
  | none => .returned core
  | some error => .threw error core

def callHandler (handler : Option (Core U → Reaction U)) (core : Core U) :
    Outcome Exn (Core U) :=
  match handler with
  | none => .returned core
  | some handler => app.react (handler core) core

variable {app} in
theorem react_preserves {Holds : Core U → Prop} (hkept : Kept app.host Holds)
    {reaction : Reaction U} {core next : Core U} (hcore : Holds core)
    (hreact : app.react reaction core = .returned next) : Holds next := by
  have hcalls (calls : List Call) {core : Core U} (hcore : Holds core) :
      Holds (calls.foldl (Call.run app.host) core) := by
    induction calls generalizing core with
    | nil => exact hcore
    | cons call calls ih => exact ih (hkept.run call hcore)
  unfold react at hreact
  split at hreact
  · cases hreact
    exact hkept.memory _ (hcalls reaction.calls hcore)
  · cases hreact

variable {app} in
theorem callHandler_preserves {Holds : Core U → Prop} (hkept : Kept app.host Holds)
    {handler : Option (Core U → Reaction U)} {core next : Core U} (hcore : Holds core)
    (hhandler : app.callHandler handler core = .returned next) : Holds next := by
  cases handler with
  | none =>
    cases hhandler
    exact hcore
  | some handler => exact react_preserves hkept hcore hhandler

/-- The tables and handlers as the receive loop sees them.  `Client` does nothing of its own on a
`HEARTBEAT` packet. -/
def program : Program (Core U) V H where
  interceptorManager := app.interceptorManager
  packetHandlers := app.packetHandlers
  defaultPacketHandler := app.defaultPacketHandler
  heartbeat core := core
  invoke handler packet core := app.react (app.onPacket handler packet core) core

end Application

/-! ## Callbacks that run user code -/

section Callbacks

variable (app : Application U V H)

/-- `Client::on_connect`, given the result of `uv_read_start`. -/
def onConnect (status readResult : ℤ) (client : Receiver (Core U) H) :
    Outcome Exn (Receiver (Core U) H) :=
  let core := { client.state with socket := client.state.socket.connectDone }
  if status < 0 then
    .returned { client with state := { core with isConnecting := false } }
  else if readResult ≠ 0 then
    .returned { client with state := { core with isConnecting := false }.disconnect }
  else
    let core := { core with
      socket := core.socket.readStart, isConnected := true, isConnecting := false }.startHeartbeat
    (app.callHandler app.connectHandler core).map fun core ↦
      { client with state := core, trace := client.trace ++ [.connected] }

/-- `Client::on_close`. -/
def onClose (client : Receiver (Core U) H) : Outcome Exn (Receiver (Core U) H) :=
  let core := { client.state with
    socket := { client.state.socket with closeReqs := client.state.socket.closeReqs - 1 }
    isConnected := false
    isConnecting := false }.stopHeartbeat
  (app.callHandler app.disconnectHandler core).map fun core ↦ { client with state := core }

/-- `Client::on_read`. -/
def onRead (nread : ℤ) (base : Bytes) (client : Receiver (Core U) H) :
    Outcome Exn (Receiver (Core U) H) :=
  if nread < 0 then .returned { client with state := client.state.disconnect }
  else if nread = 0 then .returned client
  else
    appendToBuffer app.host app.program base
      { client with trace := client.trace ++ [.received base] }

end Callbacks

/-! ## Steps -/

/-- A call of the application, a callback of the loop, or something outside the client: the
transport takes bytes, time passes. -/
inductive Event where
  | start
  | stop
  | call (call : Call)
  | onConnect (status readResult : ℤ)
  | onClose
  | onRead (nread : ℤ) (base : Bytes)
  | onWrite (status : ℤ)
  | onHeartbeatTimer (write : WriteCall)
  | transmit (count : ℕ)
  | elapse (milliseconds : ℕ)
  deriving DecidableEq

/-- When an event can happen. -/
def Event.Due (core : Core U) : Event → Prop
  | .start | .stop | .call _ | .elapse _ => True
  | .onConnect status _ =>
    core.loopThread ∧ 0 < core.socket.connectReqs ∧ (core.socket.closing → status < 0)
  | .onClose => core.loopThread ∧ 0 < core.socket.closeReqs
  | .onRead nread base =>
    core.loopThread ∧ core.socket.reading ∧ (0 < nread → nread = base.length)
  | .onWrite status => core.loopThread ∧ core.socket.CanReportWrite status
  | .onHeartbeatTimer _ =>
    core.loopThread ∧ core.heartbeatTimer.active ∧ core.heartbeatTimer.due ≤ core.now
  | .transmit _ => ¬ core.socket.closing

instance (core : Core U) (event : Event) : Decidable (event.Due core) := by
  unfold Event.Due
  cases event <;> infer_instance

variable (app : Application U V H)

/-- What happens at an event that is due. -/
def handle (event : Event) (client : Receiver (Core U) H) : Outcome Exn (Receiver (Core U) H) :=
  match event with
  | .start => .returned { client with state := client.state.start.2 }
  | .stop => .returned { client with state := client.state.stop }
  | .call call => .returned { client with state := call.run app.host client.state }
  | .onConnect status readResult => onConnect app status readResult client
  | .onClose => onClose app client
  | .onRead nread base => onRead app nread base client
  | .onWrite status => .returned { client with state := client.state.onWrite status }
  | .onHeartbeatTimer write =>
    .returned { client with state := client.state.tick app.host write }
  | .transmit count =>
    .returned { client with
      state := { client.state with
        socket := client.state.socket.transmit client.state.heap count } }
  | .elapse milliseconds =>
    .returned { client with
      state := { client.state with now := client.state.now + milliseconds } }

/-- One step of a client. -/
def step (client : Receiver (Core U) H) (event : Event) : Option (Receiver (Core U) H) :=
  if event.Due client.state then (handle app event client).returned? else none

/-- What the client itself does at an event, before it calls user code. -/
def Event.effect (host : Host) (core : Core U) : Event → Core U
  | .start => core.start.2
  | .stop => core.stop
  | .call made => made.run host core
  | .onConnect status readResult =>
    let core := { core with socket := core.socket.connectDone }
    if status < 0 then { core with isConnecting := false }
    else if readResult ≠ 0 then { core with isConnecting := false }.disconnect
    else
      { core with
        socket := core.socket.readStart, isConnected := true, isConnecting := false }.startHeartbeat
  | .onClose =>
    { core with
      socket := { core.socket with closeReqs := core.socket.closeReqs - 1 }
      isConnected := false
      isConnecting := false }.stopHeartbeat
  | .onRead nread _ => if nread < 0 then core.disconnect else core
  | .onWrite status => core.onWrite status
  | .onHeartbeatTimer write => core.tick host write
  | .transmit count => { core with socket := core.socket.transmit core.heap count }
  | .elapse milliseconds => { core with now := core.now + milliseconds }

variable {app} in
/-- Only an event that is due happens. -/
theorem due_of_step {client next : Receiver (Core U) H} {event : Event}
    (hstep : step app client event = some next) : event.Due client.state := by
  unfold step at hstep
  split at hstep
  · rename_i hdue
    exact hdue
  · cases hstep

variable {app} in
/-- What user code cannot break holds after a step if it holds once the client has done its part. -/
theorem step_keeps {Holds : Core U → Prop} (hkept : Kept app.host Holds)
    {client next : Receiver (Core U) H} {event : Event}
    (heffect : Holds (event.effect app.host client.state))
    (hstep : step app client event = some next) : Holds next.state := by
  unfold step at hstep
  split at hstep
  · rw [Outcome.returned?_eq_some] at hstep
    cases event with
    | onConnect status readResult =>
      simp only [handle, onConnect] at hstep
      simp only [Event.effect] at heffect
      split_ifs at hstep heffect
      · cases hstep
        exact heffect
      · cases hstep
        exact heffect
      · obtain ⟨core, hcalled, rfl⟩ := Outcome.map_eq_returned hstep
        exact Application.callHandler_preserves hkept heffect hcalled
    | onClose =>
      obtain ⟨core, hcalled, rfl⟩ := Outcome.map_eq_returned hstep
      exact Application.callHandler_preserves hkept heffect hcalled
    | onRead nread base =>
      simp only [handle, onRead] at hstep
      simp only [Event.effect] at heffect
      split_ifs at hstep heffect
      · cases hstep
        exact heffect
      · cases hstep
        exact heffect
      · apply (receiveLoop app.host app.program).append_preserves (fun hholds ↦ hholds) _ _ hstep
        · exact Application.react_preserves hkept
        · exact heffect
    | start | stop | call | onWrite | onHeartbeatTimer | transmit | elapse =>
      cases hstep
      exact heffect
  · cases hstep

/-- An application that hands every packet to a handler which does nothing. -/
def quiet : Application Unit Unit Unit where
  host := .wide .little
  interceptorManager := .empty
  packetHandlers _ := none
  defaultPacketHandler := some ()
  onPacket _ _ _ := ⟨[], (), none⟩
  connectHandler := none
  disconnectHandler := none

end Client

end LibuvNet
