import LibuvNet.Endpoint.Receive
import LibuvNet.Foundation.Run
import LibuvNet.Foundation.TimedLog
import LibuvNet.Session.Lifecycle

/-!
# A session and its user

The functions of a session together with its receive loop, the clock, the heap its vectors live on
and user code, as for a client: user code is the list of calls it makes, and a step is a call of
the application or a callback of the loop that is due.  No read callback is installed, so `on_read`
goes to `append_to_buffer`.

The session also keeps a log of what is done with it: when the heartbeat was started, when the
timer ticked, which chunks and packets came, when `close` was called and what was written.
-/

namespace LibuvNet

open Foundation

namespace Session

/-- What is noted of a session. -/
inductive Note where
  | started
  | ticked
  | received (chunk : Bytes)
  | handled (packet : Packet)
  | closeCalled
  | written (packet : Packet)
  deriving DecidableEq

namespace Note

/-- A sign of life: the heartbeat was started, or a `HEARTBEAT` packet was handled. -/
def IsSign : Note → Prop
  | started => True
  | handled packet => packet.type = .heartbeat
  | _ => False

instance : DecidablePred IsSign
  | started => isTrue trivial
  | handled packet => inferInstanceAs (Decidable (packet.type = .heartbeat))
  | ticked | received _ | closeCalled | written _ => isFalse id

/-- The heartbeat was started, or its timer ticked. -/
def IsBeat : Note → Prop
  | started | ticked => True
  | _ => False

instance : DecidablePred IsBeat
  | started | ticked => isTrue trivial
  | handled _ | received _ | closeCalled | written _ => isFalse id

/-- The chunks received according to a log. -/
def chunks (log : List (ℕ × Note)) : List Bytes :=
  log.filterMap fun
    | (_, received chunk) => some chunk
    | _ => none

/-- The packets handled according to a log. -/
def packets (log : List (ℕ × Note)) : List Packet :=
  log.filterMap fun
    | (_, handled packet) => some packet
    | _ => none

@[simp]
theorem chunks_append (first second : List (ℕ × Note)) :
    chunks (first ++ second) = chunks first ++ chunks second :=
  List.filterMap_append

@[simp]
theorem packets_append (first second : List (ℕ × Note)) :
    packets (first ++ second) = packets first ++ packets second :=
  List.filterMap_append

end Note

/-- The members of a session other than its tables and its receive buffer, the clock, the heap,
what user code remembers, and the log. -/
structure Life (U : Type*) where
  core : Core
  now : ℕ
  heap : Memory UInt8
  memory : U
  log : List (ℕ × Note)

variable {U V H : Type*}

namespace Life

/-- A session that has accepted a connection. -/
def accepted (now : ℕ) (memory : U) : Life U where
  core := .accept
  now := now
  heap := ⟨fun _ ↦ [], []⟩
  memory := memory
  log := []

variable (life : Life U)

/-- The time of the last sign of life. -/
def lastSign : ℕ := lastTime Note.IsSign life.log

/-- When the heartbeat was started or its timer ticked the last time. -/
def lastBeat : ℕ := lastTime Note.IsBeat life.log

def record (note : Note) : Life U :=
  { life with log := life.log ++ [(life.now, note)] }

/-- `Session::start`. -/
def start (readResult : ℤ) : Life U :=
  { life with core := life.core.start life.now readResult }.record .started

/-- `Session::start_read`. -/
def startRead (readResult : ℤ) : Life U :=
  { life with core := (life.core.startRead readResult).2 }

/-- `Session::stop`. -/
def stop : Life U :=
  { life with core := life.core.stop }

/-- `Session::close`. -/
def close : Life U :=
  { life with core := life.core.close }.record .closeCalled

/-- `Session::send`. -/
def send (host : Host) (packet : Packet) (write : WriteCall) : Life U :=
  if life.core.isClosing then life
  else
    let sent := life.core.send host packet write life.heap
    { life with heap := sent.1, core := sent.2 }.record (.written packet)

/-- The timer fires: the loop arms it again and calls `Session::on_heartbeat_timer`. -/
def tick (host : Host) (write : WriteCall) : Life U :=
  let life := { life with
    core := { life.core with
      heartbeatTimer := life.core.heartbeatTimer.again life.now } }.record .ticked
  if heartbeatTimeoutMs < life.now - life.core.lastHeartbeatTime then life.close
  else life.send host ⟨.heartbeat, [], 0⟩ write

/-- `Session::on_write`. -/
def onWrite (status : ℤ) : Life U :=
  let life := { life with
    core := { life.core with socket := life.core.socket.reportWrite status } }
  if status < 0 then life.close else life

/-- Time passes. -/
def elapse (milliseconds : ℕ) : Life U :=
  { life with now := life.now + milliseconds }

/-- What `Session::handle_packet` does with a packet before it calls user code. -/
def hear (packet : Packet) : Life U :=
  let life := life.record (.handled packet)
  if packet.type = .heartbeat then
    { life with core := { life.core with lastHeartbeatTime := life.now } }
  else life

theorem send_core (host : Host) (packet : Packet) (write : WriteCall) :
    (life.send host packet write).core = (life.core.send host packet write life.heap).2 := by
  unfold send Core.send
  split <;> rfl

/-- Apart from the log, a tick and a reported write are what they are for the members alone. -/
theorem tick_core (host : Host) (write : WriteCall) :
    (life.tick host write).core = (life.core.tick host write life.now life.heap).2 := by
  unfold tick Core.tick Core.onHeartbeatTimer
  dsimp only [record]
  split
  · rfl
  · exact send_core _ host _ write

theorem onWrite_core (status : ℤ) : (life.onWrite status).core = life.core.onWrite status := by
  unfold onWrite Core.onWrite
  dsimp only
  split <;> rfl

end Life

/-- The calls user code makes on the session, with what libuv answers; time may pass meanwhile. -/
inductive Call where
  | start (readResult : ℤ)
  | startRead (readResult : ℤ)
  | stop
  | close
  | send (packet : Packet) (write : WriteCall)
  | elapse (milliseconds : ℕ)
  deriving DecidableEq

def Call.run (host : Host) (life : Life U) : Call → Life U
  | .start readResult => life.start readResult
  | .startRead readResult => life.startRead readResult
  | .stop => life.stop
  | .close => life.close
  | .send packet write => life.send host packet write
  | .elapse milliseconds => life.elapse milliseconds

/-- A property of a session that no call of user code and nothing it remembers can break. -/
structure Kept (host : Host) (Holds : Life U → Prop) : Prop where
  run : ∀ {life} (call : Call), Holds life → Holds (call.run host life)
  memory : ∀ {life} (memory : U), Holds life → Holds { life with memory := memory }

/-- What user code does when it is called: the calls it makes, what it remembers, and whether it
ends by an exception. -/
structure Reaction (U : Type*) where
  calls : List Call
  memory : U
  throws : Option Exn

/-- The application around a session: the tables it installed and its handlers. -/
structure Application (U V H : Type*) where
  host : Host
  interceptorManager : InterceptorManager V
  packetHandlers : PacketType → Option H
  defaultPacketHandler : Option H
  onPacket : H → Packet → Life U → Reaction U
  closeHandler : Option (Life U → Reaction U)

namespace Application

variable (app : Application U V H)

def react (reaction : Reaction U) (life : Life U) : Outcome Exn (Life U) :=
  let life := { reaction.calls.foldl (Call.run app.host) life with memory := reaction.memory }
  match reaction.throws with
  | none => .returned life
  | some error => .threw error life

def callHandler (handler : Option (Life U → Reaction U)) (life : Life U) :
    Outcome Exn (Life U) :=
  match handler with
  | none => .returned life
  | some handler => app.react (handler life) life

/-- The tables and handlers as the receive loop sees them. -/
def program : Program (Life U) V H where
  interceptorManager := app.interceptorManager
  packetHandlers := app.packetHandlers
  defaultPacketHandler := app.defaultPacketHandler
  heartbeat life := { life with core := { life.core with lastHeartbeatTime := life.now } }
  invoke handler packet life := app.react (app.onPacket handler packet life) life

/-- `Session::handle_packet`, with the packet noted. -/
def handle (packet : Packet) (endpoint : Endpoint (Life U) H) :
    Outcome Exn (Endpoint (Life U) H) :=
  handlePacket app.program packet { endpoint with state := endpoint.state.record (.handled packet) }

variable {app} {Holds : Life U → Prop}

theorem react_preserves (hkept : Kept app.host Holds) {reaction : Reaction U}
    {life next : Life U} (hlife : Holds life)
    (hreact : app.react reaction life = .returned next) : Holds next := by
  have hcalls (calls : List Call) {life : Life U} (hlife : Holds life) :
      Holds (calls.foldl (Call.run app.host) life) := by
    induction calls generalizing life with
    | nil => exact hlife
    | cons call calls ih => exact ih (hkept.run call hlife)
  unfold react at hreact
  split at hreact
  · cases hreact
    exact hkept.memory _ (hcalls reaction.calls hlife)
  · cases hreact

theorem callHandler_preserves (hkept : Kept app.host Holds)
    {handler : Option (Life U → Reaction U)} {life next : Life U} (hlife : Holds life)
    (hhandler : app.callHandler handler life = .returned next) : Holds next := by
  cases handler with
  | none =>
    cases hhandler
    exact hlife
  | some handler => exact react_preserves hkept hlife hhandler

/-- What user code cannot break holds after a packet was handled if it holds once the session has
done its part. -/
theorem handle_keeps (hkept : Kept app.host Holds) {packet : Packet}
    {endpoint next : Endpoint (Life U) H} (hheard : Holds (endpoint.state.hear packet))
    (hhandle : app.handle packet endpoint = .returned next) : Holds next.state := by
  unfold handle at hhandle
  unfold Life.hear at hheard
  by_cases htype : packet.type = .heartbeat
  · rw [handlePacket_of_heartbeat app.program htype] at hhandle
    rw [if_pos htype] at hheard
    cases hhandle
    exact hheard
  · rw [handlePacket_of_ne app.program htype] at hhandle
    rw [if_neg htype] at hheard
    rcases Client.dispatch_state app.program hhandle with hsame | ⟨handler, hinvoke⟩
    · rw [hsame]
      exact hheard
    · exact react_preserves hkept hheard hinvoke

end Application

/-! ## Steps -/

section Callbacks

variable (app : Application U V H)

/-- `Session::on_read`. -/
def onRead (nread : ℤ) (base : Bytes) (session : Receiver (Life U) H) :
    Outcome Exn (Receiver (Life U) H) :=
  if nread < 0 then .returned { session with state := session.state.close }
  else if nread = 0 then .returned session
  else
    appendToBufferBy app.host app.handle base
      { session with state := session.state.record (.received base) }

/-- `Session::on_close`. -/
def onClose (session : Receiver (Life U) H) : Outcome Exn (Receiver (Life U) H) :=
  let core := session.state.core
  let life := { session.state with
    core := { core with socket := { core.socket with closeReqs := core.socket.closeReqs - 1 } } }
  (app.callHandler app.closeHandler life).map fun life ↦ { session with state := life }

end Callbacks

/-- A call of the application, a callback of the loop, or something outside the session. -/
inductive Event where
  | call (call : Call)
  | onRead (nread : ℤ) (base : Bytes)
  | onWrite (status : ℤ)
  | onClose
  | onHeartbeatTimer (write : WriteCall)
  | transmit (count : ℕ)
  deriving DecidableEq

/-- When an event can happen. -/
def Event.Due (life : Life U) : Event → Prop
  | .call _ => True
  | .onRead nread base => life.core.socket.reading ∧ (0 < nread → nread = base.length)
  | .onWrite status => life.core.socket.CanReportWrite status
  | .onClose => 0 < life.core.socket.closeReqs
  | .onHeartbeatTimer _ =>
    life.core.heartbeatTimer.active ∧ life.core.heartbeatTimer.due ≤ life.now
  | .transmit _ => ¬ life.core.socket.closing

instance (life : Life U) (event : Event) : Decidable (event.Due life) := by
  unfold Event.Due
  cases event <;> infer_instance

/-- What the session itself does at an event, before it handles packets and calls user code. -/
def Event.effect (host : Host) (life : Life U) : Event → Life U
  | .call made => made.run host life
  | .onRead nread base =>
    if nread < 0 then life.close
    else if nread = 0 then life else life.record (.received base)
  | .onWrite status => life.onWrite status
  | .onClose =>
    { life with
      core := { life.core with
        socket := { life.core.socket with closeReqs := life.core.socket.closeReqs - 1 } } }
  | .onHeartbeatTimer write => life.tick host write
  | .transmit count =>
    { life with
      core := { life.core with socket := life.core.socket.transmit life.heap count } }

variable (app : Application U V H)

/-- What happens at an event that is due. -/
def handleEvent (event : Event) (session : Receiver (Life U) H) :
    Outcome Exn (Receiver (Life U) H) :=
  match event with
  | .onRead nread base => onRead app nread base session
  | .onClose => onClose app session
  | event => .returned { session with state := event.effect app.host session.state }

/-- One step of a session. -/
def step (session : Receiver (Life U) H) (event : Event) : Option (Receiver (Life U) H) :=
  if event.Due session.state then (handleEvent app event session).returned? else none

variable {app}

/-- A step is of an event that is due, and returns. -/
theorem step_eq_some {session next : Receiver (Life U) H} {event : Event}
    (hstep : step app session event = some next) :
    event.Due session.state ∧ handleEvent app event session = .returned next := by
  unfold step at hstep
  split at hstep
  · rename_i hdue
    exact ⟨hdue, Outcome.returned?_eq_some.mp hstep⟩
  · cases hstep

/-- What neither user code nor packets can break holds after a step if it holds once the session
has done its part. -/
theorem step_keeps {Holds : Life U → Prop} (hkept : Kept app.host Holds)
    (hhear : ∀ {life} (packet : Packet), Holds life → Holds (life.hear packet))
    {session next : Receiver (Life U) H} {event : Event}
    (heffect : Holds (event.effect app.host session.state))
    (hstep : step app session event = some next) : Holds next.state := by
  obtain ⟨-, hstep⟩ := step_eq_some hstep
  cases event with
  | onRead nread base =>
    simp only [handleEvent, onRead] at hstep
    simp only [Event.effect] at heffect
    split_ifs at hstep heffect
    · cases hstep
      exact heffect
    · cases hstep
      exact heffect
    · exact appendToBufferBy_preserves (fun endpoint ↦ Holds endpoint.state)
        (fun hholds hhandle ↦ Application.handle_keeps hkept (hhear _ hholds) hhandle) heffect hstep
  | onClose =>
    obtain ⟨life, hcalled, rfl⟩ := Outcome.map_eq_returned hstep
    exact Application.callHandler_preserves hkept heffect hcalled
  | call call =>
    cases hstep
    exact heffect
  | onWrite status =>
    cases hstep
    exact heffect
  | onHeartbeatTimer write =>
    cases hstep
    exact heffect
  | transmit count =>
    cases hstep
    exact heffect

/-- An application that hands every packet to a handler which does nothing. -/
def quiet : Application Unit Unit Unit where
  host := .wide .little
  interceptorManager := .empty
  packetHandlers _ := none
  defaultPacketHandler := some ()
  onPacket _ _ _ := ⟨[], (), none⟩
  closeHandler := none

end Session

end LibuvNet
