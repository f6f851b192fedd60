import LibuvNet.Endpoint.Receive
import LibuvNet.Foundation.Run
import LibuvNet.Session.Lifecycle

/-!
# A server and its sessions

The functions of `server.cpp` that create, serve and forget sessions, together with the callbacks
of the sessions themselves.  Sessions are numbered in the order in which `on_connection` creates
them.  Each has its own tables, in which `on_connection` puts a handler for heartbeats and a
default handler that consults the tables of the server; user code may add to them at any time.

As for a client, user code is the list of calls it makes, a step is a call of the application or a
callback of the loop, and an exception that leaves a callback ends the process.  The world also
keeps a record of what cannot be read off its members any more: which close callbacks have run,
and which handlers of the user were called, in order.
-/

namespace LibuvNet

open Foundation

namespace Server

/-- A call into the handlers the user registered on the server. -/
inductive UserCall (H : Type*) where
  | connect
  | packet (handler : H) (packet : Packet)
  | close
  deriving DecidableEq

/-- A packet handler of a session: one of the two that `on_connection` installs, or a handler of
the user. -/
inductive SessionHandler (H : Type*) where
  | ignoreHeartbeat
  | serverTables
  | user (handler : H)
  deriving DecidableEq

/-- A session with its tables and its receive buffer. -/
structure Slot (V H : Type*) where
  core : Session.Core
  buffer : Bytes
  interceptorManager : InterceptorManager V
  packetHandlers : PacketType → Option (SessionHandler H)

/-- A server, its sessions, the clock and the heap, what user code remembers, and the record of
close callbacks and handler calls. -/
structure World (U V H : Type*) where
  sessions : List ℕ
  created : ℕ
  slot : ℕ → Slot V H
  packetHandlers : PacketType → Option H
  defaultPacketHandler : Option H
  now : ℕ
  heap : Memory UInt8
  memory : U
  closedSessions : List ℕ
  calls : List (ℕ × UserCall H)

variable {U V H : Type*}

/-- A session as `on_connection` sets it up. -/
def Slot.accepted : Slot V H where
  core := .accept
  buffer := []
  interceptorManager := .empty
  packetHandlers type := if type = .heartbeat then some .ignoreHeartbeat else none

namespace World

variable (world : World U V H)

/-- A server that has accepted no connection. -/
def initial (memory : U) : World U V H where
  sessions := []
  created := 0
  slot _ := .accepted
  packetHandlers _ := none
  defaultPacketHandler := none
  now := 0
  heap := ⟨fun _ ↦ [], []⟩
  memory := memory
  closedSessions := []
  calls := []

/-- The calls into the user's handlers for one session. -/
def callsOf (id : ℕ) : List (UserCall H) :=
  world.calls.filterMap fun call ↦ if call.1 = id then some call.2 else none

def setSlot (id : ℕ) (slot : Slot V H) : World U V H :=
  { world with slot := Function.update world.slot id slot }

def setCore (id : ℕ) (core : Session.Core) : World U V H :=
  world.setSlot id { world.slot id with core := core }

/-- `on_connection` creates a session, enters it in `sessions_`, sets its handlers and starts
it. -/
def create (readResult : ℤ) : World U V H :=
  { world with
    created := world.created + 1
    sessions := world.sessions ++ [world.created]
    slot := Function.update world.slot world.created
      { Slot.accepted with core := Session.Core.accept.start world.now readResult } }

/-- The close callback of a session runs, and its close handler takes it out of `sessions_`. -/
def forget (id : ℕ) : World U V H :=
  let core := (world.slot id).core
  { world.setCore id
      { core with socket := { core.socket with closeReqs := core.socket.closeReqs - 1 } } with
    sessions := world.sessions.filter fun other ↦ other ≠ id
    closedSessions := world.closedSessions ++ [id] }

/-- Record a call into the user's handlers. -/
def record (id : ℕ) (call : UserCall H) : World U V H :=
  { world with calls := world.calls ++ [(id, call)] }

/-- `Session::close` of a session. -/
def close (id : ℕ) : World U V H :=
  world.setCore id (world.slot id).core.close

/-- `Session::send` of a session. -/
def send (host : Host) (id : ℕ) (packet : Packet) (write : WriteCall) : World U V H :=
  let sent := (world.slot id).core.send host packet write world.heap
  { world.setCore id sent.2 with heap := sent.1 }

/-- `Server::broadcast`, when nothing else runs meanwhile. -/
def broadcast (host : Host) (packet : Packet) (writes : ℕ → WriteCall) : World U V H :=
  world.sessions.foldl (fun world id ↦ world.send host id packet (writes id)) world

end World

/-- The calls user code makes, with what libuv answers. -/
inductive Call (V H : Type*) where
  | close (id : ℕ)
  | send (id : ℕ) (packet : Packet) (write : WriteCall)
  | start (id : ℕ) (readResult : ℤ)
  | stop (id : ℕ)
  | broadcast (packet : Packet) (writes : ℕ → WriteCall)
  | setPacketHandler (type : PacketType) (handler : H)
  | setDefaultPacketHandler (handler : H)
  | setSessionPacketHandler (id : ℕ) (type : PacketType) (handler : H)
  | addInterceptor (id : ℕ) (interceptor : Interceptor V)

/-- A call by user code, which holds no session that was never created. -/
def Call.run (host : Host) (world : World U V H) : Call V H → World U V H
  | .close id => if id < world.created then world.close id else world
  | .send id packet write =>
    if id < world.created then world.send host id packet write else world
  | .start id readResult =>
    if id < world.created then
      world.setCore id ((world.slot id).core.start world.now readResult)
    else world
  | .stop id =>
    if id < world.created then world.setCore id (world.slot id).core.stop else world
  | .broadcast packet writes => world.broadcast host packet writes
  | .setPacketHandler type handler =>
    { world with packetHandlers := Function.update world.packetHandlers type (some handler) }
  | .setDefaultPacketHandler handler => { world with defaultPacketHandler := some handler }
  | .setSessionPacketHandler id type handler =>
    if id < world.created then
      world.setSlot id { world.slot id with
        packetHandlers :=
          Function.update (world.slot id).packetHandlers type (some (.user handler)) }
    else world
  | .addInterceptor id interceptor =>
    if id < world.created then
      world.setSlot id { world.slot id with
        interceptorManager := (world.slot id).interceptorManager.addInterceptor interceptor }
    else world

/-- What user code does when it is called: the calls it makes, what it remembers, and whether it
ends by an exception. -/
structure Reaction (U V H : Type*) where
  calls : List (Call V H)
  memory : U
  throws : Option Exn

/-- The application around a server.  Its connect handler and its close handler are set before it
listens; it sets packet handlers as it goes. -/
structure Application (U V H : Type*) where
  host : Host
  connectHandler : ℕ → World U V H → Reaction U V H
  closeHandler : ℕ → World U V H → Reaction U V H
  onPacket : H → ℕ → Packet → World U V H → Reaction U V H
  onSessionPacket : H → ℕ → Packet → World U V H → Reaction U V H

namespace Application

variable (app : Application U V H)

def react (reaction : Reaction U V H) (world : World U V H) : Outcome Exn (World U V H) :=
  let world := { reaction.calls.foldl (Call.run app.host) world with memory := reaction.memory }
  match reaction.throws with
  | none => .returned world
  | some error => .threw error world

/-- Call a packet handler of the server. -/
def callPacketHandler (handler : H) (id : ℕ) (packet : Packet) (world : World U V H) :
    Outcome Exn (World U V H) :=
  let world := world.record id (.packet handler packet)
  app.react (app.onPacket handler id packet world) world

/-- The default packet handler that `on_connection` gives a session. -/
def serverTables (id : ℕ) (packet : Packet) (world : World U V H) : Outcome Exn (World U V H) :=
  match world.packetHandlers packet.type with
  | some handler => app.callPacketHandler handler id packet world
  | none =>
    match world.defaultPacketHandler with
    | some handler => app.callPacketHandler handler id packet world
    | none => .returned world

/-- The tables of a session and what its handlers do. -/
def program (id : ℕ) (slot : Slot V H) : Program (World U V H) V (SessionHandler H) where
  interceptorManager := slot.interceptorManager
  packetHandlers := slot.packetHandlers
  defaultPacketHandler := some .serverTables
  heartbeat world :=
    world.setCore id { (world.slot id).core with lastHeartbeatTime := world.now }
  invoke
    | .ignoreHeartbeat, _, world => .returned world
    | .serverTables, packet, world => app.serverTables id packet world
    | .user handler, packet, world => app.react (app.onSessionPacket handler id packet world) world

/-- `Session::handle_packet`, by the tables the session has at that moment. -/
def handlePacket (id : ℕ) (packet : Packet) (endpoint : Endpoint (World U V H) (SessionHandler H)) :
    Outcome Exn (Endpoint (World U V H) (SessionHandler H)) :=
  Session.handlePacket (app.program id (endpoint.state.slot id)) packet endpoint

end Application

/-! ## Callbacks -/

section Callbacks

variable (app : Application U V H)

/-- `Server::on_connection`, given the result of `uv_read_start`. -/
def onConnection (status readResult : ℤ) (world : World U V H) : Outcome Exn (World U V H) :=
  if status < 0 then .returned world
  else
    let id := world.created
    let world := (world.create readResult).record id .connect
    app.react (app.connectHandler id world) world

/-- `Session::on_read`. -/
def onRead (id : ℕ) (nread : ℤ) (base : Bytes) (world : World U V H) :
    Outcome Exn (World U V H) :=
  if nread < 0 then .returned (world.close id)
  else if nread = 0 then .returned world
  else
    (Session.appendToBufferBy app.host (app.handlePacket id) base
      ⟨⟨world, []⟩, (world.slot id).buffer⟩).map fun receiver ↦
        receiver.state.setSlot id { receiver.state.slot id with buffer := receiver.buffer }

/-- `Session::on_close` with the close handler that `on_connection` gives a session. -/
def onClose (id : ℕ) (world : World U V H) : Outcome Exn (World U V H) :=
  let world := (world.forget id).record id .close
  app.react (app.closeHandler id world) world

end Callbacks

/-! ## Steps -/

/-- A call of the application, a callback of the loop, or something outside the server. -/
inductive Event (V H : Type*) where
  | call (call : Call V H)
  | onConnection (status readResult : ℤ)
  | onRead (id : ℕ) (nread : ℤ) (base : Bytes)
  | onWrite (id : ℕ) (status : ℤ)
  | onClose (id : ℕ)
  | onHeartbeatTimer (id : ℕ) (write : WriteCall)
  | transmit (id count : ℕ)
  | elapse (milliseconds : ℕ)

/-- When an event can happen. -/
def Event.Due (world : World U V H) : Event V H → Prop
  | .call _ | .onConnection _ _ | .elapse _ => True
  | .onRead id nread base =>
    id < world.created ∧ (world.slot id).core.socket.reading ∧ (0 < nread → nread = base.length)
  | .onWrite id status =>
    id < world.created ∧ (world.slot id).core.socket.CanReportWrite status
  | .onClose id => id < world.created ∧ 0 < (world.slot id).core.socket.closeReqs
  | .onHeartbeatTimer id _ =>
    id < world.created ∧ (world.slot id).core.heartbeatTimer.active ∧
      (world.slot id).core.heartbeatTimer.due ≤ world.now
  | .transmit id _ => id < world.created ∧ ¬ (world.slot id).core.socket.closing

instance (world : World U V H) (event : Event V H) : Decidable (event.Due world) := by
  unfold Event.Due
  cases event <;> infer_instance

variable (app : Application U V H)

/-- What happens at an event that is due. -/
def handle (event : Event V H) (world : World U V H) : Outcome Exn (World U V H) :=
  match event with
  | .call call => .returned (call.run app.host world)
  | .onConnection status readResult => onConnection app status readResult world
  | .onRead id nread base => onRead app id nread base world
  | .onWrite id status => .returned (world.setCore id ((world.slot id).core.onWrite status))
  | .onClose id => onClose app id world
  | .onHeartbeatTimer id write =>
    let ticked := (world.slot id).core.tick app.host write world.now world.heap
    .returned { world.setCore id ticked.2 with heap := ticked.1 }
  | .transmit id count =>
    let core := (world.slot id).core
    .returned (world.setCore id { core with socket := core.socket.transmit world.heap count })
  | .elapse milliseconds => .returned { world with now := world.now + milliseconds }

/-- One step of a server. -/
def step (world : World U V H) (event : Event V H) : Option (World U V H) :=
  if event.Due world then (handle app event world).returned? else none

end Server

end LibuvNet
