import LibuvNet.Client.Handling
import LibuvNet.Foundation.Mailbox

/-!
# A server and its clients

A server together with the clients that are connected to it, and the network in between.  The
client of a connection carries the number of the session at the other end; it is there from the
moment its `on_connect` has reported success, which may be before or after the server accepts the
connection, and it belongs to the connection until it starts its socket over.  As in the runs of
one client the calls of its handlers are events; the server has the handlers of an application.

The network keeps what the transports have emitted and hands it over in order, in chunks of any
size.  What each end has received and handled is noted beside it.
-/

namespace LibuvNet

open Foundation

namespace Client

/-- A client whose `on_connect` has just reported success, and whose buffer is empty. -/
structure WithBuffer.Joining (client : WithBuffer) : Prop where
  isConnected : client.core.isConnected = true
  closing : client.core.socket.closing = false
  accepted : client.core.socket.writer.accepted = []
  emitted : client.core.socket.writer.emitted = []
  queue : client.core.socket.writer.queue = []
  buffer : client.buffer = []

instance (client : WithBuffer) : Decidable client.Joining :=
  decidable_of_iff
    (client.core.isConnected = true ∧ client.core.socket.closing = false ∧
      client.core.socket.writer.accepted = [] ∧ client.core.socket.writer.emitted = [] ∧
      client.core.socket.writer.queue = [] ∧ client.buffer = [])
    ⟨fun ⟨hconnected, hclosing, haccepted, hemitted, hqueue, hbuffer⟩ ↦
      ⟨hconnected, hclosing, haccepted, hemitted, hqueue, hbuffer⟩,
    fun ⟨hconnected, hclosing, haccepted, hemitted, hqueue, hbuffer⟩ ↦
      ⟨hconnected, hclosing, haccepted, hemitted, hqueue, hbuffer⟩⟩

end Client

/-- A client that has started its loop, and connected. -/
def Client.Core.arrived {W : Type*} (memory : W) : Client.Core W :=
  [Client.Event.start, .call (.connect 0 0), .onConnect 0 0].foldl
    (fun core event ↦ event.effect (.wide .little) core) (.initial false false memory)

/-- One direction of a connection, at its receiving end: how many bytes have been received, and
which packets were taken out of them. -/
structure Ear where
  received : ℕ
  heard : List Packet
  deriving DecidableEq

namespace Ear

/-- Nothing has been received. -/
def silent : Ear := ⟨0, []⟩

/-- A chunk arrives behind what the buffer holds. -/
def hear (host : Host) (buffer chunk : Bytes) (ear : Ear) : Ear where
  received := ear.received + chunk.length
  heard := ear.heard ++ ((wireDecoder host).parse (buffer ++ chunk)).values

/-- The chunk is what comes next of the bytes the socket has emitted. -/
def Arrives (socket : UvTcp) (chunk : Bytes) (ear : Ear) : Prop :=
  chunk <+: socket.writer.emitted.drop ear.received

instance (socket : UvTcp) (chunk : Bytes) (ear : Ear) : Decidable (ear.Arrives socket chunk) :=
  inferInstanceAs (Decidable (chunk <+: _))

end Ear

/-- A server, the client of each connection, and both directions of it. -/
structure Network (U V H : Type*) where
  world : Server.World U V H
  client : ℕ → Option Client.WithBuffer
  upward : ℕ → Ear
  downward : ℕ → Ear

namespace Network

variable {U V H : Type*}

/-- A client joins, something happens to a client, or to the server. -/
inductive Event (V H : Type*) where
  | join (id : ℕ) (client : Client.WithBuffer)
  | client (id : ℕ) (event : Client.Event)
  | server (event : Server.Event V H)

/-- A server that has accepted no connection, and no client. -/
def initial (memory : U) : Network U V H where
  world := .initial memory
  client _ := none
  upward _ := .silent
  downward _ := .silent

variable (network : Network U V H)

def setClient (id : ℕ) (client : Client.WithBuffer) : Network U V H :=
  { network with client := Function.update network.client id (some client) }

/-- The socket at the client's end of a connection; nothing is written before the client joins. -/
def clientSocket (id : ℕ) : UvTcp :=
  match network.client id with
  | none => Session.Core.accept.socket
  | some client => client.core.socket

/-- The receive buffer of the client of a connection. -/
def clientBuffer (id : ℕ) : Bytes :=
  match network.client id with
  | none => []
  | some client => client.buffer

@[simp]
theorem client_setClient (id : ℕ) (client : Client.WithBuffer) :
    (network.setClient id client).client id = some client :=
  Function.update_self ..

theorem clientSocket_of_some {id : ℕ} {client : Client.WithBuffer}
    (hclient : network.client id = some client) :
    network.clientSocket id = client.core.socket := by
  rw [clientSocket, hclient]

theorem clientBuffer_of_some {id : ℕ} {client : Client.WithBuffer}
    (hclient : network.client id = some client) : network.clientBuffer id = client.buffer := by
  rw [clientBuffer, hclient]

@[simp]
theorem clientSocket_setClient (id : ℕ) (client : Client.WithBuffer) :
    (network.setClient id client).clientSocket id = client.core.socket :=
  clientSocket_of_some _ (network.client_setClient id client)

@[simp]
theorem clientBuffer_setClient (id : ℕ) (client : Client.WithBuffer) :
    (network.setClient id client).clientBuffer id = client.buffer :=
  clientBuffer_of_some _ (network.client_setClient id client)

/-- The other connections keep their clients. -/
theorem client_setClient_of_ne {id other : ℕ} (hne : other ≠ id) (client : Client.WithBuffer) :
    (network.setClient id client).client other = network.client other :=
  Function.update_of_ne hne ..

/-- A client whose socket belongs to the connection takes a step.  What it reads is what the
session has emitted. -/
def stepClient (host : Host) (id : ℕ) (event : Client.Event) (client : Client.WithBuffer) :
    Option (Network U V H) :=
  if event.Restarts client.core then none
  else
    match event.received? with
    | none =>
      (Client.Core.step host client.core event).map fun core ↦
        network.setClient id ⟨core, client.buffer⟩
    | some chunk =>
      if (network.downward id).Arrives (network.world.standing id) chunk then
        (Client.Core.step host client.core event).map fun core ↦
          { network.setClient id ⟨core, (wireDecoder host).kept (client.buffer ++ chunk)⟩ with
            downward := Function.update network.downward id
              ((network.downward id).hear host client.buffer chunk) }
      else none

/-- The server takes a step.  What a session reads is what its client has emitted. -/
def stepServer (app : Server.Application U V H) (event : Server.Event V H) :
    Option (Network U V H) :=
  match event.received? with
  | none => (Server.step app network.world event).map fun world ↦ { network with world := world }
  | some (id, chunk) =>
    if (network.upward id).Arrives (network.clientSocket id) chunk then
      (Server.step app network.world event).map fun world ↦
        { network with
          world := world
          upward := Function.update network.upward id
            ((network.upward id).hear app.host (network.world.bufferOf id) chunk) }
    else none

/-- One step of the network. -/
def step (app : Server.Application U V H) (network : Network U V H) :
    Event V H → Option (Network U V H)
  | .join id client =>
    if network.client id = none ∧ client.Joining then some (network.setClient id client) else none
  | .client id event => (network.client id).bind (network.stepClient app.host id event)
  | .server event => network.stepServer app event

end Network

end LibuvNet
