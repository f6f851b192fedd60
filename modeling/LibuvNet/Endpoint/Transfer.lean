import LibuvNet.Client.Lifecycle
import LibuvNet.Session.Lifecycle

/-!
# The bytes on the wire

Both `send` functions hand `uv_write` the address of a local vector.  A write that the transport
takes whole during the call is done before the vector is destroyed; any other is left with the
address of a cell that has no owner and that the next allocation may reuse.  And of a vector of
`2 ^ 32` bytes or more the `uv_buf_t` describes a part only.  So what a connection emits is bound
to be what it was given exactly as long as no write ever waits and none is cut short.
-/

namespace LibuvNet

open Foundation

/-- Every unfinished write finds its packet in place, and what was emitted is a prefix of the
packets accepted so far. -/
def Faithful (heap : Memory UInt8) (socket : UvTcp) : Prop :=
  socket.writer.Intact heap ∧ socket.writer.emitted <+: socket.writer.accepted.flatten

instance (heap : Memory UInt8) (socket : UvTcp) : Decidable (Faithful heap socket) := by
  unfold Faithful Writer.Intact
  infer_instance

/-- What is described of a frame goes on where what was emitted stops: no earlier frame was cut
short, or these bytes are as good as the ones it lost. -/
def Continues (frame : Bytes) (socket : UvTcp) : Prop :=
  socket.writer.emitted ++ uvBufInit frame <+: socket.writer.accepted.flatten ++ frame

instance (frame : Bytes) (socket : UvTcp) : Decidable (Continues frame socket) :=
  inferInstanceAs (Decidable (_ <+: _))

/-- If `uv_write` accepts the packet, no other write waits, the transport takes all that is
described of it during the call, and it goes on where the packets before it stop. -/
def TakenWhole (host : Host) (packet : Packet) (write : WriteCall) (socket : UvTcp) : Prop :=
  write.result = 0 →
    socket.writer.queue = [] ∧
      (uvBufInit (packet.serialize host write.padding)).length ≤ write.taken ∧
        Continues (packet.serialize host write.padding) socket

instance (host : Host) (packet : Packet) (write : WriteCall) (socket : UvTcp) :
    Decidable (TakenWhole host packet write socket) := by
  unfold TakenWhole
  infer_instance

/-- Of a frame that finds no write waiting, and is taken as far as it is described, so much is
emitted. -/
theorem submitted_emitted {socket : UvTcp} {heap : Memory UInt8} {address count : ℕ} {frame : Bytes}
    (hqueue : socket.writer.queue = []) (hlength : (uvBufInit frame).length ≤ count) :
    (socket.writer.submit (heap.allocate address frame) (heap.place address) frame
      (uvBufInit frame).length count).emitted = socket.writer.emitted ++ uvBufInit frame := by
  rw [Writer.submit_emitted hqueue (heap.cell_allocate address frame) (uvBufInit_length_le frame),
    take_uvBufInit_length, List.take_of_length_le hlength]

/-- No write waits, and what was emitted is a prefix of what was given. -/
structure Settled (socket : UvTcp) : Prop where
  queue : socket.writer.queue = []
  front : socket.writer.emitted <+: socket.writer.accepted.flatten

namespace Settled

variable {socket : UvTcp}

theorem faithful (hsettled : Settled socket) (heap : Memory UInt8) : Faithful heap socket := by
  constructor
  · intro write hwrite
    rw [hsettled.queue] at hwrite
    cases hwrite
  · exact hsettled.front

theorem transmit (hsettled : Settled socket) (heap : Memory UInt8) (count : ℕ) :
    Settled (socket.transmit heap count) := by
  have hsame : socket.transmit heap count = socket := by
    rw [UvTcp.transmit, Writer.take, hsettled.queue]
  rwa [hsame]

theorem close (hsettled : Settled socket) (callback : Bool) : Settled (socket.close callback) :=
  ⟨rfl, hsettled.front⟩

theorem reportWrite (hsettled : Settled socket) (status : ℤ) :
    Settled (socket.reportWrite status) := by
  unfold UvTcp.reportWrite
  split
  · split
    · exact ⟨hsettled.queue, hsettled.front⟩
    · refine ⟨?_, hsettled.front⟩
      change socket.writer.queue.tail = []
      rw [hsettled.queue]
      rfl
  · exact ⟨hsettled.queue, hsettled.front⟩

/-- A packet that is taken whole leaves nothing waiting. -/
theorem writeLocal (hsettled : Settled socket) {host : Host} {packet : Packet} {write : WriteCall}
    (heap : Memory UInt8) (hwhole : TakenWhole host packet write socket) :
    Settled (writeLocal host packet write heap socket).2 := by
  by_cases hresult : write.result = 0
  · obtain ⟨hqueue, hlength, hcontinues⟩ := hwhole hresult
    rw [writeLocal_accepted host packet heap socket hresult]
    refine ⟨Writer.submit_whole _ hqueue _ _ hlength, ?_⟩
    rw [submitted_emitted hqueue hlength, Writer.submit_accepted, List.flatten_append,
      List.flatten_singleton]
    exact hcontinues
  · rwa [writeLocal_rejected host packet heap socket hresult]

/-- A packet that is not taken whole is left in a cell without an owner, or is not what the packets
before it let expect. -/
theorem writeLocal_faithful_iff (hsettled : Settled socket) (host : Host) (packet : Packet)
    (write : WriteCall) (heap : Memory UInt8) :
    Faithful (LibuvNet.writeLocal host packet write heap socket).1
        (LibuvNet.writeLocal host packet write heap socket).2 ↔
      TakenWhole host packet write socket := by
  constructor
  · intro hfaithful hresult
    have htaken : socket.writer.queue = [] ∧
        (uvBufInit (packet.serialize host write.padding)).length ≤ write.taken := by
      by_contra hwhole
      obtain ⟨waiting, hwaiting, haddress⟩ := Writer.submit_not_whole hwhole
      have hintact := hfaithful.1
      rw [Writer.Intact, writeLocal_live, writeLocal_accepted host packet heap socket hresult]
        at hintact
      have howned := (hintact waiting hwaiting).1
      rw [haddress] at howned
      exact heap.place_not_mem write.address howned
    obtain ⟨hqueue, hlength⟩ := htaken
    refine ⟨hqueue, hlength, ?_⟩
    have hfront := hfaithful.2
    rw [writeLocal_accepted host packet heap socket hresult, submitted_emitted hqueue hlength,
      Writer.submit_accepted, List.flatten_append, List.flatten_singleton] at hfront
    exact hfront
  · exact fun hwhole ↦ (hsettled.writeLocal heap hwhole).faithful _

end Settled

/-- What can happen to the writes of a connection. -/
inductive Transfer where
  | send (packet : Packet) (write : WriteCall)
  | transmit (count : ℕ)
  | onWrite (status : ℤ)
  deriving DecidableEq

/-- An endpoint as far as its writes are concerned: it hands the packets it may send to
`uv_write`, and whatever else it does leaves a settled connection settled. -/
structure Carrier (σ : Type*) where
  host : Host
  step : σ → Transfer → Option σ
  heap : σ → Memory UInt8
  socket : σ → UvTcp
  MaySend : σ → Prop
  send : ∀ {state next packet write}, step state (.send packet write) = some next →
    MaySend state →
      (heap next, socket next) = writeLocal host packet write (heap state) (socket state)
  refuse : ∀ {state next packet write}, step state (.send packet write) = some next →
    ¬ MaySend state → socket next = socket state
  transmit : ∀ {state next count}, step state (.transmit count) = some next →
    Settled (socket state) → Settled (socket next)
  onWrite : ∀ {state next status}, step state (.onWrite status) = some next →
    Settled (socket state) → Settled (socket next)

namespace Carrier

variable {σ : Type*} (carrier : Carrier σ)

/-- The writes are faithful after the step. -/
def FaithfulAfter (_ : σ) (_ : Transfer) (next : σ) : Prop :=
  Faithful (carrier.heap next) (carrier.socket next)

/-- A packet that may be sent is taken whole. -/
def SendsWhole (state : σ) (transfer : Transfer) (_ : σ) : Prop :=
  match transfer with
  | .send packet write =>
    carrier.MaySend state → TakenWhole carrier.host packet write (carrier.socket state)
  | _ => True

variable {state next : σ} {transfer : Transfer}

theorem settled_step (hsettled : Settled (carrier.socket state))
    (hstep : carrier.step state transfer = some next)
    (hwhole : carrier.SendsWhole state transfer next) : Settled (carrier.socket next) := by
  cases transfer with
  | send packet write =>
    by_cases hmay : carrier.MaySend state
    · have hsent := hsettled.writeLocal (carrier.heap state) (hwhole hmay)
      rw [← carrier.send hstep hmay] at hsent
      exact hsent
    · exact carrier.refuse hstep hmay ▸ hsettled
  | transmit count => exact carrier.transmit hstep hsettled
  | onWrite status => exact carrier.onWrite hstep hsettled

theorem faithfulAfter_iff_sendsWhole (hsettled : Settled (carrier.socket state))
    (hstep : carrier.step state transfer = some next) :
    carrier.FaithfulAfter state transfer next ↔ carrier.SendsWhole state transfer next := by
  constructor
  · cases transfer with
    | send packet write =>
      intro hfaithful hmay
      have hsent := carrier.send hstep hmay
      have hiff := hsettled.writeLocal_faithful_iff carrier.host packet write (carrier.heap state)
      rw [← hsent] at hiff
      exact hiff.mp hfaithful
    | transmit count => exact fun _ ↦ trivial
    | onWrite status => exact fun _ ↦ trivial
  · exact fun hwhole ↦ (carrier.settled_step hsettled hstep hwhole).faithful _

/-- From a settled connection, the writes stay faithful exactly as long as all are taken whole. -/
theorem faithful_along_iff (hsettled : Settled (carrier.socket state))
    (transfers : List Transfer) :
    Along carrier.step carrier.FaithfulAfter transfers state ↔
      Along carrier.step carrier.SendsWhole transfers state := by
  apply Along.congr
  · exact fun _ _ _ _ hsettled hstep ↦ carrier.faithfulAfter_iff_sendsWhole hsettled hstep
  · exact fun _ _ _ _ hsettled hstep hfaithful ↦ carrier.settled_step hsettled hstep
      ((carrier.faithfulAfter_iff_sendsWhole hsettled hstep).mp hfaithful)
  · exact hsettled

end Carrier

namespace Client

variable {U V H : Type*}

/-- The step of a client that a transfer is. -/
def transferEvent : Transfer → Event
  | .send packet write => .call (.send packet write)
  | .transmit count => .transmit count
  | .onWrite status => .onWrite status

def transferStep (app : Application U V H) (client : Receiver (Core U) H) (transfer : Transfer) :
    Option (Receiver (Core U) H) :=
  step app client (transferEvent transfer)

/-- The writes of the client are faithful after the step. -/
def FaithfulAfter (_ : Receiver (Core U) H) (_ : Transfer) (next : Receiver (Core U) H) : Prop :=
  Faithful next.state.heap next.state.socket

/-- A packet that a connected client sends is taken whole. -/
def SendsWhole (host : Host) (client : Receiver (Core U) H) (transfer : Transfer)
    (_ : Receiver (Core U) H) : Prop :=
  match transfer with
  | .send packet write =>
    client.state.isConnected → TakenWhole host packet write client.state.socket
  | _ => True

theorem settled_disconnect {core : Core U} (hsettled : Settled core.socket) :
    Settled core.disconnect.socket := by
  unfold Core.disconnect
  split
  · exact hsettled
  · simp only [Core.stopHeartbeat]
    split
    · exact hsettled.close true
    · exact hsettled

/-- A client carries the packets it sends while it is connected. -/
def carrier (app : Application U V H) : Carrier (Receiver (Core U) H) where
  host := app.host
  step := transferStep app
  heap client := client.state.heap
  socket client := client.state.socket
  MaySend client := client.state.isConnected
  send {client next packet write} hstep hconnected := by
    obtain rfl : { client with state := client.state.send app.host packet write } = next :=
      Option.some.inj hstep
    simp only [Core.send, if_neg (not_not.mpr hconnected)]
  refuse {client next packet write} hstep hconnected := by
    obtain rfl : { client with state := client.state.send app.host packet write } = next :=
      Option.some.inj hstep
    simp only [Core.send, if_pos hconnected]
  transmit {client next count} hstep hsettled := by
    unfold transferStep step at hstep
    split at hstep
    · cases hstep
      exact hsettled.transmit client.state.heap count
    · cases hstep
  onWrite {client next status} hstep hsettled := by
    unfold transferStep step at hstep
    split at hstep
    · cases hstep
      have hreported := hsettled.reportWrite status
      change Settled (client.state.onWrite status).socket
      unfold Core.onWrite
      split
      · exact settled_disconnect hreported
      · exact hreported
    · cases hstep

end Client

namespace Session

/-- A session and the heap its vectors live on. -/
structure Sender where
  core : Core
  heap : Memory UInt8

/-- One transfer of a session. -/
def transferStep (host : Host) (sender : Sender) (transfer : Transfer) : Option Sender :=
  match transfer with
  | .send packet write =>
    let sent := sender.core.send host packet write sender.heap
    some ⟨sent.2, sent.1⟩
  | .transmit count =>
    if sender.core.socket.closing then none
    else
      some { sender with
        core := { sender.core with
          socket := sender.core.socket.transmit sender.heap count } }
  | .onWrite status =>
    if sender.core.socket.CanReportWrite status then
      some { sender with core := sender.core.onWrite status }
    else none

/-- The writes of the session are faithful after the step. -/
def FaithfulAfter (_ : Sender) (_ : Transfer) (next : Sender) : Prop :=
  Faithful next.heap next.core.socket

/-- A packet that an open session sends is taken whole. -/
def SendsWhole (host : Host) (sender : Sender) (transfer : Transfer) (_ : Sender) : Prop :=
  match transfer with
  | .send packet write => ¬ sender.core.isClosing → TakenWhole host packet write sender.core.socket
  | _ => True

theorem settled_close {core : Core} (hsettled : Settled core.socket) :
    Settled core.close.socket := by
  unfold Core.close
  split
  · exact hsettled.close true
  · exact hsettled

/-- A session carries the packets it sends until it is closing. -/
def carrier (host : Host) : Carrier Sender where
  host := host
  step := transferStep host
  heap sender := sender.heap
  socket sender := sender.core.socket
  MaySend sender := ¬ sender.core.isClosing
  send {sender next packet write} hstep hopen := by
    cases hstep
    simp only [Core.send, if_neg hopen]
  refuse {sender next packet write} hstep hopen := by
    cases hstep
    simp only [Core.send, if_pos (not_not.mp hopen)]
  transmit {sender next count} hstep hsettled := by
    simp only [transferStep] at hstep
    split at hstep
    · cases hstep
    · cases hstep
      exact hsettled.transmit sender.heap count
  onWrite {sender next status} hstep hsettled := by
    simp only [transferStep] at hstep
    split at hstep
    · cases hstep
      have hreported := hsettled.reportWrite status
      change Settled (sender.core.onWrite status).socket
      unfold Core.onWrite
      split
      · exact settled_close hreported
      · exact hreported
    · cases hstep

end Session

/-- A connected client that has sent nothing. -/
def connectedClient : Receiver (Client.Core Unit) Unit where
  state := { Client.Core.initial false false () with
    loopThread := true
    socket := (UvTcp.raw false false).init
    isConnected := true }
  trace := []
  buffer := []

/-- An open session that has sent nothing. -/
def openSession : Session.Sender where
  core := .accept
  heap := ⟨fun _ ↦ [], []⟩

/-- Two packets from vectors at one address, the first of which the transport takes in two parts
with the second in between. -/
def twoPackets (takenAtOnce : ℕ) : List Transfer :=
  [.send ⟨.text, [104, 105], 7⟩ ⟨0, ⟨0, 0⟩, 0, takenAtOnce⟩,
    .send ⟨.text, [98, 121, 101], 8⟩ ⟨0, ⟨0, 0⟩, 0, 15⟩, .transmit 14]

end LibuvNet
