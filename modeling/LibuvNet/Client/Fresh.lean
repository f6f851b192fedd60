import LibuvNet.Client.Calls
import LibuvNet.Foundation.TwoRuns

/-!
# Clients on different memory

The constructor of a client initialises everything but `socket_`, and `init_socket` asks libuv
whether that memory is active before it initialises it.  Memory that looks active and closing has
every call of `connect` refused.  Memory that looks active and not closing is passed to `uv_close`
at the first call, although it is no handle: nothing can be said of what that does, and a run that
comes to it is no good one.

Here two clients on different memory are sent through the same calls and the same results of libuv;
what is compared is what their callers and handlers can tell.  The calls that handlers make are
events of their own; a handler that throws ends the process, and the run.
-/

namespace LibuvNet

open Foundation

namespace Client

variable {U V H : Type*}

/-- A call of a handler. -/
inductive Invocation (H : Type*) where
  | connect
  | disconnect
  | packet (handler : H) (packet : Packet)
  deriving DecidableEq

/-- What can be told of one event: what the call returned, the flags after it, and the handlers
that were called. -/
structure Seen (H : Type*) where
  returned : Option Bool
  isConnected : Bool
  isConnecting : Bool
  invocations : List (Invocation H)
  deriving DecidableEq

/-- A client and its receive buffer. -/
structure WithBuffer where
  core : Core Unit
  buffer : Bytes

/-- What a call returns. -/
def Event.returned (core : Core U) : Event → Option Bool
  | .start => some core.start.1
  | .call (.connect initResult connectResult) => some (core.connect initResult connectResult).1
  | _ => none

/-- The handlers an event calls. -/
def Event.invocations (app : Application U V H) (buffer : Bytes) : Event → List (Invocation H)
  | .onConnect status readResult =>
    if status < 0 ∨ readResult ≠ 0 ∨ app.connectHandler.isNone then [] else [.connect]
  | .onClose => if app.disconnectHandler.isNone then [] else [.disconnect]
  | .onRead nread base =>
    if nread ≤ 0 then []
    else
      ((wireDecoder app.host).parse (buffer ++ base)).values.flatMap fun packet ↦
        (Obs.invocations (emits app.program packet)).map fun call ↦ .packet call.1 call.2
  | _ => []

/-- What an event leaves in the receive buffer. -/
def Event.buffered (host : Host) (buffer : Bytes) : Event → Bytes
  | .onRead nread base =>
    if nread ≤ 0 then buffer else (wireDecoder host).kept (buffer ++ base)
  | _ => buffer

/-- Calls return the same to clients that agree on the thread and on the calls of `connect`. -/
theorem returned_eq {core other : Core U} {event : Event}
    (hthread : core.loopThread = other.loopThread)
    (hconnect : ∀ initResult connectResult, event = .call (.connect initResult connectResult) →
      (core.connect initResult connectResult).1 = (other.connect initResult connectResult).1) :
    event.returned core = event.returned other := by
  cases event with
  | start =>
    unfold Event.returned Core.start
    rw [hthread]
    split_ifs <;> rfl
  | call call =>
    cases call with
    | connect initResult connectResult =>
      exact congrArg some (hconnect initResult connectResult rfl)
    | disconnect | send => rfl
  | stop | onConnect | onClose | onRead | onWrite | onHeartbeatTimer | transmit | elapse => rfl

namespace WithBuffer

/-- A client that has just been constructed on memory with this content. -/
def fresh (active closing : Bool) : WithBuffer := ⟨.initial active closing (), []⟩

variable (app : Application U V H)

def step (client : WithBuffer) (event : Event) : Option WithBuffer :=
  (Core.step app.host client.core event).map fun core ↦
    ⟨core, event.buffered app.host client.buffer⟩

def see (before : WithBuffer) (event : Event) (after : WithBuffer) : Seen H where
  returned := event.returned before.core
  isConnected := after.core.isConnected
  isConnecting := after.core.isConnecting
  invocations := event.invocations app before.buffer

variable {app} in
theorem step_eq_some {client next : WithBuffer} {event : Event} :
    step app client event = some next ↔ event.Due client.core ∧
      next = ⟨event.effect app.host client.core, event.buffered app.host client.buffer⟩ := by
  unfold step Core.step
  by_cases hdue : event.Due client.core
  · rw [if_pos hdue]
    simp [hdue, eq_comm]
  · rw [if_neg hdue]
    simp [hdue]

/-- The socket is passed to `uv_close` and has never been initialised. -/
def ClosesRaw (before : WithBuffer) (_ : Event) (after : WithBuffer) : Prop :=
  before.core.socket.initialised = false ∧
    before.core.socket.closeCalls < after.core.socket.closeCalls

/-- Two clients go through the same events without closing what is no handle, and look the same. -/
def BehaveAlike : List Event → WithBuffer → WithBuffer → Prop :=
  SideBySide (step app) (see app) fun before event after ↦ ¬ ClosesRaw before event after

end WithBuffer

/-! ## Once the socket is initialised -/

namespace Core

variable {core next : Core U}

theorem initialised_same (hinit : core.socket.initialised = true)
    (hsame : SameConnection core next) : next.socket.initialised = true := by
  obtain ⟨-, -, canceledWrites, writer, hsocket⟩ := hsame
  rw [hsocket]
  exact hinit

theorem initialised_disconnect (hinit : core.socket.initialised = true) :
    core.disconnect.socket.initialised = true := by
  unfold disconnect
  split_ifs <;> exact hinit

/-- An initialised socket stays one. -/
theorem initialised_step {host : Host} {event : Event}
    (hstep : step host core event = some next) (hinit : core.socket.initialised = true) :
    next.socket.initialised = true := by
  obtain ⟨-, rfl⟩ := step_eq_some.mp hstep
  by_cases hevent : event.TurnsConnection
  · cases event with
    | call call =>
      cases call with
      | connect initResult connectResult =>
        simp only [Event.effect, Call.run]
        rcases core.connect_cases initResult connectResult with heq | ⟨-, heq | heq | heq⟩ <;>
          rw [heq]
        · exact hinit
        · exact hinit
        · rfl
        · rfl
      | disconnect => cases hevent
      | send packet write => cases hevent
    | onConnect status readResult =>
      simp only [Event.effect]
      split_ifs
      · exact hinit
      · exact initialised_disconnect hinit
      · exact hinit
    | onClose => exact hinit
    | _ => cases hevent
  · exact effect_keeps initialised_same initialised_disconnect host hevent hinit

end Core

/-- From then on nothing but a handle is closed, and equal clients behave alike. -/
theorem WithBuffer.behaveAlike_self {app : Application U V H} {client last : WithBuffer}
    {events : List Event} (hinit : client.core.socket.initialised = true)
    (hrun : runFrom (step app) events client = some last) :
    BehaveAlike app events client client := by
  refine SideBySide.refl (Along.of_invariant (fun client ↦ client.core.socket.initialised = true)
    (fun hinit hstep ↦ ?_) hinit hrun)
  obtain ⟨core, hcore, rfl⟩ := Option.map_eq_some_iff.mp hstep
  exact ⟨Core.initialised_step hcore hinit, fun hraw ↦
    Bool.noConfusion (hinit.symm.trans hraw.1)⟩

/-! ## Before that -/

/-- No call has used the socket, though it may have been initialised. -/
structure Untouched (socket : UvTcp) : Prop where
  inactive : socket.initialised = true → socket.active = false
  reading : socket.reading = false
  connectReqs : socket.connectReqs = 0
  closeCalls : socket.closeCalls = 0
  closeReqs : socket.closeReqs = 0
  canceledWrites : socket.canceledWrites = 0
  writer : socket.writer = .idle

namespace Untouched

variable {socket : UvTcp}

theorem init (huntouched : Untouched socket) : Untouched socket.init where
  inactive := fun _ ↦ rfl
  reading := rfl
  connectReqs := huntouched.connectReqs
  closeCalls := huntouched.closeCalls
  closeReqs := huntouched.closeReqs
  canceledWrites := huntouched.canceledWrites
  writer := by
    unfold UvTcp.init
    rw [huntouched.writer, Writer.idle]

/-- Started over, it is like any other. -/
theorem init_connect (huntouched : Untouched socket) :
    socket.init.connect = (UvTcp.raw false false).init.connect := by
  simp only [UvTcp.connect, UvTcp.init, UvTcp.raw, huntouched.connectReqs, huntouched.closeCalls,
    huntouched.closeReqs, huntouched.canceledWrites, huntouched.writer]

end Untouched

/-- The memory looks active and not closing. -/
def LooksOpen (socket : UvTcp) : Prop := socket.active = true ∧ socket.closing = false

/-- The client has never tried to connect, or never got as far as an attempt. -/
structure Unopened (core : Core U) : Prop where
  isConnected : core.isConnected = false
  isConnecting : core.isConnecting = false
  heartbeatTimer : core.heartbeatTimer.active = false
  socket : Untouched core.socket

/-- The client without what its memory decides. -/
def Core.eraseSocket (core : Core U) : Core U := { core with socket := .raw false false }

theorem unopened_initial (active closing : Bool) (memory : U) :
    Unopened (Core.initial active closing memory) :=
  ⟨rfl, rfl, rfl, ⟨Bool.noConfusion, rfl, rfl, rfl, rfl, rfl, rfl⟩⟩

/-- The change does not depend on the memory, and leaves it alone. -/
structure LeavesMemory (change : Core U → Core U) (core : Core U) : Prop where
  unopened : Unopened (change core)
  socket : (change core).socket = core.socket
  eraseSocket : (change core).eraseSocket = change core.eraseSocket

/-- So does one that is none. -/
theorem LeavesMemory.of_eq {change : Core U → Core U} {core : Core U} (hunopened : Unopened core)
    (hchange : change core = core) (herased : change core.eraseSocket = core.eraseSocket) :
    LeavesMemory change core where
  unopened := hchange.symm ▸ hunopened
  socket := congrArg Core.socket hchange
  eraseSocket := (congrArg Core.eraseSocket hchange).trans herased.symm

namespace Unopened

variable {core : Core U}

theorem eraseSocket (hunopened : Unopened core) : Unopened core.eraseSocket :=
  ⟨hunopened.isConnected, hunopened.isConnecting, hunopened.heartbeatTimer,
    ⟨Bool.noConfusion, rfl, rfl, rfl, rfl, rfl, rfl⟩⟩

theorem disconnect (hunopened : Unopened core) : core.disconnect = core := by
  unfold Core.disconnect
  rw [if_pos ⟨Bool.not_eq_true _ ▸ hunopened.isConnected,
    Bool.not_eq_true _ ▸ hunopened.isConnecting⟩]

theorem send (hunopened : Unopened core) (host : Host) (packet : Packet) (write : WriteCall) :
    core.send host packet write = core := by
  unfold Core.send
  rw [if_pos (Bool.not_eq_true _ ▸ hunopened.isConnected)]

theorem transmit (hunopened : Unopened core) (count : ℕ) :
    { core with socket := core.socket.transmit core.heap count } = core := by
  have hidle : core.socket.writer.take core.heap count = core.socket.writer := by
    rw [hunopened.socket.writer]
    rfl
  exact congrArg (fun writer ↦ { core with socket := { core.socket with writer := writer } }) hidle

theorem not_canReportWrite (hunopened : Unopened core) (status : ℤ) :
    ¬ core.socket.CanReportWrite status := by
  unfold UvTcp.CanReportWrite
  rw [hunopened.socket.writer, hunopened.socket.canceledWrites]
  split_ifs <;> simp [Writer.idle]

theorem start (hunopened : Unopened core) : LeavesMemory (fun core ↦ core.start.2) core := by
  unfold Core.start
  by_cases hthread : core.loopThread
  · exact .of_eq hunopened (congrArg Prod.snd (if_pos hthread)) (congrArg Prod.snd (if_pos hthread))
  · have hstarted : Unopened { core with loopThread := true } :=
      ⟨hunopened.isConnected, hunopened.isConnecting, hunopened.heartbeatTimer, hunopened.socket⟩
    have herased : ¬ core.eraseSocket.loopThread := hthread
    constructor
    · rw [if_neg hthread]
      exact hstarted
    · rw [if_neg hthread]
    · rw [if_neg hthread, if_neg herased]
      rfl

theorem stop (hunopened : Unopened core) : LeavesMemory Core.stop core := by
  by_cases hthread : core.loopThread
  · have hstop (core : Core U) (hthread : core.loopThread) :
        core.stop = { core with loopThread := false }.stopHeartbeat := if_neg (not_not.mpr hthread)
    have hstopped : Unopened { core with loopThread := false }.stopHeartbeat :=
      ⟨hunopened.isConnected, hunopened.isConnecting, rfl, hunopened.socket⟩
    have herased : core.eraseSocket.loopThread := hthread
    constructor
    · rw [hstop core hthread]
      exact hstopped
    · rw [hstop core hthread]
      rfl
    · rw [hstop core hthread, hstop core.eraseSocket herased]
      rfl
  · exact .of_eq hunopened (if_pos hthread) (if_pos hthread)

/-- An event other than a call of `connect` does not look at the memory, and leaves it alone. -/
theorem effect (hunopened : Unopened core) (host : Host) {event : Event} (hdue : event.Due core)
    (hconnect : ∀ initResult connectResult, event ≠ .call (.connect initResult connectResult)) :
    LeavesMemory (fun core ↦ event.effect host core) core := by
  cases event with
  | start => exact hunopened.start
  | stop => exact hunopened.stop
  | call call =>
    cases call with
    | connect initResult connectResult => exact absurd rfl (hconnect initResult connectResult)
    | disconnect => exact .of_eq hunopened hunopened.disconnect hunopened.eraseSocket.disconnect
    | send packet write =>
      exact .of_eq hunopened (hunopened.send host packet write)
        (hunopened.eraseSocket.send host packet write)
  | onConnect status readResult =>
    exact absurd hdue.2.1 (by rw [hunopened.socket.connectReqs]; exact lt_irrefl 0)
  | onClose => exact absurd hdue.2 (by rw [hunopened.socket.closeReqs]; exact lt_irrefl 0)
  | onRead nread base =>
    exact absurd hdue.2.1 (by rw [hunopened.socket.reading]; exact Bool.false_ne_true)
  | onWrite status => exact absurd hdue.2 (hunopened.not_canReportWrite status)
  | onHeartbeatTimer write =>
    exact absurd hdue.2.1 (by rw [hunopened.heartbeatTimer]; exact Bool.false_ne_true)
  | transmit count =>
    exact .of_eq hunopened (hunopened.transmit count) (hunopened.eraseSocket.transmit count)
  | elapse milliseconds =>
    exact ⟨⟨hunopened.isConnected, hunopened.isConnecting, hunopened.heartbeatTimer,
      hunopened.socket⟩, rfl, rfl⟩

theorem connect_eq (hunopened : Unopened core) (initResult connectResult : ℤ) :
    core.connect initResult connectResult =
      if core.socket.active then
        if ¬ core.socket.closing then (false, { core with socket := core.socket.close false })
        else (false, core)
      else if initResult ≠ 0 then (false, core)
      else if connectResult ≠ 0 then
        (false, { core with socket := core.socket.init, isConnecting := false })
      else (true, { core with socket := core.socket.init.connect, isConnecting := true }) := by
  unfold Core.connect Core.initSocket
  rw [hunopened.isConnected, hunopened.isConnecting,
    if_neg (show ¬ (false = true ∨ false = true) by decide)]
  split_ifs <;> rfl

/-- A call of `connect` goes ahead on memory that does not look active, if libuv agrees twice. -/
theorem connect_fst (hunopened : Unopened core) (initResult connectResult : ℤ) :
    (core.connect initResult connectResult).1 = true ↔
      core.socket.active = false ∧ initResult = 0 ∧ connectResult = 0 := by
  rw [hunopened.connect_eq]
  split_ifs <;> simp_all

/-- A call with which libuv would agree is refused on memory that looks active only. -/
theorem active_of_refused (hunopened : Unopened core)
    (hrefused : (core.connect 0 0).1 = false) : core.socket.active = true := by
  by_contra hinactive
  have hadmitted : (core.connect 0 0).1 = true :=
    (hunopened.connect_fst 0 0).mpr ⟨Bool.eq_false_of_not_eq_true hinactive, rfl, rfl⟩
  exact Bool.noConfusion (hrefused.symm.trans hadmitted)

/-- It closes memory that looks open, and nothing else. -/
theorem connect_closes_iff (hunopened : Unopened core) (initResult connectResult : ℤ) :
    core.socket.initialised = false ∧
        core.socket.closeCalls < (core.connect initResult connectResult).2.socket.closeCalls ↔
      LooksOpen core.socket := by
  rw [hunopened.connect_eq]
  split_ifs with hactive hclosing hinit hconnect
  · exact iff_of_false (fun hcloses ↦ lt_irrefl _ hcloses.2) fun hopen ↦
      Bool.noConfusion (hclosing.symm.trans hopen.2)
  · have hraw : core.socket.initialised = false := by
      by_contra hinitialised
      have hinactive := hunopened.socket.inactive (Bool.eq_true_of_not_eq_false hinitialised)
      exact Bool.noConfusion (hactive.symm.trans hinactive)
    exact iff_of_true ⟨hraw, Nat.lt_succ_self _⟩ ⟨hactive, Bool.eq_false_of_not_eq_true hclosing⟩
  all_goals exact iff_of_false (fun hcloses ↦ lt_irrefl _ hcloses.2) fun hopen ↦ hactive hopen.1

/-- A call that does not go ahead, and closes nothing, leaves the next one to the same memory. -/
theorem connect_refused (hunopened : Unopened core) (hsafe : ¬ LooksOpen core.socket)
    {initResult connectResult : ℤ}
    (hrefused : (core.connect initResult connectResult).1 = false) :
    Unopened (core.connect initResult connectResult).2 ∧
      (core.connect initResult connectResult).2.eraseSocket = core.eraseSocket ∧
      (core.connect initResult connectResult).2.socket.active = core.socket.active ∧
      ¬ LooksOpen (core.connect initResult connectResult).2.socket := by
  rw [hunopened.connect_eq] at hrefused ⊢
  split_ifs at hrefused ⊢ with hactive hclosing hinit hconnect
  · exact ⟨hunopened, rfl, rfl, hsafe⟩
  · exact absurd ⟨hactive, Bool.eq_false_of_not_eq_true hclosing⟩ hsafe
  · exact ⟨hunopened, rfl, rfl, hsafe⟩
  · refine ⟨⟨hunopened.isConnected, rfl, hunopened.heartbeatTimer, hunopened.socket.init⟩, ?_,
      (Bool.eq_false_of_not_eq_true hactive).symm, fun hopen ↦ Bool.noConfusion hopen.1⟩
    simp only [Core.eraseSocket, hunopened.isConnecting]

/-- One that does starts the socket over, and the memory is not looked at any more. -/
theorem connect_admitted (hunopened : Unopened core) (hinactive : core.socket.active = false) :
    (core.connect 0 0).2 = { core.eraseSocket with
      socket := (UvTcp.raw false false).init.connect, isConnecting := true } := by
  rw [hunopened.connect_eq, if_neg (by simp [hinactive]), if_neg (not_not.mpr rfl),
    if_neg (not_not.mpr rfl), hunopened.socket.init_connect]
  rfl

theorem closesRaw_connect_iff {app : Application U V H} {client next : WithBuffer}
    (hunopened : Unopened client.core) {initResult connectResult : ℤ}
    (hstep : WithBuffer.step app client (.call (.connect initResult connectResult)) = some next) :
    WithBuffer.ClosesRaw client (.call (.connect initResult connectResult)) next ↔
      LooksOpen client.core.socket := by
  obtain ⟨-, rfl⟩ := WithBuffer.step_eq_some.mp hstep
  exact hunopened.connect_closes_iff initResult connectResult

end Unopened

/-! ## Two memories -/

/-- Unopened clients that differ in their memory only. -/
structure Twins (first second : WithBuffer) : Prop where
  unopened : Unopened first.core
  unopened' : Unopened second.core
  eraseSocket : first.core.eraseSocket = second.core.eraseSocket
  buffer : first.buffer = second.buffer

theorem twins_fresh (active closing active' closing' : Bool) :
    Twins (.fresh active closing) (.fresh active' closing') :=
  ⟨unopened_initial active closing (), unopened_initial active' closing' (), rfl, rfl⟩

/-- What libuv has for the calls of `connect`, in order. -/
def connects (events : List Event) : List (ℤ × ℤ) :=
  events.filterMap fun
    | .call (.connect initResult connectResult) => some (initResult, connectResult)
    | _ => none

/-- If `connect` is called, neither memory looks open; and if libuv would let a call succeed, both
look active or neither does. -/
def AdmitAlike (first second : UvTcp) (events : List Event) : Prop :=
  connects events ≠ [] → ¬ LooksOpen first ∧ ¬ LooksOpen second ∧
    ((0, 0) ∈ connects events → first.active = second.active)

theorem connects_cons_connect (initResult connectResult : ℤ) (events : List Event) :
    connects (.call (.connect initResult connectResult) :: events) =
      (initResult, connectResult) :: connects events := rfl

theorem connects_cons {event : Event} (events : List Event)
    (hconnect : ∀ initResult connectResult, event ≠ .call (.connect initResult connectResult)) :
    connects (event :: events) = connects events := by
  cases event with
  | call call =>
    cases call with
    | connect initResult connectResult => exact absurd rfl (hconnect initResult connectResult)
    | disconnect | send => rfl
  | start | stop | onConnect | onClose | onRead | onWrite | onHeartbeatTimer | transmit
    | elapse => rfl

namespace Twins

variable {app : Application U V H} {first second : WithBuffer}

theorem loopThread (htwins : Twins first second) :
    first.core.loopThread = second.core.loopThread := by
  change first.core.eraseSocket.loopThread = second.core.eraseSocket.loopThread
  rw [htwins.eraseSocket]

/-- Twins look the same at an event after which both are unopened, but for what it returns. -/
theorem see_eq_iff (htwins : Twins first second) {next other : WithBuffer} (event : Event)
    (hnext : Unopened next.core) (hother : Unopened other.core) :
    WithBuffer.see app first event next = WithBuffer.see app second event other ↔
      event.returned first.core = event.returned second.core := by
  unfold WithBuffer.see
  rw [Seen.mk.injEq, hnext.isConnected, hnext.isConnecting, hother.isConnected,
    hother.isConnecting, htwins.buffer]
  simp

/-- Twins stay twins at an event other than a call of `connect`, and look the same. -/
theorem step (htwins : Twins first second) {next other : WithBuffer} {event : Event}
    (hconnect : ∀ initResult connectResult, event ≠ .call (.connect initResult connectResult))
    (hfirst : WithBuffer.step app first event = some next)
    (hsecond : WithBuffer.step app second event = some other) :
    WithBuffer.see app first event next = WithBuffer.see app second event other ∧
      Twins next other ∧ next.core.socket = first.core.socket ∧
        other.core.socket = second.core.socket := by
  obtain ⟨hdue, rfl⟩ := WithBuffer.step_eq_some.mp hfirst
  obtain ⟨hdue', rfl⟩ := WithBuffer.step_eq_some.mp hsecond
  obtain ⟨hnext, hsocket, herased⟩ := htwins.unopened.effect app.host hdue hconnect
  obtain ⟨hother, hsocket', herased'⟩ := htwins.unopened'.effect app.host hdue' hconnect
  refine ⟨(htwins.see_eq_iff event hnext hother).mpr ?_, ⟨hnext, hother, ?_, ?_⟩, hsocket, hsocket'⟩
  · exact returned_eq htwins.loopThread fun initResult connectResult heq ↦
      absurd heq (hconnect initResult connectResult)
  · calc (event.effect app.host first.core).eraseSocket
        = event.effect app.host first.core.eraseSocket := herased
      _ = event.effect app.host second.core.eraseSocket := by rw [htwins.eraseSocket]
      _ = (event.effect app.host second.core).eraseSocket := herased'.symm
  · change event.buffered app.host first.buffer = event.buffered app.host second.buffer
    rw [htwins.buffer]

/-- Twins stay twins at a call of `connect` that both refuse, and look the same. -/
theorem step_refused (htwins : Twins first second) {next other : WithBuffer}
    {initResult connectResult : ℤ} (hsafe : ¬ LooksOpen first.core.socket)
    (hsafe' : ¬ LooksOpen second.core.socket)
    (hrefused : (first.core.connect initResult connectResult).1 = false)
    (hrefused' : (second.core.connect initResult connectResult).1 = false)
    (hfirst : WithBuffer.step app first (.call (.connect initResult connectResult)) = some next)
    (hsecond :
      WithBuffer.step app second (.call (.connect initResult connectResult)) = some other) :
    WithBuffer.see app first (.call (.connect initResult connectResult)) next =
        WithBuffer.see app second (.call (.connect initResult connectResult)) other ∧
      Twins next other ∧
      (next.core.socket.active = first.core.socket.active ∧ ¬ LooksOpen next.core.socket) ∧
      other.core.socket.active = second.core.socket.active ∧ ¬ LooksOpen other.core.socket := by
  obtain ⟨-, rfl⟩ := WithBuffer.step_eq_some.mp hfirst
  obtain ⟨-, rfl⟩ := WithBuffer.step_eq_some.mp hsecond
  obtain ⟨hnext, herased, hlooks⟩ := htwins.unopened.connect_refused hsafe hrefused
  obtain ⟨hother, herased', hlooks'⟩ := htwins.unopened'.connect_refused hsafe' hrefused'
  refine ⟨(htwins.see_eq_iff _ hnext hother).mpr ?_, ⟨hnext, hother, ?_, htwins.buffer⟩, hlooks,
    hlooks'⟩
  · exact congrArg some (hrefused.trans hrefused'.symm)
  · calc (first.core.connect initResult connectResult).2.eraseSocket
        = first.core.eraseSocket := herased
      _ = second.core.eraseSocket := htwins.eraseSocket
      _ = (second.core.connect initResult connectResult).2.eraseSocket := herased'.symm

/-- When both have begun an attempt they are the same client. -/
theorem step_accepted (htwins : Twins first second) {next other : WithBuffer}
    (hinactive : first.core.socket.active = false) (hinactive' : second.core.socket.active = false)
    (hfirst : WithBuffer.step app first (.call (.connect 0 0)) = some next)
    (hsecond : WithBuffer.step app second (.call (.connect 0 0)) = some other) :
    WithBuffer.see app first (.call (.connect 0 0)) next =
        WithBuffer.see app second (.call (.connect 0 0)) other ∧
      other = next ∧ next.core.socket.initialised = true := by
  obtain ⟨-, rfl⟩ := WithBuffer.step_eq_some.mp hfirst
  obtain ⟨-, rfl⟩ := WithBuffer.step_eq_some.mp hsecond
  have hcore : (second.core.connect 0 0).2 = (first.core.connect 0 0).2 := by
    rw [htwins.unopened.connect_admitted hinactive, htwins.unopened'.connect_admitted hinactive',
      htwins.eraseSocket]
  have hreturned : (first.core.connect 0 0).1 = (second.core.connect 0 0).1 :=
    ((htwins.unopened.connect_fst 0 0).mpr ⟨hinactive, rfl, rfl⟩).trans
      ((htwins.unopened'.connect_fst 0 0).mpr ⟨hinactive', rfl, rfl⟩).symm
  refine ⟨?_, ?_, congrArg (·.socket.initialised) (htwins.unopened.connect_admitted hinactive)⟩
  · simp only [WithBuffer.see, Event.returned, Event.effect, Call.run, hcore, hreturned,
      htwins.buffer]
  · simp only [Event.effect, Call.run, hcore, htwins.buffer, Event.buffered]

/-- After a call that both refuse only the memories say how the later calls go. -/
theorem admitAlike_of_refused (htwins : Twins first second) {socket other : UvTcp}
    {initResult connectResult : ℤ} (events : List Event)
    (hrefused : (first.core.connect initResult connectResult).1 = false)
    (hrefused' : (second.core.connect initResult connectResult).1 = false)
    (hsafe : socket.active = first.core.socket.active ∧ ¬ LooksOpen socket)
    (hsafe' : other.active = second.core.socket.active ∧ ¬ LooksOpen other) :
    AdmitAlike socket other events ↔
      ((0, 0) ∈ (initResult, connectResult) :: connects events →
        first.core.socket.active = second.core.socket.active) := by
  rw [AdmitAlike, and_iff_right hsafe.2, and_iff_right hsafe'.2, hsafe.1, hsafe'.1, List.mem_cons]
  constructor
  · rintro halike (hlibuv | hlibuv)
    · obtain ⟨rfl, rfl⟩ := Prod.ext_iff.mp hlibuv
      calc first.core.socket.active
          = true := htwins.unopened.active_of_refused hrefused
        _ = second.core.socket.active := (htwins.unopened'.active_of_refused hrefused').symm
    · exact halike (List.ne_nil_of_mem hlibuv) hlibuv
  · intro halike _ hlibuv
    exact halike (.inr hlibuv)

/-- A call of `connect` tells twins apart, or closes what is no handle, as their memories say; if it
does neither, they stay twins or become one. -/
theorem behaveAlike_connect (htwins : Twins first second) {next other last : WithBuffer}
    {initResult connectResult : ℤ} {events : List Event}
    (hnext : WithBuffer.step app first (.call (.connect initResult connectResult)) = some next)
    (hother : WithBuffer.step app second (.call (.connect initResult connectResult)) = some other)
    (hfirst : runFrom (WithBuffer.step app) events next = some last)
    (hlater : Twins next other → (WithBuffer.BehaveAlike app events next other ↔
      AdmitAlike next.core.socket other.core.socket events)) :
    (¬ WithBuffer.ClosesRaw first (.call (.connect initResult connectResult)) next ∧
        ¬ WithBuffer.ClosesRaw second (.call (.connect initResult connectResult)) other ∧
        WithBuffer.see app first (.call (.connect initResult connectResult)) next =
          WithBuffer.see app second (.call (.connect initResult connectResult)) other) ∧
      WithBuffer.BehaveAlike app events next other ↔
    AdmitAlike first.core.socket second.core.socket
      (.call (.connect initResult connectResult) :: events) := by
  have hfst := htwins.unopened.connect_fst initResult connectResult
  have hfst' := htwins.unopened'.connect_fst initResult connectResult
  unfold AdmitAlike
  rw [htwins.unopened.closesRaw_connect_iff hnext, htwins.unopened'.closesRaw_connect_iff hother,
    connects_cons_connect, forall_prop_of_true (List.cons_ne_nil _ _)]
  by_cases hopen : LooksOpen first.core.socket
  · exact iff_of_false (fun hsame ↦ hsame.1.1 hopen) fun halike ↦ halike.1 hopen
  by_cases hopen' : LooksOpen second.core.socket
  · exact iff_of_false (fun hsame ↦ hsame.1.2.1 hopen') fun halike ↦ halike.2.1 hopen'
  rw [and_iff_right hopen, and_iff_right hopen', and_iff_right hopen, and_iff_right hopen']
  by_cases hreturned : (first.core.connect initResult connectResult).1 =
      (second.core.connect initResult connectResult).1
  swap
  · -- one goes ahead, so libuv lets it succeed, and the other does not because it looks active
    refine iff_of_false (fun hsame ↦ hreturned ?_) fun halike ↦ hreturned ?_
    · exact Option.some.inj (congrArg Seen.returned hsame.1)
    · rw [Bool.eq_iff_iff, hfst, hfst']
      refine and_congr_left fun ⟨hinit, hconnect⟩ ↦ ?_
      rw [halike (by simp [hinit, hconnect])]
  cases hresult : (first.core.connect initResult connectResult).1 with
  | false =>
    have hresult' := hreturned.symm.trans hresult
    obtain ⟨hsee, htwins', hsafe, hsafe'⟩ :=
      htwins.step_refused hopen hopen' hresult hresult' hnext hother
    rw [and_iff_right hsee, hlater htwins']
    exact htwins.admitAlike_of_refused events hresult hresult' hsafe hsafe'
  | true =>
    obtain ⟨hinactive, rfl, rfl⟩ := hfst.mp hresult
    have hinactive' := (hfst'.mp (hreturned.symm.trans hresult)).1
    obtain ⟨hsee, rfl, hinit⟩ := htwins.step_accepted hinactive hinactive' hnext hother
    exact iff_of_true ⟨hsee, WithBuffer.behaveAlike_self hinit hfirst⟩ fun _ ↦
      hinactive.trans hinactive'.symm

/-- Twins behave alike if and only if their memories admit the calls of `connect` alike. -/
theorem behaveAlike_iff (htwins : Twins first second) {events : List Event}
    {last last' : WithBuffer} (hfirst : runFrom (WithBuffer.step app) events first = some last)
    (hsecond : runFrom (WithBuffer.step app) events second = some last') :
    WithBuffer.BehaveAlike app events first second ↔
      AdmitAlike first.core.socket second.core.socket events := by
  induction events generalizing first second with
  | nil => exact iff_of_true ⟨trivial, trivial, rfl⟩ fun hcalled ↦ absurd rfl hcalled
  | cons event events ih =>
    obtain ⟨next, hnext, hlater⟩ := (runFrom_cons _).mp hfirst
    obtain ⟨other, hother, hlater'⟩ := (runFrom_cons _).mp hsecond
    refine (SideBySide.cons_iff hnext hother).trans ?_
    by_cases hconnect :
        ∃ initResult connectResult, event = .call (.connect initResult connectResult)
    · obtain ⟨initResult, connectResult, rfl⟩ := hconnect
      exact htwins.behaveAlike_connect hnext hother hlater fun htwins ↦ ih htwins hlater hlater'
    · have hevent : ∀ initResult connectResult,
          event ≠ .call (.connect initResult connectResult) :=
        fun initResult connectResult heq ↦ hconnect ⟨initResult, connectResult, heq⟩
      obtain ⟨hsee, hlatertwins, hsocket, hsocket'⟩ := htwins.step hevent hnext hother
      have hsafe : ¬ WithBuffer.ClosesRaw first event next := fun hraw ↦
        lt_irrefl _ (hsocket ▸ hraw.2)
      have hsafe' : ¬ WithBuffer.ClosesRaw second event other := fun hraw ↦
        lt_irrefl _ (hsocket' ▸ hraw.2)
      rw [and_iff_right ⟨hsafe, hsafe', hsee⟩]
      refine (ih hlatertwins hlater hlater').trans ?_
      rw [AdmitAlike, AdmitAlike, connects_cons events hevent, hsocket, hsocket']

end Twins

/-- **Fresh clients.** Two clients constructed on memory of any content, sent through the same calls
and results of libuv, behave alike if and only if `connect` is not called, or neither memory looks
active and not closing and, where libuv would let a call succeed, both look active or neither
does. -/
theorem fresh_clients_look_alike_iff (app : Application U V H)
    {active closing active' closing' : Bool} {events : List Event} {last last' : WithBuffer}
    (hfirst : runFrom (WithBuffer.step app) events (.fresh active closing) = some last)
    (hsecond : runFrom (WithBuffer.step app) events (.fresh active' closing') = some last') :
    WithBuffer.BehaveAlike app events (.fresh active closing) (.fresh active' closing') ↔
      AdmitAlike (.raw active closing) (.raw active' closing') events :=
  (twins_fresh active closing active' closing').behaveAlike_iff hfirst hsecond

/-- Memory that looks closed, or does not, is initialised at a first call of `connect` that libuv
lets succeed. -/
theorem fresh_clients_look_alike_iff_retried :
    WithBuffer.BehaveAlike quiet
      [.start, .call (.connect (-24) 0), .call (.connect 0 0), .onConnect 0 0, .call .disconnect]
      (.fresh false false) (.fresh false true) := by
  refine (fresh_clients_look_alike_iff quiet rfl rfl).mpr fun _ ↦ ⟨?_, ?_, fun _ ↦ rfl⟩
  · exact fun hopen ↦ Bool.noConfusion hopen.1
  · exact fun hopen ↦ Bool.noConfusion hopen.1

/-- Of two clients whose memory looks closing, the one whose memory looks active, too, cannot
connect.  Neither passes it to `uv_close`. -/
theorem fresh_clients_told_apart :
    ¬ ∀ active closing active' closing' : Bool, ∀ events last last',
      runFrom (WithBuffer.step quiet) events (.fresh active closing) = some last →
      runFrom (WithBuffer.step quiet) events (.fresh active' closing') = some last' →
        seen (WithBuffer.step quiet) (WithBuffer.see quiet) events (.fresh active closing) =
          seen (WithBuffer.step quiet) (WithBuffer.see quiet) events (.fresh active' closing') := by
  intro halike
  have hsame := halike false true true true [.call (.connect 0 0)] _ _ rfl rfl
  exact absurd (congrArg (·.map Seen.returned) hsame) (by decide)

end Client

end LibuvNet
