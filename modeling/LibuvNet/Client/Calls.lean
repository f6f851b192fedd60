import LibuvNet.Client.Lifecycle

/-!
# The calls of user code as steps

User code calls the client from its handlers, in the middle of a step.  Here every such call is a
step of its own: `Core.step` does what the client itself does at an event and no more, and the
calls of the handlers are further events.  What is said about all states of such runs holds in the
middle of a handler as well.  Every run of a client with an application is one of them.
-/

namespace LibuvNet

open Foundation

namespace Client

variable {U V H : Type*}

namespace Core

/-- One step of a client whose handlers call nothing. -/
def step (host : Host) (core : Core U) (event : Event) : Option (Core U) :=
  if event.Due core then some (event.effect host core) else none

theorem step_eq_some {host : Host} {core next : Core U} {event : Event} :
    step host core event = some next ↔ event.Due core ∧ event.effect host core = next := by
  unfold step
  split <;> simp [*]

theorem step_call (host : Host) (core : Core U) (call : Call) :
    step host core (.call call) = some (call.run host core) :=
  if_pos trivial

/-- The client without what user code remembers. -/
def forget (core : Core U) : Core Unit := { core with memory := () }

variable (core : Core U)

theorem forget_initSocket (initResult : ℤ) : core.forget.initSocket initResult =
    ((core.initSocket initResult).1, (core.initSocket initResult).2.forget) := by
  change (if core.socket.active then _ else if initResult ≠ 0 then _ else _ : Bool × Core Unit) = _
  simp only [initSocket]
  by_cases hactive : core.socket.active
  · rw [if_pos hactive, if_pos hactive]
    by_cases hopen : ¬ core.socket.closing
    · rw [if_pos hopen]
      exact if_pos hopen
    · rw [if_neg hopen]
      exact if_neg hopen
  · rw [if_neg hactive, if_neg hactive]
    by_cases hinit : initResult ≠ 0
    · rw [if_pos hinit, if_pos hinit]
    · rw [if_neg hinit, if_neg hinit]
      rfl

theorem forget_connect (initResult connectResult : ℤ) :
    (core.connect initResult connectResult).2.forget =
      (core.forget.connect initResult connectResult).2 := by
  simp only [connect, forget_initSocket, apply_ite Prod.snd, apply_ite forget]
  apply congrArg (ite _ core.forget)
  rcases core.initSocket initResult with ⟨accepted, opened⟩
  cases accepted with
  | false => rfl
  | true =>
    simp only [apply_ite Prod.snd, apply_ite forget]
    rfl

theorem forget_disconnect : core.disconnect.forget = core.forget.disconnect :=
  apply_ite forget _ _ _

theorem forget_send (host : Host) (packet : Packet) (write : WriteCall) :
    (core.send host packet write).forget = core.forget.send host packet write :=
  apply_ite forget _ _ _

theorem forget_tick (host : Host) (write : WriteCall) :
    (core.tick host write).forget = core.forget.tick host write := by
  simp only [tick, onHeartbeatTimer, apply_ite forget, forget_disconnect, sendHeartbeat,
    forget_send]
  rfl

theorem forget_onWrite (status : ℤ) :
    (core.onWrite status).forget = core.forget.onWrite status := by
  simp only [onWrite, apply_ite forget, forget_disconnect]
  rfl

theorem forget_call (host : Host) (call : Call) :
    (call.run host core).forget = call.run host core.forget := by
  cases call with
  | connect initResult connectResult => exact core.forget_connect initResult connectResult
  | disconnect => exact core.forget_disconnect
  | send packet write => exact core.forget_send host packet write

/-- No event looks at what user code remembers. -/
theorem forget_effect (host : Host) (event : Event) :
    (event.effect host core).forget = event.effect host core.forget := by
  cases event with
  | start =>
    simp only [Event.effect, start]
    rw [apply_ite Prod.snd, apply_ite Prod.snd, apply_ite forget]
    rfl
  | stop => exact apply_ite forget _ _ _
  | call call => exact core.forget_call host call
  | onConnect status readResult =>
    simp only [Event.effect, apply_ite forget, forget_disconnect]
    rfl
  | onClose => rfl
  | onRead nread base => simp only [Event.effect, apply_ite forget, forget_disconnect]
  | onWrite status => exact core.forget_onWrite status
  | onHeartbeatTimer write => exact core.forget_tick host write
  | transmit count => rfl
  | elapse milliseconds => rfl

end Core

/-- What user code does from a state is a run of calls. -/
def Called (host : Host) (start core : Core U) : Prop :=
  ∃ calls : List Call, runFrom (Core.step host) (calls.map .call) start.forget = some core.forget

namespace Called

variable {host : Host} {start core : Core U}

theorem refl (host : Host) (core : Core U) : Called host core core := ⟨[], rfl⟩

theorem run (hcalled : Called host start core) (call : Call) :
    Called host start (call.run host core) := by
  obtain ⟨calls, hcalls⟩ := hcalled
  refine ⟨calls ++ [call], ?_⟩
  rw [List.map_append, runFrom_append, hcalls, core.forget_call host call]
  exact (runFrom_cons _).mpr ⟨_, Core.step_call host core.forget call, rfl⟩

theorem kept (host : Host) (start : Core U) : Kept host (Called host start) where
  connect initResult connectResult hcalled := hcalled.run (.connect initResult connectResult)
  disconnect hcalled := hcalled.run .disconnect
  send packet write hcalled := hcalled.run (.send packet write)
  memory _ hcalled := hcalled

end Called

/-- A step of a client is its event followed by the calls of the handlers. -/
theorem step_calls {app : Application U V H} {client next : Receiver (Core U) H} {event : Event}
    (hstep : step app client event = some next) :
    ∃ calls : List Call, runFrom (Core.step app.host) (event :: calls.map .call)
      client.state.forget = some next.state.forget := by
  obtain ⟨calls, hcalls⟩ := step_keeps (Called.kept app.host (event.effect app.host client.state))
    (.refl app.host _) hstep
  refine ⟨calls, (runFrom_cons _).mpr ⟨event.effect app.host client.state.forget, ?_, ?_⟩⟩
  · exact Core.step_eq_some.mpr ⟨due_of_step hstep, rfl⟩
  · rw [← client.state.forget_effect app.host event]
    exact hcalls

/-- **Calls as steps.** Every run of a client with an application is a run in which the calls of
the handlers are events. -/
theorem run_calls {app : Application U V H} {events : List Event}
    {client last : Receiver (Core U) H} (hrun : runFrom (step app) events client = some last) :
    ∃ unfolded : List Event, events.Sublist unfolded ∧
      runFrom (Core.step app.host) unfolded client.state.forget = some last.state.forget := by
  induction events generalizing client with
  | nil => exact ⟨[], .slnil, by rw [← Option.some.inj hrun]; rfl⟩
  | cons event events ih =>
    obtain ⟨next, hnext, hlater⟩ := (runFrom_cons _).mp hrun
    obtain ⟨calls, hcalls⟩ := step_calls hnext
    obtain ⟨unfolded, hsublist, hunfolded⟩ := ih hlater
    refine ⟨event :: calls.map .call ++ unfolded, ?_, ?_⟩
    · exact (hsublist.trans (List.sublist_append_right _ _)).cons_cons event
    · rw [runFrom_append, hcalls]
      exact hunfolded

/-! ## What an event does to the connection -/

/-- The flags are the same, and so is the socket except for the account of its writes. -/
structure SameConnection (core next : Core U) : Prop where
  isConnected : next.isConnected = core.isConnected
  isConnecting : next.isConnecting = core.isConnecting
  socket : ∃ canceledWrites writer,
    next.socket = { core.socket with canceledWrites := canceledWrites, writer := writer }

theorem SameConnection.of_eq {core next : Core U} (hconnected : next.isConnected = core.isConnected)
    (hconnecting : next.isConnecting = core.isConnecting) (hsocket : next.socket = core.socket) :
    SameConnection core next :=
  ⟨hconnected, hconnecting, core.socket.canceledWrites, core.socket.writer, hsocket⟩

theorem SameConnection.send (core : Core U) (host : Host) (packet : Packet) (write : WriteCall) :
    SameConnection core (core.send host packet write) := by
  obtain ⟨heap, writer, hsend⟩ := core.send_eq host packet write
  rw [hsend]
  exact ⟨rfl, rfl, core.socket.canceledWrites, writer, rfl⟩

/-- The event concerns a connection attempt or the end of a connection. -/
def Event.TurnsConnection : Event → Prop
  | .call (.connect _ _) | .onConnect _ _ | .onClose => True
  | _ => False

/-- Any other event leaves the connection alone, or disconnects it. -/
theorem effect_cases (host : Host) (core : Core U) {event : Event}
    (hevent : ¬ event.TurnsConnection) :
    ∃ same, SameConnection core same ∧
      (event.effect host core = same ∨ event.effect host core = same.disconnect) := by
  cases event with
  | start =>
    refine ⟨core.start.2, ?_, .inl rfl⟩
    unfold Core.start
    split <;> exact .of_eq rfl rfl rfl
  | stop =>
    refine ⟨core.stop, ?_, .inl rfl⟩
    unfold Core.stop
    split <;> exact .of_eq rfl rfl rfl
  | call call =>
    cases call with
    | connect initResult connectResult => exact absurd trivial hevent
    | disconnect => exact ⟨core, .of_eq rfl rfl rfl, .inr rfl⟩
    | send packet write => exact ⟨core.send host packet write, .send .., .inl rfl⟩
  | onConnect status readResult => exact absurd trivial hevent
  | onClose => exact absurd trivial hevent
  | onRead nread base =>
    refine ⟨core, .of_eq rfl rfl rfl, ?_⟩
    simp only [Event.effect]
    split
    · exact .inr rfl
    · exact .inl rfl
  | onWrite status =>
    obtain ⟨canceledWrites, writer, hreport⟩ := core.socket.reportWrite_eq status
    refine ⟨{ core with socket := core.socket.reportWrite status },
      ⟨rfl, rfl, canceledWrites, writer, hreport⟩, ?_⟩
    simp only [Event.effect, Core.onWrite]
    split
    · exact .inr rfl
    · exact .inl rfl
  | onHeartbeatTimer write =>
    let armed := { core with heartbeatTimer := core.heartbeatTimer.again core.now }
    simp only [Event.effect, Core.tick, Core.onHeartbeatTimer]
    split
    · exact ⟨armed, .of_eq rfl rfl rfl, .inr rfl⟩
    · refine ⟨armed.sendHeartbeat host write, ?_, .inl rfl⟩
      obtain ⟨hconnected, hconnecting, hsocket⟩ :=
        SameConnection.send armed host ⟨.heartbeat, [], 0⟩ write
      exact ⟨hconnected, hconnecting, hsocket⟩
  | transmit count =>
    refine ⟨Event.effect host core (.transmit count), ⟨rfl, rfl, ?_⟩, .inl rfl⟩
    exact ⟨core.socket.canceledWrites, _, rfl⟩
  | elapse milliseconds =>
    exact ⟨Event.effect host core (.elapse milliseconds), .of_eq rfl rfl rfl, .inl rfl⟩

/-- So what is about the connection alone, and survives `disconnect`, survives any other event. -/
theorem effect_keeps {Holds : Core U → Prop}
    (hsame : ∀ {core same}, Holds core → SameConnection core same → Holds same)
    (hdisconnect : ∀ {core}, Holds core → Holds core.disconnect) (host : Host) {core : Core U}
    {event : Event} (hevent : ¬ event.TurnsConnection) (hholds : Holds core) :
    Holds (event.effect host core) := by
  obtain ⟨same, hconnection, heffect | heffect⟩ := effect_cases host core hevent
  · rw [heffect]
    exact hsame hholds hconnection
  · rw [heffect]
    exact hdisconnect (hsame hholds hconnection)

end Client

end LibuvNet
