import LibuvNet.Client.Lifecycle

/-!
# The heartbeat of a client

A client takes the time of its last heartbeat when it starts the timer and at no other moment:
receiving a `HEARTBEAT` packet, which `Session::handle_packet` takes as a sign of life, leaves it
alone.  So a tick of the timer disconnects exactly when it comes later after `start_heartbeat`
than the timeout allows, and a peer that sends heartbeats all the time is dropped as well.
-/

namespace LibuvNet

open Foundation

namespace Client

variable {U V H : Type*}

/-- The heartbeat was started at the given time, and the timer runs for a connected client only. -/
structure BeatsFrom (begun : ℕ) (core : Core U) : Prop where
  last : core.lastHeartbeatTime = begun
  connected : core.heartbeatTimer.active → core.isConnected

namespace BeatsFrom

variable {begun : ℕ} {core : Core U}

/-- While the timer does not run, only the time of the last heartbeat matters. -/
theorem of_inactive (hlast : core.lastHeartbeatTime = begun)
    (hinactive : core.heartbeatTimer.active = false) : BeatsFrom begun core where
  last := hlast
  connected hactive := absurd hactive (by simp [hinactive])

theorem disconnect (hbeats : BeatsFrom begun core) : BeatsFrom begun core.disconnect := by
  unfold Core.disconnect
  split
  · exact hbeats
  · exact of_inactive hbeats.last rfl

theorem connect (hbeats : BeatsFrom begun core) (initResult connectResult : ℤ) :
    BeatsFrom begun (core.connect initResult connectResult).2 := by
  rcases core.connect_cases initResult connectResult with heq | ⟨-, heq | heq | heq⟩ <;> rw [heq]
  · exact hbeats
  · exact ⟨hbeats.last, hbeats.connected⟩
  · exact ⟨hbeats.last, hbeats.connected⟩
  · exact ⟨hbeats.last, hbeats.connected⟩

theorem send (hbeats : BeatsFrom begun core) (host : Host) (packet : Packet) (write : WriteCall) :
    BeatsFrom begun (core.send host packet write) := by
  obtain ⟨heap, writer, hsend⟩ := core.send_eq host packet write
  rw [hsend]
  exact ⟨hbeats.last, hbeats.connected⟩

theorem tick (hbeats : BeatsFrom begun core) (host : Host) (write : WriteCall) :
    BeatsFrom begun (core.tick host write) := by
  have hagain : BeatsFrom begun
      { core with heartbeatTimer := core.heartbeatTimer.again core.now } :=
    ⟨hbeats.last, hbeats.connected⟩
  unfold Core.tick Core.onHeartbeatTimer
  split
  · exact hagain.disconnect
  · exact hagain.send host _ write

theorem kept (host : Host) : Kept host (BeatsFrom begun : Core U → Prop) where
  connect initResult connectResult hbeats := hbeats.connect initResult connectResult
  disconnect hbeats := hbeats.disconnect
  send packet write hbeats := hbeats.send host packet write
  memory _ hbeats := ⟨hbeats.last, hbeats.connected⟩

/-- Only `on_connect` starts the heartbeat. -/
theorem step {app : Application U V H} {client next : Receiver (Core U) H} {event : Event}
    (hbeats : BeatsFrom begun client.state)
    (hevent : ∀ status readResult, event ≠ .onConnect status readResult)
    (hstep : step app client event = some next) : BeatsFrom begun next.state := by
  apply step_keeps (kept app.host) _ hstep
  cases event with
  | start =>
    simp only [Event.effect, Core.start]
    split <;> exact ⟨hbeats.last, hbeats.connected⟩
  | stop =>
    simp only [Event.effect, Core.stop]
    split
    · exact hbeats
    · exact of_inactive hbeats.last rfl
  | call call => exact (kept app.host).run call hbeats
  | onConnect status readResult => exact absurd rfl (hevent status readResult)
  | onClose => exact of_inactive hbeats.last rfl
  | onRead nread base =>
    simp only [Event.effect]
    split
    · exact hbeats.disconnect
    · exact hbeats
  | onWrite status =>
    simp only [Event.effect, Core.onWrite]
    split
    · exact disconnect ⟨hbeats.last, hbeats.connected⟩
    · exact ⟨hbeats.last, hbeats.connected⟩
  | onHeartbeatTimer write => exact hbeats.tick app.host write
  | transmit count => exact ⟨hbeats.last, hbeats.connected⟩
  | elapse milliseconds => exact ⟨hbeats.last, hbeats.connected⟩

/-- `on_connect` starts the heartbeat at the time it is called. -/
theorem onConnect {app : Application U V H} {client next : Receiver (Core U) H} {status : ℤ}
    (hstatus : 0 ≤ status) (hconnect : Client.step app client (.onConnect status 0) = some next) :
    BeatsFrom client.state.now next.state := by
  apply step_keeps (kept app.host) _ hconnect
  simp only [Event.effect, if_neg (not_lt.mpr hstatus), ne_eq, not_true_eq_false, if_false]
  exact ⟨rfl, fun _ ↦ rfl⟩

end BeatsFrom

/-- The step is not a tick of the heartbeat timer that disconnects. -/
def KeepsConnected (client : Receiver (Core U) H) (event : Event)
    (next : Receiver (Core U) H) : Prop :=
  match event with
  | .onHeartbeatTimer _ => client.state.isConnected → next.state.isConnected
  | _ => True

/-- If the step is a tick, the timeout has not passed since the heartbeat was started. -/
def TicksInTime (begun : ℕ) (client : Receiver (Core U) H) (event : Event)
    (_ : Receiver (Core U) H) : Prop :=
  match event with
  | .onHeartbeatTimer _ => client.state.now ≤ begun + heartbeatTimeoutMs
  | _ => True

/-- A tick disconnects if and only if the timeout has passed since the heartbeat was started. -/
theorem keepsConnected_iff_ticksInTime {begun : ℕ} {app : Application U V H}
    {client next : Receiver (Core U) H} {event : Event} (hbeats : BeatsFrom begun client.state)
    (hstep : step app client event = some next) :
    KeepsConnected client event next ↔ TicksInTime begun client event next := by
  cases event with
  | onHeartbeatTimer write =>
    unfold step at hstep
    split at hstep
    · rename_i hdue
      obtain ⟨-, hactive, -⟩ := hdue
      have hconnected := hbeats.connected hactive
      rw [Outcome.returned?_eq_some] at hstep
      cases hstep
      have htick := client.state.tick_isConnected app.host write hconnected
      rw [hbeats.last, Nat.sub_le_iff_le_add'] at htick
      exact ⟨fun hkeeps ↦ htick.mp (hkeeps hconnected), fun hintime _ ↦ htick.mpr hintime⟩
    · cases hstep
  | _ => exact Iff.rfl

/-- **The heartbeat timeout.** During a connection no tick of the heartbeat timer disconnects if
and only if every tick comes no later after `on_connect` than the timeout, whatever heartbeats are
received. -/
theorem tick_disconnects_iff (app : Application U V H) (before client : Receiver (Core U) H)
    (status : ℤ) (hstatus : 0 ≤ status)
    (hconnect : step app before (.onConnect status 0) = some client) (events : List Event)
    (hevents : ∀ status readResult, .onConnect status readResult ∉ events) :
    Along (step app) KeepsConnected events client ↔
      Along (step app) (TicksInTime before.state.now) events client := by
  have hnot {event : Event} (hmem : event ∈ events) (status readResult : ℤ) :
      event ≠ .onConnect status readResult := by
    rintro rfl
    exact hevents status readResult hmem
  apply Along.congr
  · exact fun _ _ _ _ hbeats hstep ↦ keepsConnected_iff_ticksInTime hbeats hstep
  · exact fun _ hmem _ _ hbeats hstep _ ↦ hbeats.step (hnot hmem) hstep
  · exact BeatsFrom.onConnect hstatus hconnect

/-! ## Runs with heartbeats -/

/-- One step together with the time of the last `HEARTBEAT` packet. -/
def beatStep (app : Application U V H) (timed : ℕ × Receiver (Core U) H) (event : Event) :
    Option (ℕ × Receiver (Core U) H) :=
  (step app timed.2 event).map fun next ↦
    let packets := Obs.decodedPackets (next.trace.drop timed.2.trace.length)
    (if packets.any fun packet ↦ packet.type = .heartbeat then next.state.now else timed.1, next)

/-- From `begun` on, the time since the last `HEARTBEAT` packet never exceeds the timeout. -/
def HeartbeatsFlow (app : Application U V H) (begun : ℕ) (events : List Event)
    (client : Receiver (Core U) H) : Prop :=
  Along (beatStep app) (fun _ _ next ↦ next.2.state.now ≤ next.1 + heartbeatTimeoutMs) events
    (begun, client)

instance (app : Application U V H) (begun : ℕ) (events : List Event)
    (client : Receiver (Core U) H) : Decidable (HeartbeatsFlow app begun events client) := by
  unfold HeartbeatsFlow
  infer_instance

instance (client : Receiver (Core U) H) (event : Event) (next : Receiver (Core U) H) :
    Decidable (KeepsConnected client event next) :=
  match event with
  | .onHeartbeatTimer _ =>
    inferInstanceAs (Decidable (client.state.isConnected → next.state.isConnected))
  | .start | .stop | .call _ | .onConnect _ _ | .onClose | .onRead _ _ | .onWrite _
  | .transmit _ | .elapse _ => isTrue trivial

instance (begun : ℕ) (client : Receiver (Core U) H) (event : Event)
    (next : Receiver (Core U) H) : Decidable (TicksInTime begun client event next) :=
  match event with
  | .onHeartbeatTimer _ =>
    inferInstanceAs (Decidable (client.state.now ≤ begun + heartbeatTimeoutMs))
  | .start | .stop | .call _ | .onConnect _ _ | .onClose | .onRead _ _ | .onWrite _
  | .transmit _ | .elapse _ => isTrue trivial

/-- Thirty seconds pass, a `HEARTBEAT` packet is received and the timer ticks. -/
def heartbeatPeriod : List Event :=
  [.elapse 30000, .onRead 12 [1, 4, 0, 0, 0, 0, 0, 0, 0, 0, 0, 0],
    .onHeartbeatTimer ⟨0, ⟨0, 0⟩, 0, 12⟩]

/-- A client whose loop runs and whose connection attempt is about to succeed. -/
def attempting : Receiver (Core Unit) Unit where
  state := (((Core.initial false false ()).start.2).connect 0 0).2
  trace := []
  buffer := []

theorem tick_disconnects_iff_period :
    ∃ client, step quiet attempting (.onConnect 0 0) = some client ∧
      (Along (step quiet) KeepsConnected heartbeatPeriod client ↔
        Along (step quiet) (TicksInTime attempting.state.now) heartbeatPeriod client) :=
  ⟨_, rfl, tick_disconnects_iff quiet attempting _ 0 le_rfl rfl heartbeatPeriod
    (by simp [heartbeatPeriod])⟩

/-- The fourth tick drops a peer that has sent a heartbeat every thirty seconds. -/
theorem healthy_connection_dropped :
    ∃ client, step quiet attempting (.onConnect 0 0) = some client ∧
      HeartbeatsFlow quiet attempting.state.now
        (List.replicate 4 heartbeatPeriod).flatten client ∧
      ¬ Along (step quiet) KeepsConnected (List.replicate 4 heartbeatPeriod).flatten client :=
  ⟨_, rfl, by decide, by decide⟩

end Client

end LibuvNet
