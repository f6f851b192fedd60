import LibuvNet.Client.Heartbeat
import LibuvNet.Client.Timer
import LibuvNet.Endpoint.Watchdog

/-!
# How long a connection of a client can last

A client takes no heartbeat of its peer as a sign of life, so its timer goes off some time after
`on_connect`, whatever is received.  If the loop runs on and never keeps the timer waiting for
longer than some delay, the connection is over after the timeout, one interval and the delay.
-/

namespace LibuvNet

open Foundation

namespace Client

variable {U V H : Type*}

/-- The heartbeat was started at the given time, and its timer watches over that time. -/
structure Expiring (begun : ℕ) (core : Core U) : Prop where
  beats : BeatsFrom begun core
  watches : Watches core.heartbeatTimer begun

namespace Expiring

variable {begun : ℕ} {core next : Core U}

/-- Only the timer, the flag and the time matter. -/
theorem congr (hexpiring : Expiring begun core)
    (htimer : next.heartbeatTimer = core.heartbeatTimer)
    (hconnected : next.isConnected = core.isConnected)
    (hlast : next.lastHeartbeatTime = core.lastHeartbeatTime) : Expiring begun next where
  beats := by
    constructor
    · rw [hlast]
      exact hexpiring.beats.last
    · rw [htimer, hconnected]
      exact hexpiring.beats.connected
  watches := htimer ▸ hexpiring.watches

theorem disconnect (hexpiring : Expiring begun core) : Expiring begun core.disconnect where
  beats := hexpiring.beats.disconnect
  watches := by
    unfold Core.disconnect
    split
    · exact hexpiring.watches
    · exact .stop

theorem connect (hexpiring : Expiring begun core) (initResult connectResult : ℤ) :
    Expiring begun (core.connect initResult connectResult).2 := by
  rcases core.connect_cases initResult connectResult with heq | ⟨-, heq | heq | heq⟩ <;> rw [heq]
  · exact hexpiring
  · exact hexpiring.congr rfl rfl rfl
  · exact hexpiring.congr rfl rfl rfl
  · exact hexpiring.congr rfl rfl rfl

theorem send (hexpiring : Expiring begun core) (host : Host) (packet : Packet)
    (write : WriteCall) : Expiring begun (core.send host packet write) := by
  obtain ⟨heap, writer, hsend⟩ := core.send_eq host packet write
  rw [hsend]
  exact hexpiring.congr rfl rfl rfl

/-- A tick after the timeout stops the timer, and any other arms it again in time. -/
theorem tick (hexpiring : Expiring begun core) (hactive : core.heartbeatTimer.active) (host : Host)
    (write : WriteCall) : Expiring begun (core.tick host write) := by
  have hconnected := hexpiring.beats.connected hactive
  refine ⟨hexpiring.beats.tick host write, ?_⟩
  unfold Core.tick Core.onHeartbeatTimer
  split
  · simp only [Core.disconnect, hconnected]
    exact .stop
  · rename_i hintime
    obtain ⟨heap, writer, hsend⟩ := Core.send_eq
      { core with heartbeatTimer := core.heartbeatTimer.again core.now } host ⟨.heartbeat, [], 0⟩
      write
    rw [Core.sendHeartbeat, hsend]
    apply hexpiring.watches.again
    rw [← hexpiring.beats.last]
    exact not_lt.mp hintime

theorem kept (host : Host) : Kept host (Expiring begun : Core U → Prop) where
  connect initResult connectResult hexpiring := hexpiring.connect initResult connectResult
  disconnect hexpiring := hexpiring.disconnect
  send packet write hexpiring := hexpiring.send host packet write
  memory _ hexpiring := hexpiring.congr rfl rfl rfl

/-- Nothing that happens during the connection puts its end off. -/
theorem step {app : Application U V H} {client after : Receiver (Core U) H} {event : Event}
    (hexpiring : Expiring begun client.state)
    (hevent : ∀ status readResult, event ≠ .onConnect status readResult)
    (hstep : Client.step app client event = some after) : Expiring begun after.state := by
  apply step_keeps (kept app.host) _ hstep
  have hdue := due_of_step hstep
  cases event with
  | start =>
    simp only [Event.effect, Core.start]
    split
    · exact hexpiring
    · exact hexpiring.congr rfl rfl rfl
  | stop =>
    simp only [Event.effect, Core.stop]
    split
    · exact hexpiring
    · exact ⟨.of_inactive hexpiring.beats.last rfl, .stop⟩
  | call call => exact (kept app.host).run call hexpiring
  | onConnect status readResult => exact absurd rfl (hevent status readResult)
  | onClose => exact ⟨.of_inactive hexpiring.beats.last rfl, .stop⟩
  | onRead nread base =>
    simp only [Event.effect]
    split
    · exact hexpiring.disconnect
    · exact hexpiring
  | onWrite status =>
    have hreported : Expiring begun
        { client.state with socket := client.state.socket.reportWrite status } :=
      hexpiring.congr rfl rfl rfl
    simp only [Event.effect, Core.onWrite]
    split
    · exact hreported.disconnect
    · exact hreported
  | onHeartbeatTimer write => exact hexpiring.tick hdue.2.1 app.host write
  | transmit count => exact hexpiring.congr rfl rfl rfl
  | elapse milliseconds => exact hexpiring.congr rfl rfl rfl

end Expiring

/-- `on_connect` starts a heartbeat that watches over the connection. -/
theorem onConnect_watches {app : Application U V H} {client next : Receiver (Core U) H} {status : ℤ}
    (hstatus : 0 ≤ status) (hconnect : Client.step app client (.onConnect status 0) = some next) :
    Expiring client.state.now next.state ∧ Beating next.state := by
  have hloop := (due_of_step hconnect).1
  constructor
  · apply step_keeps (Expiring.kept app.host) _ hconnect
    simp only [Event.effect, if_neg (not_lt.mpr hstatus), ne_eq, not_true_eq_false, if_false]
    exact ⟨⟨rfl, fun _ ↦ rfl⟩, .start⟩
  · apply step_keeps (Beating.kept app.host) _ hconnect
    simp only [Event.effect, if_neg (not_lt.mpr hstatus), ne_eq, not_true_eq_false, if_false]
    exact ⟨fun _ ↦ ⟨rfl, hloop⟩, fun _ ↦ rfl⟩

/-- The loop is not started while the client is connected, and does not keep the heartbeat timer
waiting for longer than the delay. -/
def KeepsTime (delay : ℕ) (client : Receiver (Core U) H) (event : Event)
    (next : Receiver (Core U) H) : Prop :=
  StartsDisconnected client event next ∧
    Punctual delay next.state.heartbeatTimer next.state.now

instance (delay : ℕ) (client : Receiver (Core U) H) (event : Event) (next : Receiver (Core U) H) :
    Decidable (KeepsTime delay client event next) := by
  unfold KeepsTime StartsDisconnected
  infer_instance

/-- **No connection lasts.** Whatever a client receives, sends and is asked for after `on_connect`,
heartbeats of the peer included: if its loop keeps the timer waiting for no longer than the delay
and is not stopped and started again, the client is connected no longer than the timeout, one
interval and the delay. -/
theorem connection_expires (app : Application U V H) (delay : ℕ)
    (before client : Receiver (Core U) H) (status : ℤ) (hstatus : 0 ≤ status)
    (hconnect : step app before (.onConnect status 0) = some client)
    (hstart : Punctual delay client.state.heartbeatTimer client.state.now) (events : List Event)
    (hevents : ∀ status readResult, .onConnect status readResult ∉ events)
    (htime : Along (step app) (KeepsTime delay) events client) (last : Receiver (Core U) H)
    (hrun : runFrom (step app) events client = some last)
    (hconnected : last.state.isConnected) (hloop : last.state.loopThread) :
    last.state.now ≤
      before.state.now + heartbeatTimeoutMs + heartbeatIntervalMs + delay := by
  let Holds (client : Receiver (Core U) H) : Prop :=
    (Expiring before.state.now client.state ∧ Beating client.state) ∧
      Punctual delay client.state.heartbeatTimer client.state.now
  have hstep (event : Event) (hmem : event ∈ events) {client next : Receiver (Core U) H}
      (hholds : Holds client) (hstep : step app client event = some next)
      (htime : KeepsTime delay client event next) : Holds next := by
    have hnot (status readResult : ℤ) : event ≠ .onConnect status readResult := by
      rintro rfl
      exact hevents status readResult hmem
    exact ⟨⟨hholds.1.1.step hnot hstep, hholds.1.2.step hstep htime.1⟩, htime.2⟩
  have hfirst : Holds client := ⟨onConnect_watches hstatus hconnect, hstart⟩
  obtain ⟨⟨hexpiring, hbeating⟩, hpunctual⟩ : Holds last :=
    htime.invariant_of_mem hstep hfirst hrun
  exact hexpiring.watches.bounded hpunctual (hbeating.mpr ⟨hconnected, hloop⟩)

/-- A peer that sends a heartbeat every thirty seconds, on a loop that is never late. -/
theorem connection_expires_period :
    ∃ client last, step quiet attempting (.onConnect 0 0) = some client ∧
      runFrom (step quiet) (List.replicate 3 heartbeatPeriod).flatten client = some last ∧
      last.state.isConnected ∧
      last.state.now ≤ attempting.state.now + heartbeatTimeoutMs + heartbeatIntervalMs + 0 :=
  ⟨_, _, rfl, rfl, rfl, connection_expires quiet 0 attempting _ 0 le_rfl rfl (by decide)
    (List.replicate 3 heartbeatPeriod).flatten (by simp [heartbeatPeriod, List.replicate])
    (by decide) _ rfl rfl rfl⟩

end Client

end LibuvNet
