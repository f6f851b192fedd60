import LibuvNet.Client.Lifecycle

/-!
# The timer of a connected client

The heartbeat timer is to run exactly while the client is connected and its loop runs.
`on_connect` starts it, `disconnect`, `on_close` and `stop` stop it, and `start` does not start it
again: a client that is still connected when its loop is started anew stays without a heartbeat.
No other step breaks the rule.
-/

namespace LibuvNet

open Foundation

namespace Client

variable {U V H : Type*}

/-- No heartbeat without a connection, and one for a connection whose loop runs. -/
def HasHeartbeat (core : Core U) : Prop :=
  (¬ core.isConnected → ¬ core.heartbeatTimer.active) ∧
    (core.isConnected → core.loopThread → core.heartbeatTimer.active)

instance (core : Core U) : Decidable (HasHeartbeat core) := by
  unfold HasHeartbeat
  infer_instance

/-- The loop is not started while the client is connected, unless it runs already. -/
def StartsDisconnected (client : Receiver (Core U) H) (event : Event) (_ : Receiver (Core U) H) :
    Prop :=
  event = .start → client.state.isConnected → client.state.loopThread

/-- The timer runs exactly while the client is connected and its loop runs. -/
def Beating (core : Core U) : Prop :=
  core.heartbeatTimer.active ↔ core.isConnected ∧ core.loopThread

namespace Beating

variable {core : Core U}

theorem hasHeartbeat (hbeating : Beating core) : HasHeartbeat core :=
  ⟨fun hnot hactive ↦ hnot (hbeating.mp hactive).1,
    fun hconnected hloop ↦ hbeating.mpr ⟨hconnected, hloop⟩⟩

/-- A client without a connection and without a heartbeat. -/
theorem of_neither (hconnected : core.isConnected = false)
    (hactive : core.heartbeatTimer.active = false) : Beating core := by
  unfold Beating
  rw [hconnected, hactive]
  simp

/-- Nothing else of a client matters here. -/
theorem congr {next : Core U} (hbeating : Beating core)
    (htimer : next.heartbeatTimer.active = core.heartbeatTimer.active)
    (hconnected : next.isConnected = core.isConnected)
    (hloop : next.loopThread = core.loopThread) : Beating next := by
  unfold Beating
  rw [htimer, hconnected, hloop]
  exact hbeating

theorem disconnect (hbeating : Beating core) : Beating core.disconnect := by
  unfold Core.disconnect
  split_ifs
  · exact hbeating
  all_goals exact of_neither rfl rfl

theorem connect (hbeating : Beating core) (initResult connectResult : ℤ) :
    Beating (core.connect initResult connectResult).2 := by
  rcases core.connect_cases initResult connectResult with heq | ⟨-, heq | heq | heq⟩ <;> rw [heq]
  · exact hbeating
  all_goals exact hbeating.congr rfl rfl rfl

theorem send (hbeating : Beating core) (host : Host) (packet : Packet) (write : WriteCall) :
    Beating (core.send host packet write) := by
  obtain ⟨heap, writer, hsend⟩ := core.send_eq host packet write
  rw [hsend]
  exact hbeating.congr rfl rfl rfl

theorem kept (host : Host) : Kept host (Beating : Core U → Prop) where
  connect initResult connectResult hbeating := hbeating.connect initResult connectResult
  disconnect hbeating := hbeating.disconnect
  send packet write hbeating := hbeating.send host packet write
  memory _ hbeating := hbeating.congr rfl rfl rfl

/-- A step keeps the rule, unless it starts the loop of a connected client. -/
theorem step {app : Application U V H} {client next : Receiver (Core U) H} {event : Event}
    (hbeating : Beating client.state) (hstep : Client.step app client event = some next)
    (hstarts : StartsDisconnected client event next) : Beating next.state := by
  apply step_keeps (kept app.host) _ hstep
  have hdue := due_of_step hstep
  cases event with
  | start =>
    simp only [Event.effect, Core.start]
    split
    · exact hbeating
    · rename_i hloop
      have hconnected : client.state.isConnected = false :=
        Bool.eq_false_of_not_eq_true fun hconnected ↦ hloop (hstarts rfl hconnected)
      have hactive : client.state.heartbeatTimer.active = false :=
        Bool.eq_false_of_not_eq_true fun hactive ↦ hloop (hbeating.mp hactive).2
      apply of_neither
      · exact hconnected
      · exact hactive
  | stop =>
    simp only [Event.effect, Core.stop]
    split
    · exact hbeating
    · simp [Beating, Core.stopHeartbeat, UvTimer.stop]
  | call call => exact (kept app.host).run call hbeating
  | onConnect status readResult =>
    have hdone : Beating { client.state with
        socket := client.state.socket.connectDone, isConnecting := false } :=
      hbeating.congr rfl rfl rfl
    simp only [Event.effect]
    split_ifs
    · exact hdone
    · exact hdone.disconnect
    · exact ⟨fun _ ↦ ⟨rfl, hdue.1⟩, fun _ ↦ rfl⟩
  | onClose => exact of_neither rfl rfl
  | onRead nread base =>
    simp only [Event.effect]
    split
    · exact hbeating.disconnect
    · exact hbeating
  | onWrite status =>
    simp only [Event.effect, Core.onWrite]
    split
    · apply disconnect
      exact hbeating.congr rfl rfl rfl
    · exact hbeating.congr rfl rfl rfl
  | onHeartbeatTimer write =>
    simp only [Event.effect, Core.tick, Core.onHeartbeatTimer]
    split
    · apply disconnect
      exact hbeating.congr rfl rfl rfl
    · apply send
      exact hbeating.congr rfl rfl rfl
  | transmit count => exact hbeating.congr rfl rfl rfl
  | elapse milliseconds => exact hbeating.congr rfl rfl rfl

end Beating

/-- From a state that obeys the rule, a step leads to a state with the right heartbeat exactly when
it does not start the loop of a connected client. -/
theorem hasHeartbeat_iff_startsDisconnected {app : Application U V H}
    {client next : Receiver (Core U) H} {event : Event} (hbeating : Beating client.state)
    (hstep : step app client event = some next) :
    HasHeartbeat next.state ↔ StartsDisconnected client event next := by
  constructor
  · rintro ⟨-, hheartbeat⟩ rfl hconnected
    by_contra hloop
    have hnext : next.state = { client.state with loopThread := true } := by
      have heffect := Option.some.inj hstep
      rw [← heffect]
      simp only [Core.start, if_neg hloop]
    rw [hnext] at hheartbeat
    exact hloop (hbeating.mp (hheartbeat hconnected rfl)).2
  · exact fun hstarts ↦ (hbeating.step hstep hstarts).hasHeartbeat

/-- **The heartbeat of a connected client.** A run of a new client leads only to states in which
the timer is inactive without a connection and active for a connection whose loop runs, if and
only if no step of it starts the loop while the client is connected. -/
theorem connected_has_heartbeat_iff (app : Application U V H) (active closing : Bool) (memory : U)
    (events : List Event) :
    Along (step app) (fun _ _ next ↦ HasHeartbeat next.state) events
        (.start (.initial active closing memory)) ↔
      Along (step app) StartsDisconnected events (.start (.initial active closing memory)) := by
  apply Along.congr
  · exact fun _ _ _ _ hbeating hstep ↦ hasHeartbeat_iff_startsDisconnected hbeating hstep
  · intro event _ client next hbeating hstep hheartbeat
    exact Beating.step hbeating hstep
      ((hasHeartbeat_iff_startsDisconnected hbeating hstep).mp hheartbeat)
  · exact .of_neither rfl rfl

/-- A client that is connected and whose loop is stopped and started again. -/
theorem restarted_without_heartbeat :
    ¬ Along (step quiet) (fun _ _ next ↦ HasHeartbeat next.state)
        [.start, .call (.connect 0 0), .onConnect 0 0, .stop, .start]
        (.start (.initial false false ())) ∧
      ∃ last, runFrom (step quiet)
        [.start, .call (.connect 0 0), .onConnect 0 0, .stop, .start]
        (.start (.initial false false ())) = some last ∧
      last.state.isConnected ∧ last.state.loopThread ∧ ¬ last.state.heartbeatTimer.active :=
  ⟨by decide, _, rfl, rfl, rfl, by decide⟩

end Client

end LibuvNet
