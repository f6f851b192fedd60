import LibuvNet.Server.Registry

/-!
# Connections that cannot be served

Accepting a connection is spread over the constructor of the session, its `start` and
`on_connection`.  The first drops the result of `uv_accept`, the second that of `start_read`, and
`on_connection` has entered the session in `sessions_` before it starts it.  Nothing is undone, so
a connection that cannot be accepted or read leaves behind what any other does: a session in the
registry with its heartbeat running, announced to the connect handler.
-/

namespace LibuvNet

namespace Server

open Foundation

variable {U V H : Type*} {app : Application U V H} {world next : World U V H}

/-- `Server::on_connection`, given the results of `uv_accept` and of `uv_read_start`.  The first is
dropped where it is called. -/
def onConnectionAccepting (app : Application U V H) (status _acceptResult readResult : ℤ)
    (world : World U V H) : Outcome Exn (World U V H) :=
  onConnection app status readResult world

/-- The world after a connection shows no session that was not there before: none in `sessions_`,
none that the connect handler was told of, none with a running timer. -/
structure LeavesNothing (world next : World U V H) : Prop where
  sessions : next.sessions = world.sessions
  quiet : UserCall.connect ∉ next.callsOf world.created
  stopped : (next.slot world.created).core.heartbeatTimer.active = false

/-- The world after a connection shows the new session: in `sessions_`, told to the connect
handler, and with a heartbeat timer that ran when the handler was called. -/
structure LeavesSession (app : Application U V H) (world next : World U V H) : Prop where
  sessions : next.sessions = world.sessions ++ [world.created]
  announced : UserCall.connect ∈ next.callsOf world.created
  started : ∃ accepted : World U V H,
    (accepted.slot world.created).core.heartbeatTimer.active = true ∧
      app.react (app.connectHandler world.created accepted) accepted = .returned next

theorem LeavesSession.not_leavesNothing (hleaves : LeavesSession app world next) :
    ¬ LeavesNothing world next := fun hnothing ↦ hnothing.quiet hleaves.announced

/-- The heartbeat of a session is started whatever `uv_read_start` says. -/
theorem create_heartbeatTimer (world : World U V H) (readResult : ℤ) :
    ((world.create readResult).slot world.created).core.heartbeatTimer.active = true := by
  change (Function.update world.slot world.created _ world.created).core.heartbeatTimer.active = _
  rw [Function.update_self]
  rfl

theorem onConnection_leavesSession {status readResult : ℤ} (hstatus : ¬ status < 0)
    (hreturned : onConnection app status readResult world = .returned next) :
    LeavesSession app world next := by
  rw [onConnection, if_neg hstatus] at hreturned
  have hserves : Serves world.created [] _ next := .react world.created hreturned
  constructor
  · exact hserves.sessions
  · rw [hserves.callsOf_self, World.callsOf_record_self]
    simp
  · exact ⟨(world.create readResult).record world.created .connect,
      create_heartbeatTimer world readResult, hreturned⟩

/-- **Connections that fail.** In every world, a connection leaves its session behind when
`on_connection` returns, whatever errors `uv_accept` and `uv_read_start` report. -/
theorem failed_connection_leaves_session (app : Application U V H) (world next : World U V H)
    (status acceptResult readResult : ℤ) (hstatus : 0 ≤ status)
    (hreturned : onConnectionAccepting app status acceptResult readResult world =
      .returned next) :
    LeavesSession app world next ∧ ¬ LeavesNothing world next := by
  have hleaves := onConnection_leavesSession (not_lt.mpr hstatus) hreturned
  exact ⟨hleaves, hleaves.not_leavesNothing⟩

/-- A connection that `uv_accept` does not find, `UV_EAGAIN`, and that cannot be read from,
`UV_ENOTCONN`. -/
theorem failed_connection_leaves_session_first :
    ∃ next, onConnectionAccepting hangingUp 0 (-11) (-107) (.initial ()) = .returned next ∧
      LeavesSession hangingUp (.initial ()) next ∧ ¬ LeavesNothing (.initial ()) next :=
  ⟨_, rfl, failed_connection_leaves_session hangingUp (.initial ()) _ 0 (-11) (-107) (by decide)
    rfl⟩

/-- After it the registry has a session, which was announced and whose heartbeat runs. -/
theorem failed_connection_registered :
    ∃ next, onConnectionAccepting hangingUp 0 (-11) (-107) (.initial ()) = .returned next ∧
      next.sessions = [0] ∧ next.callsOf 0 = [.connect] ∧
      (next.slot 0).core.heartbeatTimer.active = true ∧ ¬ LeavesNothing (.initial ()) next := by
  refine ⟨_, rfl, rfl, rfl, rfl, fun hnothing ↦ ?_⟩
  have hsessions := hnothing.sessions
  revert hsessions
  decide

end Server

end LibuvNet
