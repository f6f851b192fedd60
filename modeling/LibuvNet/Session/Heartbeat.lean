import LibuvNet.Session.Life

/-!
# The heartbeat of a session

A session takes the time whenever its heartbeat is started and whenever it handles a `HEARTBEAT`
packet, and at no other moment.  A tick of the timer closes the session if that time is longer ago
than the timeout, and sends a heartbeat otherwise.  So a peer whose heartbeats keep coming is
never dropped, and one that falls silent is dropped at the first tick after the timeout.
-/

namespace LibuvNet

open Foundation

namespace Session

variable {U V H : Type*}

/-- The member `last_heartbeat_time_` is the time of the last sign of life, and while the timer
watches an open session the last beat came in time. -/
structure OnTime (life : Life U) : Prop where
  last : life.core.lastHeartbeatTime = life.lastSign
  beat_le : life.lastBeat ≤ life.now
  watched : ¬ life.core.isClosing → life.core.heartbeatTimer.active →
    life.lastBeat ≤ life.lastSign + heartbeatTimeoutMs
  closing : life.core.isClosing = life.core.socket.closing

namespace OnTime

variable {life : Life U}

theorem accepted (now : ℕ) (memory : U) : OnTime (.accepted now memory : Life U) where
  last := rfl
  beat_le := Nat.zero_le now
  watched := nofun
  closing := rfl

/-- Without a new note, the timer, the flags and the time taken are all that matters. -/
theorem congr {next : Life U} (hontime : OnTime life) (hlog : next.log = life.log)
    (hnow : life.now ≤ next.now)
    (hlast : next.core.lastHeartbeatTime = life.core.lastHeartbeatTime)
    (hactive : next.core.heartbeatTimer.active = life.core.heartbeatTimer.active)
    (hclosing : next.core.isClosing = life.core.isClosing)
    (hsocket : next.core.socket.closing = life.core.socket.closing) : OnTime next := by
  have hsign : next.lastSign = life.lastSign := congrArg (lastTime Note.IsSign) hlog
  have hbeat : next.lastBeat = life.lastBeat := congrArg (lastTime Note.IsBeat) hlog
  constructor
  · rw [hlast, hsign]
    exact hontime.last
  · rw [hbeat]
    exact hontime.beat_le.trans hnow
  · rw [hclosing, hactive, hbeat, hsign]
    exact hontime.watched
  · rw [hclosing, hsocket]
    exact hontime.closing

/-- A note that is neither a sign nor a beat does not matter. -/
theorem record (hontime : OnTime life) {note : Note} (hsign : ¬ note.IsSign)
    (hbeat : ¬ note.IsBeat) : OnTime (life.record note) := by
  have hsameSign : (life.record note).lastSign = life.lastSign :=
    lastTime_snoc_of_not hsign life.log life.now
  have hsameBeat : (life.record note).lastBeat = life.lastBeat :=
    lastTime_snoc_of_not hbeat life.log life.now
  constructor
  · rw [hsameSign]
    exact hontime.last
  · rw [hsameBeat]
    exact hontime.beat_le
  · rw [hsameBeat, hsameSign]
    exact hontime.watched
  · exact hontime.closing

/-- A closing session is not watched any more. -/
theorem of_closing (hlast : life.core.lastHeartbeatTime = life.lastSign)
    (hbeat : life.lastBeat ≤ life.now) (hclosing : life.core.isClosing = true)
    (hsocket : life.core.socket.closing = true) : OnTime life where
  last := hlast
  beat_le := hbeat
  watched hopen := absurd hclosing hopen
  closing := hclosing.trans hsocket.symm

theorem start (hontime : OnTime life) (readResult : ℤ) : OnTime (life.start readResult) := by
  have hsign : (life.start readResult).lastSign = life.now :=
    lastTime_snoc_of trivial life.log life.now
  have hbeat : (life.start readResult).lastBeat = life.now :=
    lastTime_snoc_of trivial life.log life.now
  constructor
  · exact hsign.symm
  · exact hbeat.le
  · intro _ _
    rw [hbeat, hsign]
    exact Nat.le_add_right _ _
  · change (life.core.start life.now readResult).isClosing =
      (life.core.start life.now readResult).socket.closing
    unfold Core.start Core.startRead
    split_ifs <;> exact hontime.closing

theorem startRead (hontime : OnTime life) (readResult : ℤ) :
    OnTime (life.startRead readResult) := by
  unfold Life.startRead Core.startRead
  split_ifs <;> exact hontime.congr rfl le_rfl rfl rfl rfl rfl

theorem stop (hontime : OnTime life) : OnTime life.stop where
  last := hontime.last
  beat_le := hontime.beat_le
  watched _ := nofun
  closing := hontime.closing

theorem close (hontime : OnTime life) : OnTime life.close := by
  have hclosed : OnTime { life with core := life.core.close } := by
    unfold Core.close
    split
    · exact of_closing hontime.last hontime.beat_le rfl rfl
    · exact hontime
  exact hclosed.record nofun nofun

theorem send (hontime : OnTime life) (host : Host) (packet : Packet) (write : WriteCall) :
    OnTime (life.send host packet write) := by
  unfold Life.send
  split
  · exact hontime
  · obtain ⟨writer, hsend⟩ := life.core.send_eq host packet write life.heap
    have hsent : OnTime { life with
        heap := (life.core.send host packet write life.heap).1
        core := (life.core.send host packet write life.heap).2 } := by
      rw [hsend]
      exact hontime.congr rfl le_rfl rfl rfl rfl rfl
    exact hsent.record nofun nofun

theorem elapse (hontime : OnTime life) (milliseconds : ℕ) : OnTime (life.elapse milliseconds) :=
  hontime.congr rfl (Nat.le_add_right _ _) rfl rfl rfl rfl

theorem hear (hontime : OnTime life) (packet : Packet) : OnTime (life.hear packet) := by
  unfold Life.hear
  dsimp only
  split
  · rename_i htype
    have hkind : Note.IsSign (.handled packet) := htype
    have hsign : (life.record (.handled packet)).lastSign = life.now :=
      lastTime_snoc_of hkind life.log life.now
    have hbeat : (life.record (.handled packet)).lastBeat = life.lastBeat :=
      lastTime_snoc_of_not nofun life.log life.now
    constructor
    · exact hsign.symm
    · exact hbeat.le.trans hontime.beat_le
    · intro _ _
      calc (life.record (.handled packet)).lastBeat
          = life.lastBeat := hbeat
        _ ≤ life.now := hontime.beat_le
        _ = (life.record (.handled packet)).lastSign := hsign.symm
        _ ≤ (life.record (.handled packet)).lastSign + heartbeatTimeoutMs := Nat.le_add_right _ _
    · exact hontime.closing
  · rename_i htype
    exact hontime.record htype nofun

theorem kept (host : Host) : Kept host (OnTime : Life U → Prop) where
  run call hontime := by
    cases call with
    | start readResult => exact hontime.start readResult
    | startRead readResult => exact hontime.startRead readResult
    | stop => exact hontime.stop
    | close => exact hontime.close
    | send packet write => exact hontime.send host packet write
    | elapse milliseconds => exact hontime.elapse milliseconds
  memory _ hontime := hontime.congr rfl le_rfl rfl rfl rfl rfl

theorem tick (hontime : OnTime life) (host : Host) (write : WriteCall) :
    OnTime (life.tick host write) := by
  unfold Life.tick
  dsimp only
  set ticked := { life with
    core := { life.core with
      heartbeatTimer := life.core.heartbeatTimer.again life.now } }.record .ticked with hticked
  have hsign : ticked.lastSign = life.lastSign := lastTime_snoc_of_not nofun life.log life.now
  have hbeat : ticked.lastBeat = life.now := lastTime_snoc_of trivial life.log life.now
  split
  · have hclosed : ticked.core.close.isClosing = true ∧ ticked.core.close.socket.closing = true :=
      Core.close_closes hontime.closing
    have htime : OnTime { ticked with core := ticked.core.close } := by
      apply of_closing _ _ hclosed.1 hclosed.2
      · calc ticked.core.close.lastHeartbeatTime
            = life.core.lastHeartbeatTime := Core.close_lastHeartbeatTime _
          _ = ticked.lastSign := hontime.last.trans hsign.symm
      · exact hbeat.le
    exact htime.record nofun nofun
  · rename_i hintime
    apply send
    constructor
    · exact hontime.last.trans hsign.symm
    · exact hbeat.le
    · intro _ _
      rw [hbeat, hsign, ← hontime.last]
      exact Nat.sub_le_iff_le_add'.mp (not_lt.mp hintime)
    · exact hontime.closing

theorem onWrite (hontime : OnTime life) (status : ℤ) : OnTime (life.onWrite status) := by
  obtain ⟨canceledWrites, writer, hreport⟩ := life.core.socket.reportWrite_eq status
  unfold Life.onWrite
  rw [hreport]
  dsimp only
  split
  · apply close
    exact hontime.congr rfl le_rfl rfl rfl rfl rfl
  · exact hontime.congr rfl le_rfl rfl rfl rfl rfl

/-- What the session does at an event leaves it on time. -/
theorem effect (hontime : OnTime life) (host : Host) (event : Event) :
    OnTime (event.effect host life) := by
  cases event with
  | call call => exact (kept host).run call hontime
  | onRead nread base =>
    simp only [Event.effect]
    split_ifs
    · exact hontime.close
    · exact hontime
    · exact hontime.record id id
  | onWrite status => exact hontime.onWrite status
  | onClose => exact hontime.congr rfl le_rfl rfl rfl rfl rfl
  | onHeartbeatTimer write => exact hontime.tick host write
  | transmit count => exact hontime.congr rfl le_rfl rfl rfl rfl rfl

theorem step {app : Application U V H} {session next : Receiver (Life U) H} {event : Event}
    (hontime : OnTime session.state) (hstep : Session.step app session event = some next) :
    OnTime next.state :=
  step_keeps (kept app.host) (fun packet hheard ↦ hheard.hear packet)
    (hontime.effect app.host event) hstep

end OnTime

/-! ## The log of a run -/

section Log

variable {app : Application U V H} {session next : Receiver (Life U) H}

/-- A call of user code notes no chunk and no packet. -/
theorem call_log (host : Host) (life : Life U) (call : Call) :
    ∃ notes, (call.run host life).log = life.log ++ notes ∧
      Note.chunks notes = [] ∧ Note.packets notes = [] := by
  cases call with
  | start readResult => exact ⟨[(life.now, .started)], rfl, rfl, rfl⟩
  | startRead readResult => exact ⟨[], (List.append_nil _).symm, rfl, rfl⟩
  | stop => exact ⟨[], (List.append_nil _).symm, rfl, rfl⟩
  | close => exact ⟨[(life.now, .closeCalled)], rfl, rfl, rfl⟩
  | send packet write =>
    simp only [Call.run, Life.send]
    split
    · exact ⟨[], (List.append_nil _).symm, rfl, rfl⟩
    · exact ⟨[(life.now, .written packet)], rfl, rfl, rfl⟩
  | elapse milliseconds => exact ⟨[], (List.append_nil _).symm, rfl, rfl⟩

/-- User code does not change what a log says of chunks and packets. -/
theorem kept_wire (host : Host) (chunks : List Bytes) (packets : List Packet) :
    Kept host fun life : Life U ↦
      Note.chunks life.log = chunks ∧ Note.packets life.log = packets where
  run {life} call hwire := by
    obtain ⟨notes, hlog, hchunks, hpackets⟩ := call_log host life call
    rw [hlog, Note.chunks_append, Note.packets_append, hchunks, hpackets, List.append_nil,
      List.append_nil]
    exact hwire
  memory _ hwire := hwire

/-- User code only adds to a log. -/
theorem kept_extends (host : Host) (log : List (ℕ × Note)) :
    Kept host fun life : Life U ↦ log <+: life.log where
  run {life} call hextends := by
    obtain ⟨notes, hlog, -⟩ := call_log host life call
    rw [hlog]
    exact hextends.trans (List.prefix_append _ _)
  memory _ hextends := hextends

theorem hear_log (life : Life U) (packet : Packet) :
    (life.hear packet).log = life.log ++ [(life.now, .handled packet)] := by
  unfold Life.hear
  dsimp only
  split <;> rfl

/-- A tick notes itself and one thing more. -/
theorem tick_log (host : Host) (life : Life U) (write : WriteCall)
    (hopen : ¬ life.core.isClosing) :
    (life.tick host write).log = life.log ++ [(life.now, .ticked), (life.now,
      if heartbeatTimeoutMs < life.now - life.core.lastHeartbeatTime then .closeCalled
      else .written ⟨.heartbeat, [], 0⟩)] := by
  unfold Life.tick
  dsimp only [Life.record]
  split
  · exact List.append_assoc _ _ _
  · rw [Life.send, if_neg hopen]
    exact List.append_assoc _ _ _

/-- At any event a session only adds to its log. -/
theorem effect_extends (host : Host) (life : Life U) (event : Event) :
    life.log <+: (event.effect host life).log := by
  have hrecord (life : Life U) (note : Note) : life.log <+: (life.record note).log :=
    List.prefix_append _ _
  cases event with
  | call call => exact (kept_extends host life.log).run call List.prefix_rfl
  | onRead nread base =>
    simp only [Event.effect]
    split_ifs
    · exact hrecord _ _
    · exact List.prefix_rfl
    · exact hrecord _ _
  | onWrite status =>
    simp only [Event.effect, Life.onWrite]
    split
    · exact hrecord _ _
    · exact List.prefix_rfl
  | onClose => exact List.prefix_rfl
  | onHeartbeatTimer write =>
    simp only [Event.effect, Life.tick]
    have hticked := hrecord { life with
      core := { life.core with heartbeatTimer := life.core.heartbeatTimer.again life.now } } .ticked
    split
    · exact hticked.trans (hrecord _ _)
    · exact (kept_extends host life.log).run (.send ⟨.heartbeat, [], 0⟩ write) hticked
  | transmit count => exact List.prefix_rfl

theorem step_extends {event : Event} (hstep : step app session event = some next) :
    session.state.log <+: next.state.log := by
  apply step_keeps (kept_extends app.host session.state.log) _ (effect_extends _ _ event) hstep
  intro life packet hextends
  rw [hear_log]
  exact hextends.trans (List.prefix_append _ _)

/-- The packets handled so far are those of the chunks received so far, and the buffer holds what
they leave. -/
def Logged (app : Application U V H) (session : Receiver (Life U) H) : Prop :=
  (wireDecoder app.host).decode (Note.chunks session.state.log) [] =
    (Note.packets session.state.log, session.buffer)

theorem Logged.state {life : Life U} (hlogged : Logged app session)
    (hwire : Note.chunks life.log = Note.chunks session.state.log ∧
      Note.packets life.log = Note.packets session.state.log) :
    Logged app { session with state := life } := by
  unfold Logged
  rw [hwire.1, hwire.2]
  exact hlogged

/-- Receiving a chunk handles the packets it completes. -/
theorem Logged.received (hlogged : Logged app session) {base : Bytes}
    (happend : appendToBufferBy app.host app.handle base
      { session with state := session.state.record (.received base) } = .returned next) :
    Logged app next := by
  have hdrain := drain_of_appendToBufferBy happend
  have hhandle {packet : Packet} {endpoint after : Endpoint (Life U) H}
      (hhandle : app.handle packet endpoint = .returned after) :
      Note.chunks after.state.log = Note.chunks endpoint.state.log ∧
        Note.packets after.state.log = Note.packets endpoint.state.log ++ [packet] := by
    apply Application.handle_keeps (kept_wire app.host _ _) _ hhandle
    rw [hear_log]
    exact ⟨(Note.chunks_append _ _).trans (List.append_nil _), Note.packets_append _ _⟩
  have hpackets := (wireDecoder app.host).drain_traced app.handle
    (fun endpoint ↦ Note.packets endpoint.state.log) (fun packet ↦ [packet])
    (fun _ _ _ hhandled ↦ (hhandle hhandled).2) hdrain
  have hchunks := (wireDecoder app.host).drain_preserves app.handle
    (fun endpoint ↦ Note.chunks endpoint.state.log = Note.chunks session.state.log ++ [base])
    (fun _ _ hholds _ hhandled ↦ (hhandle hhandled).1.trans hholds)
    (Note.chunks_append _ _) hdrain
  obtain ⟨hrest, hpackets⟩ := hpackets
  have hbefore : Note.packets (session.state.record (.received base)).log =
      Note.packets session.state.log :=
    (Note.packets_append _ _).trans (List.append_nil _)
  rw [hbefore, List.flatMap_singleton'] at hpackets
  unfold Logged at hlogged ⊢
  calc (wireDecoder app.host).decode (Note.chunks next.state.log) []
      = (wireDecoder app.host).decode (Note.chunks session.state.log ++ [base]) [] := by
        rw [hchunks]
    _ = (Note.packets session.state.log ++
          ((wireDecoder app.host).decode [base] session.buffer).1,
        ((wireDecoder app.host).decode [base] session.buffer).2) := by
        rw [FrameDecoder.decode_append, hlogged]
    _ = (Note.packets next.state.log, next.buffer) := by
        rw [hpackets, hrest]
        simp only [FrameDecoder.decode, List.append_nil]

/-- Away from the receive loop a session notes no chunk and no packet. -/
theorem effect_wire (host : Host) (life : Life U) {event : Event}
    (hevent : ∀ nread base, event = .onRead nread base → nread ≤ 0) :
    Note.chunks (event.effect host life).log = Note.chunks life.log ∧
      Note.packets (event.effect host life).log = Note.packets life.log := by
  have hwire := kept_wire (U := U) host (Note.chunks life.log) (Note.packets life.log)
  cases event with
  | call call => exact hwire.run call ⟨rfl, rfl⟩
  | onRead nread base =>
    simp only [Event.effect]
    split_ifs with hnegative hzero
    · exact hwire.run .close ⟨rfl, rfl⟩
    · exact ⟨rfl, rfl⟩
    · exact absurd (le_antisymm (hevent nread base rfl) (not_lt.mp hnegative)) hzero
  | onWrite status =>
    simp only [Event.effect, Life.onWrite]
    split
    · exact hwire.run .close ⟨rfl, rfl⟩
    · exact ⟨rfl, rfl⟩
  | onClose => exact ⟨rfl, rfl⟩
  | onHeartbeatTimer write =>
    simp only [Event.effect, Life.tick]
    have hticked := And.intro (Note.chunks_append life.log [(life.now, .ticked)])
      (Note.packets_append life.log [(life.now, .ticked)])
    rw [show Note.chunks [(life.now, Note.ticked)] = [] from rfl,
      show Note.packets [(life.now, Note.ticked)] = [] from rfl, List.append_nil,
      List.append_nil] at hticked
    split
    · exact hwire.run .close hticked
    · exact hwire.run (.send ⟨.heartbeat, [], 0⟩ write) hticked
  | transmit count => exact ⟨rfl, rfl⟩

/-- Every step keeps the log in line with the decoder. -/
theorem Logged.step {event : Event} (hlogged : Logged app session)
    (hstep : Session.step app session event = some next) : Logged app next := by
  obtain ⟨-, hevent⟩ := step_eq_some hstep
  cases event with
  | onRead nread base =>
    simp only [handleEvent, onRead] at hevent
    split_ifs at hevent
    · cases hevent
      apply hlogged.state
      exact (kept_wire app.host _ _).run .close ⟨rfl, rfl⟩
    · cases hevent
      exact hlogged
    · exact hlogged.received hevent
  | onClose =>
    obtain ⟨life, hcalled, rfl⟩ := Outcome.map_eq_returned hevent
    apply hlogged.state
    apply Application.callHandler_preserves (kept_wire app.host _ _) _ hcalled
    exact ⟨rfl, rfl⟩
  | call | onWrite | onHeartbeatTimer | transmit =>
    cases hevent
    apply hlogged.state
    exact effect_wire app.host session.state (by simp)

end Log

/-! ## Detection -/

section Detection

variable (app : Application U V H)

/-- While the timer runs, no more time passes without a sign of life than the timeout. -/
def InTime (_ : Receiver (Life U) H) (_ : Event) (next : Receiver (Life U) H) : Prop :=
  next.state.core.heartbeatTimer.active →
    next.state.now - next.state.lastSign ≤ heartbeatTimeoutMs

instance (session : Receiver (Life U) H) (event : Event) (next : Receiver (Life U) H) :
    Decidable (InTime session event next) := by
  unfold InTime
  infer_instance

/-- A tick of the timer does not close the session. -/
def KeepsOpen (session : Receiver (Life U) H) (event : Event) (next : Receiver (Life U) H) : Prop :=
  ∀ write, event = .onHeartbeatTimer write → ¬ session.state.core.isClosing →
    ¬ next.state.core.isClosing

/-- What heartbeat detection promises of a session in some state. -/
structure Detects (session : Receiver (Life U) H) : Prop where
  /-- The time taken is that of the last sign of life. -/
  last : session.state.core.lastHeartbeatTime = session.state.lastSign
  /-- The packets handled are those of the chunks received. -/
  packets : (wireDecoder app.host).decode (Note.chunks session.state.log) [] =
    (Note.packets session.state.log, session.buffer)
  /-- A tick calls `close` if the timeout has passed, and hands nothing to `uv_write`; otherwise it
  sends one `HEARTBEAT` packet, which `uv_write` accepts unless it returns an error. -/
  tick : ∀ write next, step app session (.onHeartbeatTimer write) = some next →
    ¬ session.state.core.isClosing →
    next.state.log = session.state.log ++ [(session.state.now, .ticked), (session.state.now,
      if heartbeatTimeoutMs < session.state.now - session.state.lastSign then .closeCalled
      else .written ⟨.heartbeat, [], 0⟩)] ∧
    next.state.core.socket.writer.accepted = session.state.core.socket.writer.accepted ++
      (if heartbeatTimeoutMs < session.state.now - session.state.lastSign ∨ write.result ≠ 0 then []
      else [Packet.serialize app.host write.padding ⟨.heartbeat, [], 0⟩]) ∧
    (next.state.core.isClosing ↔
      heartbeatTimeoutMs < session.state.now - session.state.lastSign)
  /-- Nothing but a sign of life changes the time taken. -/
  others : ∀ event next, step app session event = some next →
    ∃ notes, next.state.log = session.state.log ++ notes ∧
      ((∀ note ∈ notes, ¬ Note.IsSign note.2) →
        next.state.core.lastHeartbeatTime = session.state.core.lastHeartbeatTime)
  /-- If no more than `D` ms have passed since the timer ticked or was started, no more than the
  timeout and `D` ms have passed since the last sign of life. -/
  stale : ¬ session.state.core.isClosing → session.state.core.heartbeatTimer.active →
    ∀ D, session.state.now - session.state.lastBeat ≤ D →
      session.state.now - session.state.lastSign ≤ heartbeatTimeoutMs + D

variable {app} {session next : Receiver (Life U) H}

/-- A tick closes an open session if and only if the timeout has passed. -/
theorem OnTime.tick_isClosing (hontime : OnTime session.state) (host : Host) (write : WriteCall)
    (hopen : ¬ session.state.core.isClosing) :
    (session.state.tick host write).core.isClosing ↔
      heartbeatTimeoutMs < session.state.now - session.state.lastSign := by
  rw [Life.tick_core, ← hontime.last]
  unfold Core.tick Core.onHeartbeatTimer
  split
  · rename_i hlate
    apply iff_of_true _ hlate
    apply (Core.close_closes _).1
    exact hontime.closing
  · rename_i hintime
    apply iff_of_false _ hintime
    unfold Core.sendHeartbeat Core.send
    split <;> exact hopen

theorem OnTime.detects (hontime : OnTime session.state) (hlogged : Logged app session) :
    Detects app session where
  last := hontime.last
  packets := hlogged
  tick write next hstep hopen := by
    obtain ⟨-, hevent⟩ := step_eq_some hstep
    cases hevent
    have hlog := tick_log app.host session.state write hopen
    have haccepted := session.state.core.tick_accepted app.host write session.state.now
      session.state.heap hopen
    rw [← Life.tick_core, hontime.last] at haccepted
    rw [hontime.last] at hlog
    exact ⟨hlog, haccepted, hontime.tick_isClosing app.host write hopen⟩
  others event next hstep := by
    obtain ⟨notes, hlog⟩ := step_extends hstep
    have hnext : OnTime next.state := hontime.step hstep
    refine ⟨notes, hlog.symm, fun hothers ↦ ?_⟩
    calc next.state.core.lastHeartbeatTime
        = lastTime Note.IsSign (session.state.log ++ notes) := by rw [hnext.last, hlog]; rfl
      _ = session.state.lastSign := lastTime_append_of_not hothers _
      _ = session.state.core.lastHeartbeatTime := hontime.last.symm
  stale hopen hactive D hbeat := by
    have hwatched := hontime.watched hopen hactive
    omega

/-- Neither the clock nor the state of the timer is changed by a tick. -/
theorem tick_now (host : Host) (life : Life U) (write : WriteCall) :
    (life.tick host write).now = life.now := by
  unfold Life.tick Life.send
  dsimp only
  split_ifs <;> rfl

theorem tick_active (host : Host) (core : Core) (write : WriteCall) (now : ℕ)
    (heap : Memory UInt8) :
    (core.tick host write now heap).2.heartbeatTimer.active = core.heartbeatTimer.active := by
  unfold Core.tick Core.onHeartbeatTimer
  split
  · rw [Core.close_heartbeatTimer]
    rfl
  · rename_i hintime
    obtain ⟨writer, hsend⟩ := Core.send_eq
      { core with heartbeatTimer := core.heartbeatTimer.again now } host ⟨.heartbeat, [], 0⟩ write
      heap
    rw [Core.sendHeartbeat, hsend]
    rfl

/-- A tick that comes in time leaves the session open. -/
theorem OnTime.keepsOpen {event : Event} (hontime : OnTime session.state)
    (hstep : Session.step app session event = some next) (hintime : InTime session event next) :
    KeepsOpen session event next := by
  rintro write rfl hopen
  obtain ⟨⟨hactive, -⟩, hevent⟩ := step_eq_some hstep
  cases hevent
  have hsign : (session.state.tick app.host write).lastSign = session.state.lastSign := by
    unfold Life.lastSign
    rw [tick_log app.host session.state write hopen]
    apply lastTime_append_of_not
    intro entry hentry
    rcases List.mem_cons.mp hentry with rfl | hentry
    · exact nofun
    · rw [List.mem_singleton.mp hentry]
      dsimp only
      split <;> exact nofun
  have hwithin : session.state.now - session.state.lastSign ≤ heartbeatTimeoutMs := by
    rw [← hsign, ← tick_now app.host session.state write]
    apply hintime
    change (session.state.tick app.host write).core.heartbeatTimer.active = true
    rw [Life.tick_core, tick_active]
    exact hactive
  intro hclosing
  have hlate := (hontime.tick_isClosing app.host write hopen).mp hclosing
  exact absurd hwithin (not_le.mpr hlate)

/-- **Heartbeat detection.** In every state of every run the promises of detection hold, and a run
in which the signs of life never stay away for longer than the timeout is not closed by a tick. -/
theorem heartbeat_detection_exact (app : Application U V H) (now : ℕ) (memory : U)
    (events : List Event) (last : Receiver (Life U) H)
    (hrun : runFrom (step app) events (.start (.accepted now memory)) = some last) :
    Detects app last ∧
      (Along (step app) InTime events (.start (.accepted now memory)) →
        Along (step app) KeepsOpen events (.start (.accepted now memory))) := by
  have hontime : OnTime (Receiver.start (.accepted now memory) : Receiver (Life U) H).state :=
    .accepted now memory
  constructor
  · have hlast : OnTime last.state := runFrom_invariant OnTime.step hontime hrun
    have hstart : Logged app (.start (.accepted now memory) : Receiver (Life U) H) := rfl
    have hlogged : Logged app last := runFrom_invariant Logged.step hstart hrun
    exact hlast.detects hlogged
  · exact Along.mono OnTime.step OnTime.keepsOpen hontime

/-- A tick, a `HEARTBEAT` frame in two pieces, and another tick. -/
def beatingEvents : List Event :=
  [.call (.start 0), .call (.elapse 30000), .onHeartbeatTimer ⟨0, ⟨0, 0⟩, 0, 12⟩,
    .onRead 5 [1, 4, 0, 0, 0], .call (.elapse 30000), .onRead 7 [0, 0, 0, 0, 0, 0, 0],
    .onHeartbeatTimer ⟨0, ⟨0, 0⟩, 0, 12⟩]

/-- Both ticks send a heartbeat. -/
theorem heartbeat_detection_exact_beating :
    ∃ last, runFrom (step quiet) beatingEvents (.start (.accepted 0 ())) = some last ∧
      Detects quiet last ∧ Along (step quiet) KeepsOpen beatingEvents (.start (.accepted 0 ())) ∧
      last.state.core.socket.writer.accepted =
        List.replicate 2 (Packet.serialize (.wide .little) ⟨0, 0⟩ ⟨.heartbeat, [], 0⟩) :=
  have hexact := heartbeat_detection_exact quiet 0 () beatingEvents _ rfl
  ⟨_, rfl, hexact.1, hexact.2 (by decide), by decide⟩

end Detection

end Session

end LibuvNet
