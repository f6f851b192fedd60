import LibuvNet.Session.Life

/-!
# The timer of a closed session

What happens to the members of a session is a sequence of operations: the functions of the
application's interface and what the callbacks do.  `close` closes the socket and leaves the
heartbeat timer running, where `Client::disconnect` stops it; and `start` starts the timer of a
session that is closed already.  In every other case a closed session is quiet.
-/

namespace LibuvNet

open Foundation

namespace Session

variable {U V H : Type*}

/-- What can happen to the members of a session, with the time and what libuv answers. -/
inductive Operation where
  | start (now : ℕ) (readResult : ℤ)
  | startRead (readResult : ℤ)
  | stop
  | close
  | send (packet : Packet) (write : WriteCall) (heap : Memory UInt8)
  | hearHeartbeat (now : ℕ)
  | readError
  | onWrite (status : ℤ)
  | onClose
  | tick (write : WriteCall) (now : ℕ) (heap : Memory UInt8)
  | transmit (heap : Memory UInt8) (count : ℕ)

namespace Operation

/-- The callbacks have to be due. -/
def Due (core : Core) : Operation → Prop
  | readError => core.socket.reading
  | onWrite status => core.socket.CanReportWrite status
  | onClose => 0 < core.socket.closeReqs
  | tick _ now _ => core.heartbeatTimer.active ∧ core.heartbeatTimer.due ≤ now
  | transmit _ _ => ¬ core.socket.closing
  | _ => True

instance (core : Core) (operation : Operation) : Decidable (operation.Due core) := by
  unfold Due
  cases operation <;> infer_instance

def run (host : Host) (core : Core) : Operation → Core
  | start now readResult => core.start now readResult
  | startRead readResult => (core.startRead readResult).2
  | stop => core.stop
  | close => core.close
  | send packet write heap => (core.send host packet write heap).2
  | hearHeartbeat now => { core with lastHeartbeatTime := now }
  | readError => core.close
  | onWrite status => core.onWrite status
  | onClose => { core with socket := { core.socket with closeReqs := core.socket.closeReqs - 1 } }
  | tick write now heap => (core.tick host write now heap).2
  | transmit heap count => { core with socket := core.socket.transmit heap count }

/-- The operation calls `Session::close`. -/
def Closes (core : Core) : Operation → Prop
  | close | readError => True
  | onWrite status => status < 0
  | tick _ now _ => heartbeatTimeoutMs < now - core.lastHeartbeatTime
  | _ => False

/-- The operation calls `Session::start`. -/
def Starts : Operation → Prop
  | start _ _ => True
  | _ => False

end Operation

/-- One operation on a session. -/
def operate (host : Host) (core : Core) (operation : Operation) : Option Core :=
  if operation.Due core then some (operation.run host core) else none

theorem run_of_operate {host : Host} {core next : Core} {operation : Operation}
    (hstep : operate host core operation = some next) : operation.run host core = next := by
  unfold operate at hstep
  split at hstep
  · exact Option.some.inj hstep
  · cases hstep

/-- Once the socket is closed, the heartbeat timer is inactive. -/
def Quiet (core : Core) : Prop :=
  core.socket.closing → ¬ core.heartbeatTimer.active

instance (core : Core) : Decidable (Quiet core) := by
  unfold Quiet
  infer_instance

/-- No closed session is started, and no open session is closed while its timer runs. -/
def KeepsQuiet (core : Core) (operation : Operation) (_ : Core) : Prop :=
  (operation.Starts → ¬ core.socket.closing) ∧
    (operation.Closes core → core.socket.closing ∨ ¬ core.heartbeatTimer.active)

/-- Whether a session is closing, its socket is, and its timer is active. -/
def Core.flags (core : Core) : Bool × Bool × Bool :=
  (core.isClosing, core.socket.closing, core.heartbeatTimer.active)

/-- Closing depends on the flags alone. -/
theorem flags_close {core next : Core} (hflags : next.flags = core.flags) :
    next.close.flags = core.close.flags := by
  obtain ⟨hisClosing, hclosing, hactive⟩ : next.isClosing = core.isClosing ∧
      next.socket.closing = core.socket.closing ∧
      next.heartbeatTimer.active = core.heartbeatTimer.active := by
    simpa only [Core.flags, Prod.mk.injEq] using hflags
  unfold Core.close
  rw [hisClosing, hclosing]
  split
  · simp only [Core.flags, hactive, UvTcp.close]
  · exact hflags

/-- Closing leaves a session closed and its timer as it was. -/
theorem flags_closed {core : Core} (hclosing : core.isClosing = core.socket.closing) :
    core.close.flags = (true, true, core.heartbeatTimer.active) := by
  obtain ⟨hisClosing, hsocket⟩ := Core.close_closes hclosing
  rw [Core.flags, hisClosing, hsocket, Core.close_heartbeatTimer]

namespace Operation

variable {core : Core}

/-- What an operation can do to the flags: start the timer, close the session, or at most stop the
timer. -/
theorem run_cases (host : Host) (operation : Operation) :
    operation.Starts ∧ ¬ operation.Closes core ∧
        (operation.run host core).flags = (core.isClosing, core.socket.closing, true) ∨
      ¬ operation.Starts ∧ operation.Closes core ∧
        (operation.run host core).flags = core.close.flags ∨
      ¬ operation.Starts ∧ ¬ operation.Closes core ∧
        ((operation.run host core).flags = core.flags ∨
          (operation.run host core).flags = (core.isClosing, core.socket.closing, false)) := by
  cases operation with
  | start now readResult =>
    refine .inl ⟨trivial, id, ?_⟩
    simp only [run, Core.start, Core.startRead]
    split_ifs <;> rfl
  | startRead readResult =>
    refine .inr (.inr ⟨id, id, .inl ?_⟩)
    simp only [run, Core.startRead]
    split_ifs <;> rfl
  | stop => exact .inr (.inr ⟨id, id, .inr rfl⟩)
  | close => exact .inr (.inl ⟨id, trivial, rfl⟩)
  | send packet write heap =>
    obtain ⟨writer, hsend⟩ := core.send_eq host packet write heap
    refine .inr (.inr ⟨id, id, .inl ?_⟩)
    simp only [run, hsend]
    rfl
  | hearHeartbeat now => exact .inr (.inr ⟨id, id, .inl rfl⟩)
  | readError => exact .inr (.inl ⟨id, trivial, rfl⟩)
  | onWrite status =>
    obtain ⟨canceledWrites, writer, hreport⟩ := core.socket.reportWrite_eq status
    simp only [run, Core.onWrite, hreport]
    split
    · rename_i hstatus
      exact .inr (.inl ⟨id, hstatus, flags_close rfl⟩)
    · rename_i hstatus
      exact .inr (.inr ⟨id, hstatus, .inl rfl⟩)
  | onClose => exact .inr (.inr ⟨id, id, .inl rfl⟩)
  | tick write now heap =>
    simp only [run, Core.tick, Core.onHeartbeatTimer]
    split
    · rename_i hlate
      exact .inr (.inl ⟨id, hlate, flags_close rfl⟩)
    · rename_i hintime
      obtain ⟨writer, hsend⟩ := Core.send_eq
        { core with heartbeatTimer := core.heartbeatTimer.again now } host ⟨.heartbeat, [], 0⟩
        write heap
      refine .inr (.inr ⟨id, hintime, .inl ?_⟩)
      rw [Core.sendHeartbeat, hsend]
      rfl
  | transmit heap count => exact .inr (.inr ⟨id, id, .inl rfl⟩)

end Operation

/-- The session and its socket are closing together, and once they are the timer is inactive. -/
structure ClosedQuietly (core : Core) : Prop where
  closing : core.isClosing = core.socket.closing
  quiet : Quiet core

namespace ClosedQuietly

variable {core : Core}

theorem accept : ClosedQuietly .accept := ⟨rfl, nofun⟩

/-- The flags are all that matters. -/
theorem of_flags {isClosing closing active : Bool}
    (hflags : core.flags = (isClosing, closing, active)) (hclosing : isClosing = closing)
    (hquiet : closing = true → active = false) : ClosedQuietly core := by
  simp only [Core.flags, Prod.mk.injEq] at hflags
  obtain ⟨rfl, rfl, rfl⟩ := hflags
  constructor
  · exact hclosing
  · intro hclosed hactive
    exact nomatch (hquiet hclosed).symm.trans hactive

/-- An operation that keeps the session quiet. -/
theorem run (hquiet : ClosedQuietly core) (host : Host) (operation : Operation) {next : Core}
    (hkeeps : KeepsQuiet core operation next) : ClosedQuietly (operation.run host core) := by
  obtain ⟨hstarts, hcloses⟩ := hkeeps
  rcases operation.run_cases host with ⟨hstart, -, hflags⟩ | ⟨-, hclose, hflags⟩ |
    ⟨-, -, hflags | hflags⟩
  · exact of_flags hflags hquiet.closing fun hclosed ↦ absurd hclosed (hstarts hstart)
  · rw [flags_closed hquiet.closing] at hflags
    apply of_flags hflags rfl
    intro _
    rcases hcloses hclose with hclosed | hinactive
    · exact Bool.eq_false_of_not_eq_true (hquiet.quiet hclosed)
    · exact Bool.eq_false_of_not_eq_true hinactive
  · apply of_flags hflags hquiet.closing
    exact fun hclosed ↦ Bool.eq_false_of_not_eq_true (hquiet.quiet hclosed)
  · exact of_flags hflags hquiet.closing fun _ ↦ rfl

/-- Any other operation leaves an active timer behind on a closed session. -/
theorem keepsQuiet (hquiet : ClosedQuietly core) (host : Host) (operation : Operation) {next : Core}
    (hnext : Quiet (operation.run host core)) : KeepsQuiet core operation next := by
  have hactive {isClosing closing active : Bool}
      (hflags : (operation.run host core).flags = (isClosing, closing, active))
      (hclosed : closing = true) : active = false := by
    simp only [Core.flags, Prod.mk.injEq] at hflags
    obtain ⟨-, rfl, rfl⟩ := hflags
    exact Bool.eq_false_of_not_eq_true (hnext hclosed)
  rcases operation.run_cases host with ⟨hstart, hnot, hflags⟩ | ⟨hnot, -, hflags⟩ |
    ⟨hnot, hnot', -⟩
  · refine ⟨fun _ hclosed ↦ ?_, fun hclose ↦ absurd hclose hnot⟩
    exact nomatch hactive hflags hclosed
  · refine ⟨fun hstart ↦ absurd hstart hnot, fun _ ↦ ?_⟩
    rw [flags_closed hquiet.closing] at hflags
    right
    rw [hactive hflags rfl]
    exact nofun
  · exact ⟨fun hstart ↦ absurd hstart hnot, fun hclose ↦ absurd hclose hnot'⟩

/-- One operation leads to a quiet session exactly when it keeps it quiet. -/
theorem quiet_iff {host : Host} {operation : Operation} {next : Core} (hquiet : ClosedQuietly core)
    (hstep : operate host core operation = some next) :
    Quiet next ↔ KeepsQuiet core operation next := by
  rw [← run_of_operate hstep]
  exact ⟨hquiet.keepsQuiet host operation, fun hkeeps ↦ (hquiet.run host operation hkeeps).quiet⟩

theorem step {host : Host} {operation : Operation} {next : Core} (hquiet : ClosedQuietly core)
    (hstep : operate host core operation = some next) (hnext : Quiet next) :
    ClosedQuietly next := by
  have hkeeps := (hquiet.quiet_iff hstep).mp hnext
  rw [← run_of_operate hstep]
  exact hquiet.run host operation hkeeps

end ClosedQuietly

/-- **A closed session is quiet.** A run of operations on an accepted session leads only to states
in which the timer of a closed session is inactive, if and only if none of them starts a session
whose socket is closed or closes an open one whose timer is active.  A session that is quiet has no
tick of the timer once it is closed. -/
theorem closed_session_quiet_iff (host : Host) (operations : List Operation) :
    (Along (operate host) (fun _ _ next ↦ Quiet next) operations .accept ↔
      Along (operate host) KeepsQuiet operations .accept) ∧
    ∀ core : Core, Quiet core → core.socket.closing → ∀ write now heap,
      operate host core (.tick write now heap) = none := by
  constructor
  · apply Along.congr
    · exact fun _ _ _ _ hquiet hstep ↦ ClosedQuietly.quiet_iff hquiet hstep
    · exact fun _ _ _ _ hquiet hstep hnext ↦ ClosedQuietly.step hquiet hstep hnext
    · exact ClosedQuietly.accept
  · intro core hquiet hclosed write now heap
    exact if_neg fun hdue ↦ hquiet hclosed hdue.1

/-! ## Operations behind the steps of a session -/

/-- Operations lead from one state of the members to another. -/
def Operates (host : Host) (core next : Core) : Prop :=
  ∃ operations, runFrom (operate host) operations core = some next

namespace Operates

variable {host : Host} {core next : Core}

theorem refl (host : Host) (core : Core) : Operates host core core := ⟨[], rfl⟩

theorem trans {last : Core} (hfirst : Operates host core next) (hsecond : Operates host next last) :
    Operates host core last := by
  obtain ⟨first, hfirst⟩ := hfirst
  obtain ⟨second, hsecond⟩ := hsecond
  refine ⟨first ++ second, ?_⟩
  rw [runFrom_append, hfirst, Option.bind_some, hsecond]

/-- One more operation. -/
theorem snoc (hoperates : Operates host core next) (operation : Operation)
    (hdue : operation.Due next) : Operates host core (operation.run host next) := by
  apply hoperates.trans
  refine ⟨[operation], ?_⟩
  rw [runFrom, operate, if_pos hdue, Option.bind_some]
  rfl

/-- Every call of user code is at most one operation. -/
theorem kept (host : Host) (core : Core) : Kept host fun life : Life U ↦
    Operates host core life.core where
  run {life} call hoperates := by
    cases call with
    | start readResult => exact hoperates.snoc (.start life.now readResult) trivial
    | startRead readResult => exact hoperates.snoc (.startRead readResult) trivial
    | stop => exact hoperates.snoc .stop trivial
    | close => exact hoperates.snoc .close trivial
    | send packet write =>
      have hsend := hoperates.snoc (.send packet write life.heap) trivial
      rwa [Operation.run, ← Life.send_core] at hsend
    | elapse milliseconds => exact hoperates
  memory _ hoperates := hoperates

theorem hear {life : Life U} (hoperates : Operates host core life.core) (packet : Packet) :
    Operates host core (life.hear packet).core := by
  unfold Life.hear
  dsimp only
  split
  · exact hoperates.snoc (.hearHeartbeat life.now) trivial
  · exact hoperates

/-- What the session itself does at an event is at most one operation, which is due. -/
theorem effect {life : Life U} {event : Event} (hdue : event.Due life) :
    Operates host life.core (event.effect host life).core := by
  have hrefl := refl host life.core
  cases event with
  | call call => exact (kept host life.core).run call hrefl
  | onRead nread base =>
    simp only [Event.effect]
    split_ifs
    · exact hrefl.snoc .readError hdue.1
    · exact hrefl
    · exact hrefl
  | onWrite status =>
    have honWrite := hrefl.snoc (.onWrite status) hdue
    rwa [Operation.run, ← Life.onWrite_core] at honWrite
  | onClose => exact hrefl.snoc .onClose hdue
  | onHeartbeatTimer write =>
    have htick := hrefl.snoc (.tick write life.now life.heap) hdue
    rwa [Operation.run, ← Life.tick_core] at htick
  | transmit count => exact hrefl.snoc (.transmit life.heap count) hdue

/-- Whatever happens to a session and its user, its members go through operations. -/
theorem run {app : Application U V H} {events : List Event} {session last : Receiver (Life U) H}
    (hrun : runFrom (step app) events session = some last) :
    Operates app.host session.state.core last.state.core := by
  have hstep {before after : Receiver (Life U) H} {event : Event}
      (hbefore : Operates app.host session.state.core before.state.core)
      (hstep : step app before event = some after) :
      Operates app.host session.state.core after.state.core := by
    obtain ⟨hdue, -⟩ := step_eq_some hstep
    have heffect : Operates app.host before.state.core
        (event.effect app.host before.state).core := effect hdue
    exact step_keeps (kept app.host session.state.core) (fun packet hheard ↦ hheard.hear packet)
      (hbefore.trans heffect) hstep
  exact runFrom_invariant hstep (refl app.host session.state.core) hrun

end Operates

/-- A session that is started and closed keeps its timer. -/
theorem closed_session_ticks :
    ¬ Along (operate (.wide .little)) (fun _ _ next ↦ Quiet next) [.start 0 0, .close] .accept ∧
      ∃ last, runFrom (operate (.wide .little)) [.start 0 0, .close] .accept = some last ∧
        ∃ next, operate (.wide .little) last
          (.tick ⟨0, ⟨0, 0⟩, 0, 12⟩ 30000 ⟨fun _ ↦ [], []⟩) = some next :=
  ⟨by decide, _, rfl, _, rfl⟩

end Session

end LibuvNet
