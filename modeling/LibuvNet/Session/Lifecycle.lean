import LibuvNet.Uv.Handle
import Mathlib.Logic.Relation

/-!
# The life of a session

The functions of `session.cpp` around the receive loop.  A session has no clock and no memory of
its own: the time and the heap its vectors live on are arguments.
-/

namespace LibuvNet

open Foundation

namespace Session

/-- `UV_EBUSY`. -/
def uvEbusy : ℤ := -16

/-- The members of a `Session` other than its tables, its handlers and its receive buffer. -/
structure Core where
  socket : UvTcp
  isClosing : Bool
  heartbeatTimer : UvTimer
  lastHeartbeatTime : ℕ
  deriving DecidableEq

namespace Core

/-- The constructor that accepts a connection.  It looks at no result. -/
def accept : Core where
  socket := (UvTcp.raw false false).init
  isClosing := false
  heartbeatTimer := .init
  lastHeartbeatTime := 0

variable (core : Core)

/-- `Session::start_heartbeat`. -/
def startHeartbeat (now : ℕ) : Core :=
  { core with
    lastHeartbeatTime := now
    heartbeatTimer := .start now heartbeatIntervalMs heartbeatIntervalMs }

/-- `Session::stop_heartbeat`. -/
def stopHeartbeat : Core :=
  { core with heartbeatTimer := core.heartbeatTimer.stop }

/-- `Session::start_read`, given the result of `uv_read_start`. -/
def startRead (readResult : ℤ) : ℤ × Core :=
  if core.isClosing then (uvEbusy, core)
  else if readResult ≠ 0 then (readResult, core)
  else (0, { core with socket := core.socket.readStart })

/-- `Session::start`. -/
def start (now : ℕ) (readResult : ℤ) : Core :=
  (core.startRead readResult).2.startHeartbeat now

/-- `Session::stop`. -/
def stop : Core :=
  { core with socket := core.socket.readStop }.stopHeartbeat

/-- `Session::close`. -/
def close : Core :=
  if ¬ core.isClosing ∧ ¬ core.socket.closing then
    { core with isClosing := true, socket := core.socket.close true }
  else core

/-- `Session::send`. -/
def send (host : Host) (packet : Packet) (write : WriteCall) (heap : Memory UInt8) :
    Memory UInt8 × Core :=
  if core.isClosing then (heap, core)
  else
    let written := writeLocal host packet write heap core.socket
    (written.1, { core with socket := written.2 })

/-- `Session::send_heartbeat`. -/
def sendHeartbeat (host : Host) (write : WriteCall) (heap : Memory UInt8) :
    Memory UInt8 × Core :=
  core.send host ⟨.heartbeat, [], 0⟩ write heap

/-- `Session::on_heartbeat_timer`. -/
def onHeartbeatTimer (host : Host) (write : WriteCall) (now : ℕ) (heap : Memory UInt8) :
    Memory UInt8 × Core :=
  if heartbeatTimeoutMs < now - core.lastHeartbeatTime then (heap, core.close)
  else core.sendHeartbeat host write heap

/-- The timer fires: the loop arms it again and calls back. -/
def tick (host : Host) (write : WriteCall) (now : ℕ) (heap : Memory UInt8) :
    Memory UInt8 × Core :=
  { core with heartbeatTimer := core.heartbeatTimer.again now }.onHeartbeatTimer host write now heap

/-- `Session::on_write`. -/
def onWrite (status : ℤ) : Core :=
  let core := { core with socket := core.socket.reportWrite status }
  if status < 0 then core.close else core

@[simp]
theorem close_heartbeatTimer : core.close.heartbeatTimer = core.heartbeatTimer := by
  unfold close
  split <;> rfl

@[simp]
theorem close_lastHeartbeatTime : core.close.lastHeartbeatTime = core.lastHeartbeatTime := by
  unfold close
  split <;> rfl

variable {core} in
/-- `close` leaves a session closed, if nothing else ever closes its socket. -/
theorem close_closes (hclosing : core.isClosing = core.socket.closing) :
    core.close.isClosing = true ∧ core.close.socket.closing = true := by
  unfold close
  split
  · exact ⟨rfl, rfl⟩
  · rename_i hnot
    have hisClosing : core.isClosing = true := by
      by_contra hopen
      exact hnot ⟨hopen, hclosing ▸ hopen⟩
    exact ⟨hisClosing, hclosing ▸ hisClosing⟩

/-- Sending changes the account of the writes only. -/
theorem send_eq (host : Host) (packet : Packet) (write : WriteCall) (heap : Memory UInt8) :
    ∃ writer, (core.send host packet write heap).2 =
      { core with socket := { core.socket with writer := writer } } := by
  unfold send
  split
  · exact ⟨core.socket.writer, rfl⟩
  · obtain ⟨writer, hsocket⟩ := writeLocal_socket host packet heap core.socket write
    refine ⟨writer, ?_⟩
    simp only [hsocket]

/-- What an open session is asked to send it sends, whatever its size. -/
theorem send_accepted (host : Host) (packet : Packet) {write : WriteCall} (heap : Memory UInt8)
    (hopen : core.isClosing = false) (hresult : write.result = 0) :
    (core.send host packet write heap).2.socket.writer.accepted =
      core.socket.writer.accepted ++ [packet.serialize host write.padding] := by
  rw [send, if_neg (by simp [hopen])]
  simp only [writeLocal_accepted host packet heap core.socket hresult]
  exact Writer.submit_accepted ..

/-- A session that is closing, or whose write is refused, sends nothing. -/
theorem send_refused (host : Host) (packet : Packet) {write : WriteCall} (heap : Memory UInt8)
    (hrefused : ¬ (core.isClosing = false ∧ write.result = 0)) :
    (core.send host packet write heap).2.socket.writer.accepted =
      core.socket.writer.accepted := by
  unfold send
  by_cases hclosing : core.isClosing = true
  · rw [if_pos hclosing]
  · have hresult : write.result ≠ 0 := fun hresult ↦
      hrefused ⟨Bool.eq_false_of_not_eq_true hclosing, hresult⟩
    simp only [hclosing, writeLocal_rejected host packet _ _ hresult]
    rfl

/-- A tick of an open session writes one `HEARTBEAT` packet, or nothing once the timeout has
passed. -/
theorem tick_accepted (host : Host) (write : WriteCall) (now : ℕ) (heap : Memory UInt8)
    (hopen : ¬ core.isClosing) :
    (core.tick host write now heap).2.socket.writer.accepted = core.socket.writer.accepted ++
      if heartbeatTimeoutMs < now - core.lastHeartbeatTime ∨ write.result ≠ 0 then []
      else [Packet.serialize host write.padding ⟨.heartbeat, [], 0⟩] := by
  unfold tick onHeartbeatTimer
  by_cases hlate : heartbeatTimeoutMs < now - core.lastHeartbeatTime
  · rw [if_pos hlate, if_pos (.inl hlate), List.append_nil]
    unfold close
    split <;> rfl
  rw [if_neg hlate]
  by_cases hresult : write.result = 0
  · rw [if_neg (not_or.mpr ⟨hlate, not_not.mpr hresult⟩)]
    exact send_accepted _ host _ heap (Bool.eq_false_of_not_eq_true hopen) hresult
  · rw [if_pos (.inr hresult), List.append_nil]
    exact send_refused _ host _ heap fun hsends ↦ hresult hsends.2

end Core

/-- What can happen to an accepted session, short of its close callback. -/
inductive CoreStep (core : Core) : Core → Prop
  | start (now : ℕ) (readResult : ℤ) : CoreStep core (core.start now readResult)
  | stop : CoreStep core core.stop
  | close : CoreStep core core.close
  | send (host : Host) (packet : Packet) (write : WriteCall) (heap : Memory UInt8) :
      CoreStep core (core.send host packet write heap).2
  | hearHeartbeat (now : ℕ) : CoreStep core { core with lastHeartbeatTime := now }
  | tick (host : Host) (write : WriteCall) (now : ℕ) (heap : Memory UInt8) :
      CoreStep core (core.tick host write now heap).2
  | onWrite (status : ℤ) : CoreStep core (core.onWrite status)
  | transmit (heap : Memory UInt8) (count : ℕ) :
      CoreStep core { core with socket := core.socket.transmit heap count }

/-- No step takes a session back that is closing. -/
theorem CoreStep.isClosing {core next : Core} (hstep : CoreStep core next)
    (hclosing : core.isClosing) : next.isClosing := by
  have hclose (core : Core) (hclosing : core.isClosing) : core.close.isClosing := by
    unfold Core.close
    split_ifs
    · rfl
    · exact hclosing
  cases hstep with
  | start now readResult =>
    unfold Core.start Core.startRead
    rw [if_pos hclosing]
    exact hclosing
  | stop => exact hclosing
  | close => exact hclose core hclosing
  | send host packet write heap =>
    unfold Core.send
    split_ifs
    exact hclosing
  | hearHeartbeat now => exact hclosing
  | tick host write now heap =>
    unfold Core.tick Core.onHeartbeatTimer Core.sendHeartbeat Core.send
    split_ifs
    · exact hclose _ hclosing
    · exact hclosing
  | onWrite status =>
    unfold Core.onWrite
    split_ifs
    · exact hclose _ hclosing
    · exact hclosing
  | transmit heap count => exact hclosing

/-- What any number of such steps leads to. -/
def Core.Reaches : Core → Core → Prop := Relation.ReflTransGen CoreStep

namespace Core.Reaches

variable {core next last : Core}

theorem refl (core : Core) : core.Reaches core := Relation.ReflTransGen.refl

theorem single (hstep : CoreStep core next) : core.Reaches next :=
  Relation.ReflTransGen.single hstep

theorem trans (hfirst : core.Reaches next) (hsecond : next.Reaches last) : core.Reaches last :=
  Relation.ReflTransGen.trans hfirst hsecond

/-- What every step keeps is kept by any number of steps. -/
theorem preserves {Holds : Core → Prop}
    (hstep : ∀ {core next}, Holds core → CoreStep core next → Holds next)
    (hreaches : core.Reaches next) (hcore : Holds core) : Holds next := by
  induction hreaches with
  | refl => exact hcore
  | tail _ hlast ih => exact hstep ih hlast

theorem isClosing (hreaches : core.Reaches next) (hclosing : core.isClosing) : next.isClosing :=
  hreaches.preserves (fun hclosing hstep ↦ hstep.isClosing hclosing) hclosing

end Core.Reaches

end Session

end LibuvNet
