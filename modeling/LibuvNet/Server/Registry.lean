import LibuvNet.Server.Serving

/-!
# The registry of sessions

`sessions_` is kept right by two places only, `on_connection` and the close handler that it gives
each session.  What makes the second run once for a session is that `Session::close` is guarded:
whoever calls it and how often, `uv_close` is called once.  The invariant ties the flags and the
pending callback of each session to the registry and to the record of the user's handlers.
-/

namespace LibuvNet

open Foundation

namespace Server

variable {U V H : Type*}

/-! ## One session -/

/-- A session whose close callback has run the given number of times. -/
structure Guarded (callbacks : ℕ) (core : Session.Core) : Prop where
  closing : core.socket.closing = core.isClosing
  closeCalls : core.socket.closeCalls = core.isClosing.toNat
  closeReqs : core.socket.closeReqs + callbacks = core.socket.closeCalls
  reading : core.socket.reading → core.isClosing = false

namespace Guarded

variable {callbacks : ℕ} {core : Session.Core}

theorem closeCalls_le_one (hguarded : Guarded callbacks core) : core.socket.closeCalls ≤ 1 := by
  rw [hguarded.closeCalls]
  exact Bool.toNat_le core.isClosing

theorem accept : Guarded 0 Session.Core.accept := ⟨rfl, rfl, rfl, nofun⟩

/-- Whoever closes a session that is closing already changes nothing. -/
theorem close (hguarded : Guarded callbacks core) : Guarded callbacks core.close := by
  unfold Session.Core.close
  split
  · rename_i hopen
    have hclosing : core.isClosing = false := Bool.eq_false_of_not_eq_true hopen.1
    have hcalls := hguarded.closeCalls
    have hreqs := hguarded.closeReqs
    rw [hclosing, Bool.toNat_false] at hcalls
    refine ⟨rfl, ?_, ?_, nofun⟩
    · simp only [UvTcp.close, hcalls, Bool.toNat_true]
    · simp only [UvTcp.close, Bool.toNat_true]
      omega
  · exact hguarded

/-- The heartbeat concerns the socket only when it closes it. -/
theorem withHeartbeat (hguarded : Guarded callbacks core) (timer : UvTimer) (time : ℕ) :
    Guarded callbacks { core with heartbeatTimer := timer, lastHeartbeatTime := time } :=
  ⟨hguarded.closing, hguarded.closeCalls, hguarded.closeReqs, hguarded.reading⟩

theorem start (hguarded : Guarded callbacks core) (now : ℕ) (readResult : ℤ) :
    Guarded callbacks (core.start now readResult) := by
  unfold Session.Core.start Session.Core.startRead
  split_ifs with hclosing hresult
  · exact hguarded.withHeartbeat _ now
  · exact hguarded.withHeartbeat _ now
  · exact ⟨hguarded.closing, hguarded.closeCalls, hguarded.closeReqs,
      fun _ ↦ Bool.eq_false_of_not_eq_true hclosing⟩

theorem stop (hguarded : Guarded callbacks core) : Guarded callbacks core.stop :=
  ⟨hguarded.closing, hguarded.closeCalls, hguarded.closeReqs, nofun⟩

/-- Writes concern neither the flags nor the close callback. -/
theorem withWriter (hguarded : Guarded callbacks core) (canceled : ℕ) (writer : Writer UInt8) :
    Guarded callbacks { core with
      socket := { core.socket with canceledWrites := canceled, writer := writer } } :=
  ⟨hguarded.closing, hguarded.closeCalls, hguarded.closeReqs, hguarded.reading⟩

theorem send (hguarded : Guarded callbacks core) (host : Host) (packet : Packet)
    (write : WriteCall) (heap : Memory UInt8) :
    Guarded callbacks (core.send host packet write heap).2 := by
  unfold Session.Core.send
  split
  · exact hguarded
  · by_cases hresult : write.result = 0
    · simp only [writeLocal_accepted host packet heap core.socket hresult]
      exact hguarded.withWriter core.socket.canceledWrites _
    · simp only [writeLocal_rejected host packet heap core.socket hresult]
      exact hguarded

theorem tick (hguarded : Guarded callbacks core) (host : Host) (write : WriteCall) (now : ℕ)
    (heap : Memory UInt8) : Guarded callbacks (core.tick host write now heap).2 := by
  have hagain := hguarded.withHeartbeat (core.heartbeatTimer.again now) core.lastHeartbeatTime
  unfold Session.Core.tick Session.Core.onHeartbeatTimer
  split
  · exact hagain.close
  · exact hagain.send host _ write heap

theorem onWrite (hguarded : Guarded callbacks core) (status : ℤ) :
    Guarded callbacks (core.onWrite status) := by
  have hreported : Guarded callbacks
      { core with socket := core.socket.reportWrite status } := by
    unfold UvTcp.reportWrite
    split_ifs
    · exact hguarded.withWriter _ core.socket.writer
    · exact hguarded.withWriter core.socket.canceledWrites _
    · exact hguarded.withWriter core.socket.canceledWrites _
  unfold Session.Core.onWrite
  split
  · exact hreported.close
  · exact hreported

/-- Whatever happens to a session short of its close callback, it stays guarded. -/
theorem step {next : Session.Core} (hguarded : Guarded callbacks core)
    (hstep : Session.CoreStep core next) : Guarded callbacks next := by
  cases hstep with
  | start now readResult => exact hguarded.start now readResult
  | stop => exact hguarded.stop
  | close => exact hguarded.close
  | send host packet write heap => exact hguarded.send host packet write heap
  | hearHeartbeat now => exact hguarded.withHeartbeat core.heartbeatTimer now
  | tick host write now heap => exact hguarded.tick host write now heap
  | onWrite status => exact hguarded.onWrite status
  | transmit heap count => exact hguarded.withWriter core.socket.canceledWrites _

theorem reaches {next : Session.Core} (hguarded : Guarded callbacks core)
    (hreaches : core.Reaches next) : Guarded callbacks next :=
  hreaches.preserves step hguarded

/-- A session that libuv still reads from has seen no close callback. -/
theorem callbacks_eq_zero (hguarded : Guarded callbacks core) (hreading : core.socket.reading) :
    callbacks = 0 := by
  have hcalls := hguarded.closeCalls
  have hreqs := hguarded.closeReqs
  rw [hguarded.reading hreading, Bool.toNat_false] at hcalls
  omega

/-- A close callback that is due is the first one, and takes the session off the hook. -/
theorem onClose (hguarded : Guarded callbacks core) (hdue : 0 < core.socket.closeReqs) :
    callbacks = 0 ∧ Guarded 1 { core with
      socket := { core.socket with closeReqs := core.socket.closeReqs - 1 } } := by
  have hle := hguarded.closeCalls_le_one
  have hreqs := hguarded.closeReqs
  have hfirst : callbacks = 0 := by omega
  refine ⟨hfirst, hguarded.closing, hguarded.closeCalls, ?_, hguarded.reading⟩
  change core.socket.closeReqs - 1 + 1 = core.socket.closeCalls
  omega

end Guarded

/-! ## All sessions -/

/-- The user's handlers are called for a session in order: the connect handler, packet handlers,
and, once its close callback has run, the close handler. -/
def InOrder (closed : Bool) (calls : List (UserCall H)) : Prop :=
  ∃ packets : List (H × Packet), calls =
    .connect :: packets.map (fun call ↦ .packet call.1 call.2) ++ if closed then [.close] else []

/-- The registry holds the sessions whose close callback has not run, and every session is as
guarded and as orderly as its state says. -/
structure Registered (world : World U V H) : Prop where
  sessions : world.sessions =
    (List.range world.created).filter fun id ↦ id ∉ world.closedSessions
  guarded : ∀ id < world.created, Guarded (world.closedSessions.count id) (world.slot id).core
  inOrder : ∀ id < world.created, InOrder (id ∈ world.closedSessions) (world.callsOf id)
  unknown : ∀ id, world.created ≤ id → id ∉ world.closedSessions ∧ world.callsOf id = []

namespace World

variable {world : World U V H}

theorem callsOf_record_self (id : ℕ) (call : UserCall H) :
    (world.record id call).callsOf id = world.callsOf id ++ [call] := by
  simp [callsOf, record]

theorem callsOf_record_ne {id other : ℕ} (call : UserCall H) (hne : other ≠ id) :
    (world.record other call).callsOf id = world.callsOf id := by
  simp [callsOf, record, hne]

end World

theorem Serves.callsOf_self {id : ℕ} {packets : List (H × Packet)} {world next : World U V H}
    (hserves : Serves id packets world next) :
    next.callsOf id =
      world.callsOf id ++ packets.map fun call ↦ .packet call.1 call.2 := by
  simp [World.callsOf, hserves.calls, List.filterMap_map]

theorem Serves.callsOf_ne {id other : ℕ} {packets : List (H × Packet)} {world next : World U V H}
    (hserves : Serves id packets world next) (hne : id ≠ other) :
    next.callsOf other = world.callsOf other := by
  simp [World.callsOf, hserves.calls, List.filterMap_map, hne]

theorem registered_initial (memory : U) : Registered (World.initial memory : World U V H) :=
  ⟨rfl, nofun, nofun, fun _ _ ↦ ⟨nofun, rfl⟩⟩

namespace Registered

variable {world next : World U V H} {app : Application U V H}

theorem nodup (hworld : Registered world) : world.sessions.Nodup := by
  rw [hworld.sessions]
  exact List.nodup_range.filter _

/-- The packet handlers may be called for a session whose close callback has not run. -/
theorem serves {id : ℕ} {packets : List (H × Packet)} (hworld : Registered world)
    (hserves : Serves id packets world next)
    (hopen : packets ≠ [] → id < world.created ∧ id ∉ world.closedSessions) : Registered next where
  sessions := by rw [hserves.sessions, hserves.created, hserves.closedSessions, hworld.sessions]
  guarded other hother := by
    rw [hserves.closedSessions]
    rw [hserves.created] at hother
    exact (hworld.guarded other hother).reaches (hserves.cores other)
  inOrder other hother := by
    rw [hserves.created] at hother
    rw [hserves.closedSessions]
    by_cases heq : id = other
    · subst heq
      obtain ⟨earlier, hearlier⟩ := hworld.inOrder id hother
      rw [hserves.callsOf_self, hearlier]
      by_cases hpackets : packets = []
      · exact ⟨earlier, by rw [hpackets, List.map_nil, List.append_nil]⟩
      · refine ⟨earlier ++ packets, ?_⟩
        simp [(hopen hpackets).2]
    · rw [hserves.callsOf_ne heq]
      exact hworld.inOrder other hother
  unknown other hother := by
    rw [hserves.created] at hother
    rw [hserves.closedSessions]
    obtain ⟨hclosed, hcalls⟩ := hworld.unknown other hother
    refine ⟨hclosed, ?_⟩
    by_cases heq : id = other
    · subst heq
      have hpackets : packets = [] := by
        by_contra hsome
        exact absurd (hopen hsome).1 (not_lt.mpr hother)
      rw [hserves.callsOf_self, hcalls, hpackets, List.map_nil, List.append_nil]
    · rw [hserves.callsOf_ne heq, hcalls]

/-- A new session enters the registry last, and its connect handler is called first. -/
theorem create (hworld : Registered world) (readResult : ℤ) :
    Registered ((world.create readResult).record world.created .connect) := by
  obtain ⟨hopen, hcalls⟩ := hworld.unknown world.created le_rfl
  constructor
  · change world.sessions ++ [world.created] =
      (List.range (world.created + 1)).filter fun id ↦ id ∉ world.closedSessions
    rw [List.range_succ, List.filter_append, hworld.sessions]
    simp [hopen]
  · intro id hid
    change Guarded (world.closedSessions.count id) (Function.update world.slot world.created
      { Slot.accepted with core := Session.Core.accept.start world.now readResult } id).core
    rcases Nat.lt_succ_iff_lt_or_eq.mp hid with hlt | rfl
    · rw [Function.update_of_ne hlt.ne]
      exact hworld.guarded id hlt
    · rw [Function.update_self, List.count_eq_zero_of_not_mem hopen]
      exact Guarded.accept.start world.now readResult
  · intro id hid
    rcases Nat.lt_succ_iff_lt_or_eq.mp hid with hlt | rfl
    · rw [World.callsOf_record_ne _ hlt.ne']
      exact hworld.inOrder id hlt
    · rw [World.callsOf_record_self]
      change InOrder (decide (world.created ∈ world.closedSessions))
        (world.callsOf world.created ++ [.connect])
      rw [hcalls]
      refine ⟨[], ?_⟩
      simp [hopen]
  · intro id hid
    have hlt : world.created < id := hid
    rw [World.callsOf_record_ne _ hlt.ne]
    exact hworld.unknown id hlt.le

/-- A close callback takes its own session out of the registry, and its close handler is the last
of the user's handlers to be called. -/
theorem forget (hworld : Registered world) {id : ℕ} (hid : id < world.created)
    (hdue : 0 < (world.slot id).core.socket.closeReqs) :
    Registered ((world.forget id).record id .close) := by
  obtain ⟨hfirst, hguarded⟩ := (hworld.guarded id hid).onClose hdue
  have hopen : id ∉ world.closedSessions := List.count_eq_zero.mp hfirst
  constructor
  · change (world.sessions.filter fun other ↦ other ≠ id) =
      (List.range world.created).filter fun other ↦ other ∉ world.closedSessions ++ [id]
    rw [hworld.sessions, List.filter_filter]
    congr
    funext other
    simp [and_comm]
  · intro other hother
    change Guarded ((world.closedSessions ++ [id]).count other)
      (Function.update world.slot id _ other).core
    by_cases heq : other = id
    · subst heq
      rw [Function.update_self, List.count_append, hfirst, List.count_singleton_self]
      exact hguarded
    · rw [Function.update_of_ne heq, List.count_append, List.count_singleton,
        if_neg (by simpa using Ne.symm heq)]
      exact hworld.guarded other hother
  · intro other hother
    change InOrder (decide (other ∈ world.closedSessions ++ [id])) _
    by_cases heq : id = other
    · subst heq
      obtain ⟨packets, hpackets⟩ := hworld.inOrder id hid
      refine ⟨packets, ?_⟩
      rw [World.callsOf_record_self]
      change world.callsOf id ++ [.close] = _
      rw [hpackets]
      simp [hopen]
    · rw [World.callsOf_record_ne _ heq]
      have hsame : decide (other ∈ world.closedSessions ++ [id]) =
          decide (other ∈ world.closedSessions) := by
        simp [Ne.symm heq]
      rw [hsame]
      exact hworld.inOrder other hother
  · intro other hother
    have hne : id ≠ other := by
      rintro rfl
      exact absurd hid (not_lt.mpr hother)
    obtain ⟨hother', hcalls⟩ := hworld.unknown other hother
    rw [World.callsOf_record_ne _ hne]
    refine ⟨?_, hcalls⟩
    change other ∉ world.closedSessions ++ [id]
    simp [hother', Ne.symm hne]

/-- Every step keeps the registry. -/
theorem step {event : Event V H} (hworld : Registered world)
    (hstep : step app world event = some next) : Registered next := by
  rcases step_cases hstep with ⟨id, packets, hid, hreading, hserves⟩ | hserves |
    ⟨status, readResult, -, -, hserves⟩ | ⟨id, -, hid, hdue, hserves⟩
  · have hopen : id ∉ world.closedSessions :=
      List.count_eq_zero.mp ((hworld.guarded id hid).callbacks_eq_zero hreading)
    exact hworld.serves hserves fun _ ↦ ⟨hid, hopen⟩
  · exact hworld.serves (hserves 0) (absurd rfl)
  · exact (hworld.create readResult).serves (hserves 0) (absurd rfl)
  · exact (hworld.forget hid hdue).serves (hserves 0) (absurd rfl)

end Registered

/-- The session whose close callback the event is. -/
def Event.closes : Event V H → List ℕ
  | .onClose id => [id]
  | _ => []

theorem closedSessions_step {event : Event V H} (hstep : step app world event = some next) :
    next.closedSessions = world.closedSessions ++ event.closes := by
  cases event with
  | onClose id =>
    unfold step at hstep
    split at hstep
    · rw [Outcome.returned?_eq_some] at hstep
      exact (Serves.react 0 hstep).closedSessions
    · cases hstep
  | _ =>
    refine Eq.trans ?_ (List.append_nil _).symm
    rcases step_cases hstep with ⟨id, packets, -, -, hserves⟩ | hserves | ⟨_, _, -, -, hserves⟩ |
      ⟨_, hevent, -⟩
    · exact hserves.closedSessions
    · exact (hserves 0).closedSessions
    · exact (hserves 0).closedSessions
    · cases hevent

/-- `closedSessions` lists the close callbacks that have run. -/
theorem closedSessions_run {memory : U} {events : List (Event V H)}
    (hrun : runFrom (step app) events (.initial memory) = some world) :
    world.closedSessions = events.flatMap Event.closes := by
  refine runFrom_history
    (fun past (world : World U V H) ↦ world.closedSessions = past.flatMap Event.closes)
    (fun hpast hstep ↦ ?_) (show (World.initial memory).closedSessions = [].flatMap _ from rfl) hrun
  rw [closedSessions_step hstep, hpast, List.flatMap_append, List.flatMap_singleton]

/-- **The registry and the life of a session.** In every state a server reaches, `sessions_` holds
the sessions whose close callback has not run, in order of acceptance and without duplicates; for
every session `uv_close` was called at most once and the user's handlers were called in order. -/
theorem sessions_registered (app : Application U V H) (memory : U) (events : List (Event V H))
    (world : World U V H) (hrun : runFrom (step app) events (.initial memory) = some world) :
    world.sessions = ((List.range world.created).filter fun id ↦ id ∉ world.closedSessions) ∧
      world.sessions.Nodup ∧
      (∀ id < world.created, (world.slot id).core.socket.closeCalls ≤ 1 ∧
        InOrder (id ∈ world.closedSessions) (world.callsOf id)) ∧
      (∀ id, world.created ≤ id → world.callsOf id = []) ∧
      world.closedSessions = events.flatMap Event.closes := by
  have hregistered := runFrom_invariant Registered.step (registered_initial memory) hrun
  exact ⟨hregistered.sessions, hregistered.nodup,
    fun id hid ↦ ⟨(hregistered.guarded id hid).closeCalls_le_one, hregistered.inOrder id hid⟩,
    fun id hid ↦ (hregistered.unknown id hid).2, closedSessions_run hrun⟩

/-- An application whose packet handler closes the session twice. -/
def hangingUp : Application Unit Unit Unit where
  host := .wide .little
  connectHandler _ _ := ⟨[.setDefaultPacketHandler ()], (), none⟩
  closeHandler _ _ := ⟨[], (), none⟩
  onPacket _ id _ _ := ⟨[.close id, .close id], (), none⟩
  onSessionPacket _ _ _ _ := ⟨[], (), none⟩

/-- Two connections, of which the first sends a packet and is closed for it. -/
def hangUpEvents : List (Event Unit Unit) :=
  [.onConnection 0 0, .onConnection 0 0,
    .onRead 0 12 [1, 0, 0, 0, 0, 0, 0, 0, 0, 0, 0, 0], .call (.close 0), .onClose 0]

theorem sessions_registered_hangUp :
    ∃ world, runFrom (step hangingUp) hangUpEvents (.initial ()) = some world ∧
      world.sessions = ((List.range world.created).filter fun id ↦ id ∉ world.closedSessions) ∧
      world.closedSessions = hangUpEvents.flatMap Event.closes ∧ world.sessions = [1] := by
  obtain ⟨hsessions, -, -, -, hclosed⟩ := sessions_registered hangingUp () hangUpEvents _ rfl
  exact ⟨_, rfl, hsessions, hclosed, rfl⟩

end Server

end LibuvNet
