import LibuvNet.Server.Keeping
import LibuvNet.Server.Registry

/-!
# What one session sees of its server

Two servers look the same to a session if it cannot tell them apart by its own members and tables,
by the clock and the tables of the server, and by what the application remembers of it.  What is
done to the session, or to the server as a whole, keeps two such servers alike; what is done to
another session leaves one server like the other.  Of the heap a session sees nothing: a write
whose data is taken when it is accepted does not depend on it.
-/

namespace LibuvNet

open Foundation

/-- What a send makes of the members of a session does not depend on what lies on the heap. -/
theorem Session.Core.send_heap (core : Session.Core) (host : Host) (packet : Packet)
    (write : WriteCall) {heap heap' : Memory UInt8} (hlive : heap'.live = heap.live) :
    (core.send host packet write heap').2 = (core.send host packet write heap).2 := by
  have hplace : heap'.place write.address = heap.place write.address := by
    unfold Memory.place Memory.top
    rw [hlive]
  have hcell : (heap'.allocate write.address (packet.serialize host write.padding)).cell
        (heap.place write.address) =
      (heap.allocate write.address (packet.serialize host write.padding)).cell
        (heap.place write.address) := by
    rw [Memory.cell_allocate, ← hplace, Memory.cell_allocate]
  unfold Session.Core.send
  split
  · rfl
  · by_cases hresult : write.result = 0
    · simp only [writeLocal_accepted _ _ _ _ hresult, hplace, Writer.submit_congr hcell]
    · simp only [writeLocal_rejected _ _ _ _ hresult]

/-- The vector a send allocates is released again. -/
theorem Session.Core.send_live (core : Session.Core) (host : Host) (packet : Packet)
    (write : WriteCall) (heap : Memory UInt8) :
    (core.send host packet write heap).1.live = heap.live := by
  unfold Session.Core.send
  split
  · rfl
  · exact writeLocal_live host packet heap core.socket

/-- The same of the timer that fires. -/
theorem Session.Core.tick_heap (core : Session.Core) (host : Host) (write : WriteCall) (now : ℕ)
    {heap heap' : Memory UInt8} (hlive : heap'.live = heap.live) :
    (core.tick host write now heap').2 = (core.tick host write now heap).2 ∧
      (core.tick host write now heap').1.live = (core.tick host write now heap).1.live := by
  unfold Session.Core.tick Session.Core.onHeartbeatTimer
  split
  · exact ⟨rfl, hlive⟩
  · refine ⟨Session.Core.send_heap _ host _ write hlive, ?_⟩
    unfold Session.Core.sendHeartbeat
    rw [Session.Core.send_live, Session.Core.send_live, hlive]

theorem Session.Core.tick_live (core : Session.Core) (host : Host) (write : WriteCall) (now : ℕ)
    (heap : Memory UInt8) : (core.tick host write now heap).1.live = heap.live := by
  unfold Session.Core.tick Session.Core.onHeartbeatTimer
  split
  · rfl
  · exact Session.Core.send_live _ host _ write heap

namespace Server

variable {U V H S : Type*}

/-- The session a call names. -/
def Call.subject? : Call V H → Option ℕ
  | .close id | .send id _ _ | .start id _ | .stop id | .setSessionPacketHandler id _ _
  | .addInterceptor id _ => some id
  | .broadcast _ _ | .setPacketHandler _ _ | .setDefaultPacketHandler _ => none

/-- The session an event happens on. -/
def Event.subject? : Event V H → Option ℕ
  | .call made => made.subject?
  | .onRead id _ _ | .onWrite id _ | .onClose id | .onHeartbeatTimer id _ | .transmit id _ =>
    some id
  | .onConnection _ _ | .elapse _ => none

/-- The event happens on this session, or on none in particular. -/
def Event.Reaches (id : ℕ) (event : Event V H) : Prop := event.subject?.getD id = id

instance (id : ℕ) : DecidablePred (Event.Reaches id : Event V H → Prop) :=
  fun _ ↦ inferInstanceAs (Decidable (_ = _))

/-- Two servers that look the same to someone who knows one session, the clock and the tables of
the server, and what the application remembers of that session. -/
structure SameFor (mine : ℕ → U → S) (id : ℕ) (world other : World U V H) : Prop where
  created : other.created = world.created
  now : other.now = world.now
  live : other.heap.live = world.heap.live
  packetHandlers : other.packetHandlers = world.packetHandlers
  defaultPacketHandler : other.defaultPacketHandler = world.defaultPacketHandler
  slot : other.slot id = world.slot id
  /-- Of the sessions to come there is nothing to be seen yet. -/
  known : ∀ session, session = id ∨ world.created ≤ session →
    (other.sessions.filter fun entry ↦ entry = session) =
        (world.sessions.filter fun entry ↦ entry = session) ∧
      other.callsOf session = world.callsOf session ∧
      mine session other.memory = mine session world.memory

namespace SameFor

variable {mine : ℕ → U → S} {id : ℕ} {world next other after : World U V H}

theorem refl (mine : ℕ → U → S) (id : ℕ) (world : World U V H) : SameFor mine id world world :=
  ⟨rfl, rfl, rfl, rfl, rfl, rfl, fun _ _ ↦ ⟨rfl, rfl, rfl⟩⟩

theorem symm (hsame : SameFor mine id world other) : SameFor mine id other world where
  created := hsame.created.symm
  now := hsame.now.symm
  live := hsame.live.symm
  packetHandlers := hsame.packetHandlers.symm
  defaultPacketHandler := hsame.defaultPacketHandler.symm
  slot := hsame.slot.symm
  known session hsession := by
    obtain ⟨hsessions, hcalls, hmine⟩ := hsame.known session (hsame.created ▸ hsession)
    exact ⟨hsessions.symm, hcalls.symm, hmine.symm⟩

theorem trans (hfirst : SameFor mine id world next) (hsecond : SameFor mine id next other) :
    SameFor mine id world other where
  created := hsecond.created.trans hfirst.created
  now := hsecond.now.trans hfirst.now
  live := hsecond.live.trans hfirst.live
  packetHandlers := hsecond.packetHandlers.trans hfirst.packetHandlers
  defaultPacketHandler := hsecond.defaultPacketHandler.trans hfirst.defaultPacketHandler
  slot := hsecond.slot.trans hfirst.slot
  known session hsession := by
    obtain ⟨hsessions, hcalls, hmine⟩ := hfirst.known session hsession
    obtain ⟨hsessions', hcalls', hmine'⟩ := hsecond.known session (hfirst.created ▸ hsession)
    exact ⟨hsessions'.trans hsessions, hcalls'.trans hcalls, hmine'.trans hmine⟩

/-- Two pairs that differ where the session does not look. -/
theorem congr (hsame : SameFor mine id world other) (hnext : SameFor mine id world next)
    (hafter : SameFor mine id other after) : SameFor mine id next after :=
  (hnext.symm.trans hsame).trans hafter

/-- The members and tables of the session change. -/
theorem setSlot (hsame : SameFor mine id world other) (slot : Slot V H) :
    SameFor mine id (world.setSlot id slot) (other.setSlot id slot) where
  created := hsame.created
  now := hsame.now
  live := hsame.live
  packetHandlers := hsame.packetHandlers
  defaultPacketHandler := hsame.defaultPacketHandler
  slot := by
    change Function.update other.slot id slot id = Function.update world.slot id slot id
    rw [Function.update_self, Function.update_self]
  known := hsame.known

theorem setCore (hsame : SameFor mine id world other) {core core' : Session.Core}
    (hcore : core' = core) :
    SameFor mine id (world.setCore id core) (other.setCore id core') := by
  unfold World.setCore
  rw [hcore, hsame.slot]
  exact hsame.setSlot _

/-- Another session changes. -/
theorem setSlot_aside {session : ℕ} (hne : session ≠ id) (world : World U V H) (slot : Slot V H) :
    SameFor mine id world (world.setSlot session slot) :=
  ⟨rfl, rfl, rfl, rfl, rfl, Function.update_of_ne hne.symm _ _, fun _ _ ↦ ⟨rfl, rfl, rfl⟩⟩

theorem setHeap (hsame : SameFor mine id world other) {heap heap' : Memory UInt8}
    (hlive : heap'.live = heap.live) :
    SameFor mine id { world with heap := heap } { other with heap := heap' } :=
  ⟨hsame.created, hsame.now, hlive, hsame.packetHandlers, hsame.defaultPacketHandler, hsame.slot,
    hsame.known⟩

theorem setHeap_aside (world : World U V H) {heap : Memory UInt8}
    (hlive : heap.live = world.heap.live) :
    SameFor mine id world { world with heap := heap } :=
  ⟨rfl, rfl, hlive, rfl, rfl, rfl, fun _ _ ↦ ⟨rfl, rfl, rfl⟩⟩

theorem send (hsame : SameFor mine id world other) (host : Host) (packet : Packet)
    (write : WriteCall) :
    SameFor mine id (world.send host id packet write) (other.send host id packet write) := by
  have hcore : ((other.slot id).core.send host packet write other.heap).2 =
      ((world.slot id).core.send host packet write world.heap).2 := by
    rw [hsame.slot]
    exact (world.slot id).core.send_heap host packet write hsame.live
  have hlive : ((other.slot id).core.send host packet write other.heap).1.live =
      ((world.slot id).core.send host packet write world.heap).1.live := by
    rw [Session.Core.send_live, Session.Core.send_live, hsame.live]
  exact (hsame.setCore hcore).setHeap hlive

theorem send_aside {session : ℕ} (hne : session ≠ id) (world : World U V H) (host : Host)
    (packet : Packet) (write : WriteCall) :
    SameFor mine id world (world.send host session packet write) := by
  have hlive : ((world.slot session).core.send host packet write world.heap).1.live =
      world.heap.live := Session.Core.send_live _ host packet write world.heap
  exact (setSlot_aside hne world _).trans (setHeap_aside _ hlive)

/-- Of a number of sends those on the session matter. -/
theorem sends (hsame : SameFor mine id world other) (host : Host) (packet : Packet)
    (writes : ℕ → WriteCall) (sessions : List ℕ) :
    SameFor mine id
      (sessions.foldl (fun world session ↦ world.send host session packet (writes session)) world)
      ((sessions.filter fun entry ↦ entry = id).foldl
        (fun world session ↦ world.send host session packet (writes session)) other) := by
  induction sessions generalizing world other with
  | nil => exact hsame
  | cons session sessions ih =>
    by_cases heq : session = id
    · subst heq
      rw [List.filter_cons, if_pos (decide_eq_true rfl)]
      exact ih (hsame.send host packet (writes session))
    · rw [List.filter_cons, if_neg (by simpa using heq)]
      exact ih ((send_aside heq world host packet (writes session)).symm.trans hsame)

theorem broadcast (hsame : SameFor mine id world other) (host : Host) (packet : Packet)
    (writes : ℕ → WriteCall) :
    SameFor mine id (world.broadcast host packet writes) (other.broadcast host packet writes) := by
  have hhere := hsame.sends host packet writes world.sessions
  have hthere := (refl mine id other).sends host packet writes other.sessions
  rw [(hsame.known id (.inl rfl)).1] at hthere
  exact hhere.trans hthere.symm

/-- A call on the session, or on the server as a whole, is one for both. -/
theorem run (hsame : SameFor mine id world other) (host : Host) {call : Call V H}
    (hcall : call.subject?.getD id = id) :
    SameFor mine id (call.run host world) (call.run host other) := by
  have hcreated {next after : World U V H} (hnext : SameFor mine id next after) :
      SameFor mine id (if id < world.created then next else world)
        (if id < other.created then after else other) := by
    rw [hsame.created]
    split
    · exact hnext
    · exact hsame
  cases call with
  | close session =>
    obtain rfl : session = id := hcall
    exact hcreated (hsame.setCore (by rw [hsame.slot]))
  | send session packet write =>
    obtain rfl : session = id := hcall
    exact hcreated (hsame.send host packet write)
  | start session readResult =>
    obtain rfl : session = id := hcall
    exact hcreated (hsame.setCore (by rw [hsame.slot, hsame.now]))
  | stop session =>
    obtain rfl : session = id := hcall
    exact hcreated (hsame.setCore (by rw [hsame.slot]))
  | broadcast packet writes => exact hsame.broadcast host packet writes
  | setPacketHandler type handler =>
    have htables : Function.update other.packetHandlers type (some handler) =
        Function.update world.packetHandlers type (some handler) := by
      rw [hsame.packetHandlers]
    exact ⟨hsame.created, hsame.now, hsame.live, htables, hsame.defaultPacketHandler, hsame.slot,
      hsame.known⟩
  | setDefaultPacketHandler handler =>
    exact ⟨hsame.created, hsame.now, hsame.live, hsame.packetHandlers, rfl, hsame.slot,
      hsame.known⟩
  | setSessionPacketHandler session type handler =>
    obtain rfl : session = id := hcall
    apply hcreated
    rw [hsame.slot]
    exact hsame.setSlot _
  | addInterceptor session interceptor =>
    obtain rfl : session = id := hcall
    apply hcreated
    rw [hsame.slot]
    exact hsame.setSlot _

/-- A call on another session is none for this one. -/
theorem run_aside {session : ℕ} (hne : session ≠ id) (host : Host) (world : World U V H)
    {call : Call V H} (hcall : call.subject? = some session) :
    SameFor mine id world (call.run host world) := by
  have hcreated {next : World U V H} (hnext : SameFor mine id world next) :
      SameFor mine id world (if session < world.created then next else world) := by
    split
    · exact hnext
    · exact refl mine id world
  cases call with
  | close named | start named _ | stop named | setSessionPacketHandler named _ _
  | addInterceptor named _ =>
    obtain rfl : named = session := Option.some.inj hcall
    exact hcreated (setSlot_aside hne world _)
  | send named packet write =>
    obtain rfl : named = session := Option.some.inj hcall
    exact hcreated (send_aside hne world host packet write)
  | broadcast packet writes | setPacketHandler type handler
  | setDefaultPacketHandler handler => cases hcall

theorem record (hsame : SameFor mine id world other) (call : UserCall H) :
    SameFor mine id (world.record id call) (other.record id call) := by
  refine ⟨hsame.created, hsame.now, hsame.live, hsame.packetHandlers, hsame.defaultPacketHandler,
    hsame.slot, fun session hsession ↦ ?_⟩
  obtain ⟨hsessions, hcalls, hmine⟩ := hsame.known session hsession
  refine ⟨hsessions, ?_, hmine⟩
  by_cases heq : id = session
  · rw [heq, World.callsOf_record_self, World.callsOf_record_self, hcalls]
  · rw [World.callsOf_record_ne _ heq, World.callsOf_record_ne _ heq, hcalls]

theorem record_aside {session : ℕ} (hne : session ≠ id) (hold : session < world.created)
    (call : UserCall H) : SameFor mine id world (world.record session call) := by
  refine ⟨rfl, rfl, rfl, rfl, rfl, rfl, fun known hknown ↦ ⟨rfl, ?_, rfl⟩⟩
  have hother : session ≠ known := by
    rcases hknown with rfl | hlater
    · exact hne
    · exact (lt_of_lt_of_le hold hlater).ne
  exact World.callsOf_record_ne call hother

/-- A connection is accepted on both sides: it looks the same to the session and to the new one. -/
theorem create (hsame : SameFor mine id world other) (readResult : ℤ) {session : ℕ}
    (hsession : session = id ∨ session = world.created) :
    SameFor mine session ((world.create readResult).record world.created .connect)
      ((other.create readResult).record other.created .connect) where
  created := congrArg (· + 1) hsame.created
  now := hsame.now
  live := hsame.live
  packetHandlers := hsame.packetHandlers
  defaultPacketHandler := hsame.defaultPacketHandler
  slot := by
    change Function.update other.slot other.created
        { Slot.accepted with core := Session.Core.accept.start other.now readResult } session =
      Function.update world.slot world.created
        { Slot.accepted with core := Session.Core.accept.start world.now readResult } session
    rw [hsame.created, hsame.now]
    by_cases heq : session = world.created
    · rw [heq, Function.update_self, Function.update_self]
    · rw [Function.update_of_ne heq, Function.update_of_ne heq, hsession.resolve_right heq,
        hsame.slot]
  known known hknown := by
    have hknown' : known = id ∨ world.created ≤ known := by
      rcases hknown with rfl | hlater
      · exact hsession.imp_right ge_of_eq
      · exact .inr (Nat.le_of_succ_le hlater)
    obtain ⟨hsessions, hcalls, hmine⟩ := hsame.known known hknown'
    refine ⟨?_, ?_, hmine⟩
    · change ((other.sessions ++ [other.created]).filter fun entry ↦ entry = known) =
        (world.sessions ++ [world.created]).filter fun entry ↦ entry = known
      rw [List.filter_append, List.filter_append, hsessions, hsame.created]
    · rw [hsame.created]
      by_cases heq : world.created = known
      · rw [← heq, World.callsOf_record_self, World.callsOf_record_self]
        exact congrArg (· ++ [UserCall.connect]) (heq ▸ hcalls)
      · rw [World.callsOf_record_ne _ heq, World.callsOf_record_ne _ heq]
        exact hcalls

/-- The close callback of the session runs on both sides. -/
theorem forget (hsame : SameFor mine id world other) :
    SameFor mine id (world.forget id) (other.forget id) := by
  refine ⟨hsame.created, hsame.now, hsame.live, hsame.packetHandlers, hsame.defaultPacketHandler,
    ?_, fun known hknown ↦ ?_⟩
  · change Function.update other.slot id _ id = Function.update world.slot id _ id
    rw [Function.update_self, Function.update_self, hsame.slot]
  obtain ⟨hsessions, hcalls, hmine⟩ := hsame.known known hknown
  refine ⟨?_, hcalls, hmine⟩
  change ((other.sessions.filter fun entry ↦ entry ≠ id).filter fun entry ↦ entry = known) =
    (world.sessions.filter fun entry ↦ entry ≠ id).filter fun entry ↦ entry = known
  rw [List.filter_comm, hsessions, List.filter_comm]

theorem forget_aside {session : ℕ} (hne : session ≠ id) (hold : session < world.created) :
    SameFor mine id world (world.forget session) := by
  refine ⟨rfl, rfl, rfl, rfl, rfl, Function.update_of_ne hne.symm _ _, fun known hknown ↦ ?_⟩
  have hother : known ≠ session := by
    rcases hknown with rfl | hlater
    · exact hne.symm
    · exact (lt_of_lt_of_le hold hlater).ne'
  refine ⟨?_, rfl, rfl⟩
  change (world.sessions.filter fun entry ↦ entry ≠ session).filter (fun entry ↦ entry = known) =
    world.sessions.filter fun entry ↦ entry = known
  rw [List.filter_filter]
  apply List.filter_congr
  intro entry _
  by_cases heq : entry = known
  · simp [heq, hother]
  · simp [heq]

end SameFor

end Server

end LibuvNet
