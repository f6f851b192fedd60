import LibuvNet.Foundation.Descent
import LibuvNet.Server.Registry
import LibuvNet.Server.Silence
import Mathlib.Data.Finset.Card
import Mathlib.Data.Finset.Range

/-!
# A server that is left alone

When nothing arrives any more, the loop still owes a server the timers that are due and the close
callbacks of the sessions that are closing.  These are worked off in a bounded number of steps, even
though close handlers may close and write to other sessions, and what is left then are the sessions
of peers that still gave a sign of life: all others have left the registry, and their handlers have
been called from the connect handler to the close handler.
-/

namespace LibuvNet

open Foundation

namespace Server

variable {U V H : Type*}

variable {app : Application U V H} {world next : World U V H}

/-- What the loop does when nothing arrives and no time passes. -/
def Event.IsOwed : Event V H → Prop
  | .onHeartbeatTimer _ _ | .onClose _ => True
  | _ => False

namespace World

/-- The sessions whose timer is due. -/
def dueTimers (world : World U V H) : Finset ℕ :=
  (Finset.range world.created).filter fun id ↦
    (world.slot id).core.heartbeatTimer.active ∧ (world.slot id).core.heartbeatTimer.due ≤ world.now

/-- How much the loop owes the server at most: each session has one timer and is closed once. -/
def debt (world : World U V H) : ℕ := world.dueTimers.card + world.sessions.length

theorem mem_dueTimers {id : ℕ} : id ∈ world.dueTimers ↔ id < world.created ∧
    (world.slot id).core.heartbeatTimer.active ∧
      (world.slot id).core.heartbeatTimer.due ≤ world.now := by
  rw [dueTimers, Finset.mem_filter, Finset.mem_range]

theorem dueTimers_congr (hcreated : next.created = world.created)
    (htimers : ∀ id, (next.now, (next.slot id).core.heartbeatTimer) =
      (world.now, (world.slot id).core.heartbeatTimer)) : next.dueTimers = world.dueTimers := by
  ext id
  obtain ⟨hnow, htimer⟩ := Prod.mk.inj (htimers id)
  rw [mem_dueTimers, mem_dueTimers, hcreated, hnow, htimer]

end World

/-- User code that leaves the timers alone leaves them as they are, and the clock. -/
theorem unbroken_timers (host : Host) (timers : ℕ → ℕ × UvTimer) :
    Unbroken host Call.LeavesTimers fun world : World U V H ↦
      ∀ id, (world.now, (world.slot id).core.heartbeatTimer) = timers id := by
  refine unbroken_view host (fun now core ↦ (now, core.heartbeatTimer))
    (fun now core ↦ ?_) (fun now core packet write heap ↦ ?_) timers
  · rw [core.close_heartbeatTimer]
  · obtain ⟨writer, hsend⟩ := core.send_eq host packet write heap
    rw [hsend]

/-! ## The debt -/

/-- A timer that the loop has called back for is armed again for a later time. -/
theorem debt_onHeartbeatTimer {id : ℕ} {write : WriteCall} (hwatched : world.Watched)
    (hstep : step app world (.onHeartbeatTimer id write) = some next) : next.debt < world.debt := by
  obtain ⟨hdue, hhandle⟩ := step_eq_some.mp hstep
  cases hhandle
  let core := (world.slot id).core
  have htimer : (core.tick app.host write world.now world.heap).2.heartbeatTimer =
      core.heartbeatTimer.again world.now := by
    unfold Session.Core.tick Session.Core.onHeartbeatTimer
    split
    · exact Session.Core.close_heartbeatTimer _
    · obtain ⟨writer, hsend⟩ := Session.Core.send_eq
        { core with heartbeatTimer := core.heartbeatTimer.again world.now } app.host
        ⟨.heartbeat, [], 0⟩ write world.heap
      rw [Session.Core.sendHeartbeat, hsend]
  have hlater : world.now < (core.heartbeatTimer.again world.now).due := by
    change world.now < world.now + core.heartbeatTimer.interval
    rw [(hwatched id hdue.1).interval]
    exact Nat.lt_add_of_pos_right (by decide)
  have herase : World.dueTimers { world.setCore id
      (core.tick app.host write world.now world.heap).2 with
        heap := (core.tick app.host write world.now world.heap).1 } = world.dueTimers.erase id := by
    ext other
    rw [Finset.mem_erase, World.mem_dueTimers, World.mem_dueTimers]
    change _ ∧ (Function.update world.slot id _ other).core.heartbeatTimer.active ∧
      (Function.update world.slot id _ other).core.heartbeatTimer.due ≤ world.now ↔ _
    by_cases heq : other = id
    · subst heq
      rw [Function.update_self]
      simp only [htimer, ne_eq, not_true_eq_false, false_and, iff_false, not_and, not_le]
      exact fun _ _ ↦ hlater
    · rw [Function.update_of_ne heq]
      exact ⟨fun hother ↦ ⟨heq, hother⟩, fun hother ↦ hother.2⟩
  have hless : (world.dueTimers.erase id).card < world.dueTimers.card :=
    Finset.card_erase_lt_of_mem (World.mem_dueTimers.mpr hdue)
  unfold World.debt
  rw [herase]
  exact Nat.add_lt_add_right hless _

/-- A session whose close callback has not run is registered. -/
theorem Registered.mem_of_closeReqs (hworld : Registered world) {id : ℕ} (hid : id < world.created)
    (hdue : 0 < (world.slot id).core.socket.closeReqs) : id ∈ world.sessions := by
  have hcount : world.closedSessions.count id = 0 := ((hworld.guarded id hid).onClose hdue).1
  rw [hworld.sessions, List.mem_filter]
  exact ⟨List.mem_range.mpr hid, decide_eq_true (List.count_eq_zero.mp hcount)⟩

/-- A close callback takes its session out, and the close handler adds none and arms no timer. -/
theorem debt_onClose (hmakes : app.Makes Call.LeavesTimers) {id : ℕ} (hworld : Registered world)
    (hstep : step app world (.onClose id) = some next) : next.debt < world.debt := by
  obtain ⟨hdue, hhandle⟩ := step_eq_some.mp hstep
  have hserves : Serves 0 [] ((world.forget id).record id .close) next := .react 0 hhandle
  have hforgets (other : ℕ) : (((world.forget id).record id .close).now,
      (((world.forget id).record id .close).slot other).core.heartbeatTimer) =
        (world.now, (world.slot other).core.heartbeatTimer) := by
    change (world.now, (Function.update world.slot id _ other).core.heartbeatTimer) = _
    by_cases heq : other = id
    · subst heq
      rw [Function.update_self]
    · rw [Function.update_of_ne heq]
  have htimers : next.dueTimers = world.dueTimers :=
    World.dueTimers_congr hserves.created
      ((unbroken_timers app.host _).react (hmakes.close id _) hforgets hhandle)
  have hless : next.sessions.length < world.sessions.length := by
    rw [sessions_onClose hstep, List.length_filter_lt_length_iff_exists]
    exact ⟨id, hworld.mem_of_closeReqs hdue.1 hdue.2, by simp⟩
  unfold World.debt
  rw [htimers]
  exact Nat.add_lt_add_left hless _

/-- What the loop does lessens what it owes. -/
theorem debt_step (hmakes : app.Makes Call.LeavesTimers) {event : Event V H}
    (hwatched : world.Watched) (hworld : Registered world) (howed : event.IsOwed)
    (hstep : step app world event = some next) : next.debt < world.debt := by
  cases event with
  | onHeartbeatTimer id write => exact debt_onHeartbeatTimer hwatched hstep
  | onClose id => exact debt_onClose hmakes hworld hstep
  | call | onConnection | onRead | onWrite | transmit | elapse => exact howed.elim

/-! ## When nothing is owed -/

/-- The loop owes the server nothing. -/
def Settled (app : Application U V H) (world : World U V H) : Prop :=
  ∀ event next, Event.IsOwed event → step app world event ≠ some next

namespace Settled

variable {id : ℕ}

/-- No timer is due. -/
theorem timer (hsettled : Settled app world) (hid : id < world.created)
    (hactive : (world.slot id).core.heartbeatTimer.active) :
    world.now < (world.slot id).core.heartbeatTimer.due := by
  by_contra hdue
  exact hsettled (.onHeartbeatTimer id ⟨0, ⟨0, 0⟩, 0, 0⟩) _ trivial
    (step_eq_some.mpr ⟨⟨hid, hactive, not_lt.mp hdue⟩, rfl⟩)

/-- No close callback is pending. -/
theorem closeReqs (hsettled : Settled app world)
    (hclose : ∀ id world, (app.closeHandler id world).throws = none) (hid : id < world.created) :
    (world.slot id).core.socket.closeReqs = 0 := by
  by_contra hpending
  exact hsettled (.onClose id) _ trivial (step_eq_some.mpr
    ⟨⟨hid, Nat.pos_of_ne_zero hpending⟩, react_eq_returned.mpr ⟨hclose _ _, rfl⟩⟩)

end Settled

/-- A closing session has left the registry, and its close handler has been called, when nothing is
owed. -/
theorem Registered.closed (hworld : Registered world) {id : ℕ} (hid : id < world.created)
    (hclosing : (world.slot id).core.isClosing)
    (hreqs : (world.slot id).core.socket.closeReqs = 0) :
    id ∉ world.sessions ∧ InOrder true (world.callsOf id) := by
  have hguarded := hworld.guarded id hid
  have hcount : world.closedSessions.count id = 1 := by
    have hcalls := hguarded.closeCalls
    rw [hclosing, Bool.toNat_true, ← hguarded.closeReqs, hreqs, Nat.zero_add] at hcalls
    exact hcalls
  have hclosed : id ∈ world.closedSessions := List.count_pos_iff.mp (hcount ▸ Nat.one_pos)
  constructor
  · rw [hworld.sessions, List.mem_filter]
    exact fun hmem ↦ absurd hclosed (of_decide_eq_true hmem.2)
  · have horder := hworld.inOrder id hid
    rwa [decide_eq_true hclosed] at horder

/-- **Silent peers leave.** Take any state of a server whose user code leaves the heartbeat timers
alone and whose close handler does not throw, and anything that happens from then on.  The timers
and the close callbacks that the loop owes after that are worked off in a bounded number of steps;
and if it owes nothing, and the timeout and one interval have passed, each session on which no
heartbeat was heard has left the registry, and its handlers were called from the connect handler to
the close handler. -/
theorem silent_sessions_leave (app : Application U V H) (hmakes : app.Makes Call.LeavesTimers)
    (hclose : ∀ id world, (app.closeHandler id world).throws = none) (memory : U)
    (past : List (Event V H)) (hpast : ∀ call, .call call ∈ past → call.LeavesTimers)
    (world : World U V H) (hworld : runFrom (step app) past (.initial memory) = some world)
    (events : List (Event V H)) (hevents : ∀ call, .call call ∈ events → call.LeavesTimers)
    (heard : ℕ → List Packet) (last : World U V H)
    (hrun : runFrom (hearStep app) events (fun _ ↦ [], world) = some (heard, last)) :
    (∀ owed final, (∀ event ∈ owed, Event.IsOwed event) →
      runFrom (step app) owed last = some final →
      owed.length ≤ last.dueTimers.card + last.sessions.length) ∧
    (Settled app last → world.now + heartbeatTimeoutMs + heartbeatIntervalMs ≤ last.now →
      ∀ id < world.created, (∀ packet ∈ heard id, packet.type ≠ .heartbeat) →
        id ∉ last.sessions ∧ InOrder true (last.callsOf id)) := by
  have hwatched : world.Watched := watched_run hmakes hpast memory hworld
  let Holds (state : (ℕ → List Packet) × World U V H) : Prop :=
    (state.2.Watched ∧ Registered state.2) ∧
      ∀ id < world.created, state.2.Unheard id (world.slot id).core.lastHeartbeatTime state.1
  have hstep (event : Event V H) (hmem : event ∈ events)
      {state next : (ℕ → List Packet) × World U V H} (hholds : Holds state)
      (hstep : hearStep app state event = some next) : Holds next := by
    have hcalls (call : Call V H) (hcall : event = .call call) : call.LeavesTimers :=
      hevents call (hcall ▸ hmem)
    have hnext := (hearStep_eq_some hstep).1
    exact ⟨⟨watched_step hmakes hholds.1.1 hcalls hnext, hholds.1.2.step hnext⟩,
      fun id hid ↦ (unheard_step hmakes hcalls hholds.1.1 (hholds.2 id hid) hstep).2⟩
  have hregistered : Registered world :=
    runFrom_invariant Registered.step (registered_initial memory) hworld
  have hfirst : Holds (fun _ ↦ [], world) :=
    ⟨⟨hwatched, hregistered⟩, fun _ hid ↦ ⟨hid, fun _ ↦ rfl⟩⟩
  obtain ⟨⟨hlast, hlasting⟩, hunheard⟩ : Holds (heard, last) :=
    runFrom_invariant_of_mem Holds hstep hfirst hrun
  refine ⟨fun owed final howed hfinal ↦ ?_, fun hsettled hlong id hid hsilent ↦ ?_⟩
  · have hlessen {state after : World U V H} {event : Event V H}
        (hstate : state.Watched ∧ Registered state) (howed : event.IsOwed)
        (hstep : step app state event = some after) :
        (after.Watched ∧ Registered after) ∧ after.debt < state.debt := by
      have hcalls (call : Call V H) (hcall : event = .call call) : call.LeavesTimers := by
        rw [hcall] at howed
        exact howed.elim
      exact ⟨⟨watched_step hmakes hstate.1 hcalls hstep, hstate.2.step hstep⟩,
        debt_step hmakes hstate.1 hstate.2 howed hstep⟩
    obtain ⟨-, hlength⟩ := runFrom_lessens hlessen ⟨hlast, hlasting⟩ howed hfinal
    exact (Nat.le_add_right _ _).trans hlength
  · obtain ⟨hcreated, hsame⟩ := hunheard id hid
    have hguards : Session.Guards last.now (last.slot id).core := hlast id hcreated
    have hsame : (last.slot id).core.lastHeartbeatTime =
        (world.slot id).core.lastHeartbeatTime := hsame hsilent
    refine hlasting.closed hcreated ?_ (hsettled.closeReqs hclose hcreated)
    by_contra hopen
    have hdue := (hguards.watches hopen).due hguards.active
    have hnotDue := hsettled.timer hcreated hguards.active
    have hbegun := (hwatched id hid).last_le
    rw [hsame] at hdue
    omega

/-- Nothing comes for two minutes; then the second peer still gives a sign of life. -/
def twoMinutes : List (Event Unit Unit) :=
  [.elapse 120000, .onRead 1 12 heartbeatFrame, .onHeartbeatTimer 0 ⟨0, ⟨0, 0⟩, 0, 12⟩,
    .onHeartbeatTimer 1 ⟨0, ⟨0, 0⟩, 0, 12⟩, .onClose 0]

theorem silent_sessions_leave_one :
    ∃ world heard last, runFrom (step listener) [.onConnection 0 0, .onConnection 0 0]
        (.initial ()) = some world ∧
      runFrom (hearStep listener) twoMinutes (fun _ ↦ [], world) = some (heard, last) ∧
      1 ∈ last.sessions ∧ 0 ∉ last.sessions ∧ InOrder true (last.callsOf 0) := by
  have hleave heard last hrun := silent_sessions_leave listener listener_leavesTimers
    (fun _ _ ↦ rfl) () [.onConnection 0 0, .onConnection 0 0] (by simp) _ rfl twoMinutes
    (by simp [twoMinutes]) heard last hrun
  refine ⟨_, _, _, rfl, rfl, by decide, (hleave _ _ rfl).2 ?_ (by decide) 0 (by decide) (by decide)⟩
  intro event next howed hstep
  have hdue := (step_eq_some.mp hstep).1
  cases event with
  | onHeartbeatTimer id write =>
    have hid : id < 2 := hdue.1
    obtain rfl | rfl : id = 0 ∨ id = 1 := by omega
    · exact absurd hdue.2 (by decide)
    · exact absurd hdue.2 (by decide)
  | onClose id =>
    have hid : id < 2 := hdue.1
    obtain rfl | rfl : id = 0 ∨ id = 1 := by omega
    · exact absurd hdue.2 (by decide)
    · exact absurd hdue.2 (by decide)
  | call | onConnection | onRead | onWrite | transmit | elapse => exact howed.elim

end Server

end LibuvNet
