import LibuvNet.Server.Broadcast
import LibuvNet.Server.Registry
import Mathlib.Data.List.Nodup

/-!
# Whom a broadcast reaches

A walk that the loop does not disturb keeps to its track: it has sent the packet to the open
sessions before its position, and its end is behind all sessions that were there at the start.  A
walk that is disturbed by a removal below its end is doomed, unless a new session happens to take
the place that became free: it has an end to reach that is no longer in the vector.
-/

namespace LibuvNet

open Foundation

namespace Server

variable {U V H : Type*}

/-- A removal from behind a place leaves what is before it. -/
theorem take_filter_ne {sessions : List ℕ} {count closed : ℕ}
    (hcount : count ≤ sessions.length) (hclosed : closed ∉ sessions.take count) :
    (sessions.filter fun other ↦ other ≠ closed).take count = sessions.take count := by
  have hkept : ((sessions.take count).filter fun other ↦ other ≠ closed) =
      sessions.take count := by
    rw [List.filter_eq_self]
    intro other hother
    exact decide_eq_true fun heq ↦ hclosed (heq ▸ hother)
  have hlength : (sessions.take count).length = count := List.length_take_of_le hcount
  calc (sessions.filter fun other ↦ other ≠ closed).take count
      = ((sessions.take count ++ sessions.drop count).filter fun other ↦ other ≠ closed).take
          count := by rw [List.take_append_drop]
    _ = (sessions.take count ++ (sessions.drop count).filter fun other ↦ other ≠ closed).take
          count := by rw [List.filter_append, hkept]
    _ = sessions.take count := List.take_left' hlength

namespace Broadcast

/-! ## The walk stays on its track -/

variable {start : List ℕ} {state next : Broadcast U V H} {position finish : Position}

/-- The walk has sent the packet to the sessions before its position, and the end it has taken is
behind every session that was there at the start. -/
structure Tracks (start : List ℕ) (state : Broadcast U V H) (position finish : Position) :
    Prop where
  storage : position.storage = state.storage
  finishStorage : finish.storage = state.storage
  le : position.index ≤ finish.index
  within : finish.index ≤ state.world.sessions.length
  reach : ∀ id ∈ start, id ∈ state.world.sessions →
    id ∈ state.world.sessions.take finish.index
  sent : ∀ id ∈ start, state.world.Open id →
    state.sent.count id = (state.world.sessions.take position.index).count id

/-- What a walk that has not been disturbed has done, by how far it has come. -/
def Tracked (start : List ℕ) (state : Broadcast U V H) : Prop :=
  match state.cursor with
  | .called => state.sent = []
  | .begun position => position = ⟨state.storage, 0⟩ ∧ state.sent = []
  | .among position finish =>
    if position = finish then ∀ id ∈ start, state.world.Open id → state.sent.count id = 1
    else Tracks start state position finish
  | .strayed => False

/-- The invariant of a broadcast that is not disturbed. -/
structure OnTrack (start : List ℕ) (state : Broadcast U V H) : Prop where
  registered : Registered state.world
  capacity : state.world.sessions.length ≤ state.capacity
  known : ∀ id ∈ start, id < state.world.created
  tracked : Tracked start state

theorem tracked_called (hcursor : state.cursor = .called) :
    Tracked start state ↔ state.sent = [] := by
  unfold Tracked
  rw [hcursor]

theorem tracked_begun (hcursor : state.cursor = .begun position) :
    Tracked start state ↔ position = ⟨state.storage, 0⟩ ∧ state.sent = [] := by
  unfold Tracked
  rw [hcursor]

theorem tracked_going (hcursor : state.cursor = .among position finish)
    (hne : position ≠ finish) : Tracked start state ↔ Tracks start state position finish := by
  unfold Tracked
  rw [hcursor]
  exact iff_of_eq (if_neg hne)

theorem tracked_returned (hcursor : state.cursor = .among position position) :
    Tracked start state ↔ ∀ id ∈ start, state.world.Open id → state.sent.count id = 1 := by
  unfold Tracked
  rw [hcursor]
  exact iff_of_eq (if_pos rfl)

theorem not_tracked_strayed (hcursor : state.cursor = .strayed) : ¬ Tracked start state := by
  unfold Tracked
  rw [hcursor]
  exact not_false

/-- A session that is registered once is counted once among all of them. -/
theorem Tracks.tracked (hregistered : Registered state.world)
    (hcursor : state.cursor = .among position finish)
    (htracks : Tracks start state position finish) : Tracked start state := by
  by_cases hend : position = finish
  · subst hend
    rw [tracked_returned hcursor]
    intro id hid hopen
    have hnodup : (state.world.sessions.take position.index).Nodup :=
      hregistered.nodup.sublist (List.take_sublist _ _)
    calc state.sent.count id
        = (state.world.sessions.take position.index).count id := htracks.sent id hid hopen
      _ = 1 := List.count_eq_one_of_mem hnodup (htracks.reach id hid hopen.1)
  · exact (tracked_going hcursor hend).mpr htracks

/-- The position of a walk that goes on refers to an element. -/
theorem Tracks.deref_eq (htracks : Tracks start state position finish)
    (hne : position ≠ finish) :
    ∃ id, state.world.sessions[position.index]? = some id ∧ state.deref position = some id ∧
      position.index < finish.index := by
  have hlt := Position.index_lt (htracks.storage.trans htracks.finishStorage.symm) htracks.le hne
  have hlt' : position.index < state.world.sessions.length := lt_of_lt_of_le hlt htracks.within
  refine ⟨_, List.getElem?_eq_getElem hlt', ?_, hlt⟩
  unfold deref
  rw [if_pos htracks.storage]
  exact List.getElem?_eq_getElem hlt'

theorem Tracks.visit (htracks : Tracks start state position finish)
    (hknown : ∀ id ∈ start, id < state.world.created) (hne : position ≠ finish)
    (host : Host) (packet : Packet) (write : WriteCall) :
    Tracks start (state.visit host packet write position finish)
      { position with index := position.index + 1 } finish := by
  obtain ⟨id, helement, hderef, hlt⟩ := htracks.deref_eq hne
  have hsends := Serves.send id state.world host id packet write
  rw [visit_of_deref hderef]
  refine ⟨htracks.storage, htracks.finishStorage, hlt, ?_, ?_, ?_⟩
  · exact hsends.sessions ▸ htracks.within
  · intro other hother hmem
    rw [hsends.sessions] at hmem ⊢
    exact htracks.reach other hother hmem
  · intro other hother hopen
    have hopen := (Older.of_serves hsends).isOpen (hknown other hother) hopen
    have hsent := htracks.sent other hother hopen
    have hnext : (state.world.sessions.take (position.index + 1)).count other =
        state.sent.count other + [id].count other := by
      rw [List.take_add_one, helement, Option.toList_some, List.count_append, ← hsent]
    change List.count other (if _ then state.sent else _) = List.count other (List.take _ _)
    rw [hsends.sessions, hnext]
    split
    · -- A session that is closing is passed over, and is not the open one.
      rename_i hclosing
      have hne : id ≠ other := by
        rintro rfl
        rw [hopen.2] at hclosing
        cases hclosing
      rw [List.count_singleton, if_neg (by simpa using hne), Nat.add_zero]
    · exact List.count_append

/-- What the loop may do to the vector while a walk goes on. -/
theorem Tracks.loop {world : World U V H} (htracks : Tracks start state position finish)
    (hknown : ∀ id ∈ start, id < state.world.created) (holder : Older state.world world)
    (hwithin : finish.index ≤ world.sessions.length)
    (hsame : world.sessions.take finish.index = state.world.sessions.take finish.index) :
    Tracks start { state with world := world } position finish where
  storage := htracks.storage
  finishStorage := htracks.finishStorage
  le := htracks.le
  within := hwithin
  reach id hid hmem := by
    change id ∈ world.sessions.take finish.index
    rw [hsame]
    exact htracks.reach id hid (holder.mem id (hknown id hid) hmem)
  sent id hid hopen := by
    have hbefore : world.sessions.take position.index =
        state.world.sessions.take position.index := by
      calc world.sessions.take position.index
          = (world.sessions.take finish.index).take position.index := by
            rw [List.take_take, min_eq_left htracks.le]
        _ = state.world.sessions.take position.index := by
            rw [hsame, List.take_take, min_eq_left htracks.le]
    change state.sent.count id = (world.sessions.take position.index).count id
    rw [hbefore]
    exact htracks.sent id hid (holder.isOpen (hknown id hid) hopen)

/-! ## Steps that do not disturb the walk -/

variable {app : Application U V H} {packet : Packet}

/-- While the walk goes on, a step of the loop that does not disturb it fits into the storage. -/
theorem fits_of_undisturbed {event : Server.Event V H} {spare : ℕ} {world : World U V H}
    (hcapacity : state.world.sessions.length ≤ state.capacity)
    (hstep : Server.step app state.world event = some world)
    (hundisturbed : state.Undisturbed (.loop event spare))
    (hgoing : (∃ position, state.cursor = .begun position) ∨
      ∃ position finish, state.cursor = .among position finish ∧ position ≠ finish) :
    world.sessions.length ≤ state.capacity := by
  rcases sessions_step hstep with hsame | ⟨status, readResult, rfl, haccepted, hsessions⟩ |
    ⟨closed, rfl, hsessions⟩
  · rwa [hsame]
  · have hroom : state.world.sessions.length < state.capacity := by
      unfold Undisturbed at hundisturbed
      rcases hgoing with ⟨position, hcursor⟩ | ⟨position, finish, hcursor, hne⟩
      · simp only [hcursor, haccepted, false_or] at hundisturbed
        exact hundisturbed
      · simp only [hcursor, haccepted, hne, false_or] at hundisturbed
        exact hundisturbed
    rw [hsessions, List.length_append]
    exact hroom
  · rw [hsessions]
    exact (List.length_filter_le _ _).trans hcapacity

theorem Tracks.loop_step {event : Server.Event V H} {spare : ℕ} {world : World U V H}
    (htracks : Tracks start state position finish) (hcursor : state.cursor = .among position finish)
    (hne : position ≠ finish) (hknown : ∀ id ∈ start, id < state.world.created)
    (hstep : Server.step app state.world event = some world)
    (hundisturbed : state.Undisturbed (.loop event spare)) :
    Tracks start { state with world := world } position finish := by
  have holder := Older.of_step hstep
  rcases sessions_step hstep with hsame | ⟨status, readResult, rfl, -, hsessions⟩ |
    ⟨closed, rfl, hsessions⟩
  · exact htracks.loop hknown holder (hsame ▸ htracks.within) (by rw [hsame])
  · apply htracks.loop hknown holder
    · rw [hsessions, List.length_append]
      exact htracks.within.trans (Nat.le_add_right _ _)
    · rw [hsessions, List.take_append_of_le_length htracks.within]
  · have hclosed : closed ∉ state.world.sessions.take finish.index := by
      unfold Undisturbed at hundisturbed
      simp only [hcursor, hne, false_or] at hundisturbed
      exact hundisturbed
    have hsame := take_filter_ne htracks.within hclosed
    refine htracks.loop hknown holder ?_ (by rw [hsessions, hsame])
    have hlength := congrArg List.length hsame
    rw [List.length_take_of_le htracks.within, List.length_take] at hlength
    rw [hsessions]
    omega

theorem onTrack_call {world : World U V H} {capacity : ℕ} (hregistered : Registered world)
    (hcapacity : world.sessions.length ≤ capacity) :
    OnTrack world.sessions (call world capacity) where
  registered := hregistered
  capacity := hcapacity
  known id hid := by
    rw [hregistered.sessions] at hid
    exact List.mem_range.mp (List.mem_of_mem_filter hid)
  tracked := rfl

namespace OnTrack

theorem visit (hstate : OnTrack start state) (hcursor : state.cursor = .among position finish)
    (hne : position ≠ finish) (host : Host) (write : WriteCall) :
    OnTrack start (state.visit host packet write position finish) := by
  have htracks := (tracked_going hcursor hne).mp hstate.tracked
  have hvisited := htracks.visit hstate.known hne host packet write
  obtain ⟨id, -, hderef, -⟩ := htracks.deref_eq hne
  have hsends := Serves.send id state.world host id packet write
  rw [visit_of_deref hderef] at hvisited ⊢
  have hregistered := hstate.registered.serves hsends (absurd rfl)
  exact ⟨hregistered, hsends.sessions ▸ hstate.capacity,
    fun other hother ↦ hsends.created ▸ hstate.known other hother,
    hvisited.tracked hregistered rfl⟩

theorem loop (hstate : OnTrack start state) {event : Server.Event V H} {spare : ℕ}
    {world : World U V H} (hstep : Server.step app state.world event = some world)
    (hundisturbed : state.Undisturbed (.loop event spare)) :
    OnTrack start (state.afterLoop spare world) := by
  have holder := Older.of_step hstep
  have hregistered : Registered (state.afterLoop spare world).world := by
    rw [afterLoop_world]
    exact hstate.registered.step hstep
  refine ⟨hregistered, ?_, ?_, ?_⟩
  · rw [afterLoop_world]
    exact afterLoop_capacity spare world
  · intro id hid
    rw [afterLoop_world]
    exact lt_of_lt_of_le (hstate.known id hid) holder.created
  · have htracked := hstate.tracked
    cases hcursor : state.cursor with
    | called =>
      have hcursor' := (afterLoop_cursor spare world).trans hcursor
      rw [tracked_called hcursor] at htracked
      rw [tracked_called hcursor', afterLoop_sent, htracked]
    | begun position =>
      have hroom := fits_of_undisturbed hstate.capacity hstep hundisturbed (.inl ⟨_, hcursor⟩)
      have hcursor' : ({ state with world := world } : Broadcast U V H).cursor =
          .begun position := hcursor
      rw [tracked_begun hcursor] at htracked
      rw [afterLoop_of_le hroom, tracked_begun hcursor']
      exact htracked
    | among position finish =>
      by_cases hend : position = finish
      · subst hend
        have hcursor' := (afterLoop_cursor spare world).trans hcursor
        rw [tracked_returned hcursor']
        intro id hid hopen
        rw [afterLoop_world] at hopen
        rw [afterLoop_sent]
        exact (tracked_returned hcursor).mp htracked id hid
          (holder.isOpen (hstate.known id hid) hopen)
      · have hroom := fits_of_undisturbed hstate.capacity hstep hundisturbed
          (.inr ⟨_, _, hcursor, hend⟩)
        have htracks := ((tracked_going hcursor hend).mp htracked).loop_step hcursor hend
          hstate.known hstep hundisturbed
        rw [afterLoop_world] at hregistered
        rw [afterLoop_of_le hroom]
        exact htracks.tracked hregistered hcursor
    | strayed => exact absurd htracked (not_tracked_strayed hcursor)

/-- A step that does not disturb the walk keeps it on its track. -/
theorem step {event : Event V H} (hstate : OnTrack start state)
    (hstep : step app packet state event = some next) (hundisturbed : state.Undisturbed event) :
    OnTrack start next := by
  have htracked := hstate.tracked
  rcases walk_cases hstep with ⟨-, hcursor, rfl⟩ | ⟨-, position, hcursor, rfl⟩ |
    ⟨write, position, finish, -, hcursor, hne, rfl⟩ | ⟨event, spare, world, rfl, hworld, rfl⟩
  · rw [tracked_called hcursor] at htracked
    exact ⟨hstate.registered, hstate.capacity, hstate.known, rfl, htracked⟩
  · rw [tracked_begun hcursor] at htracked
    obtain ⟨rfl, hsent⟩ := htracked
    refine ⟨hstate.registered, hstate.capacity, hstate.known,
      Tracks.tracked hstate.registered rfl ⟨rfl, rfl, Nat.zero_le _, le_rfl, ?_, ?_⟩⟩
    · intro id _ hmem
      rwa [List.take_length]
    · intro id _ _
      rw [hsent, List.take_zero]
  · exact hstate.visit hcursor hne app.host write
  · exact hstate.loop hworld hundisturbed

end OnTrack

end Broadcast

/-! ## A removal below the end -/

/-- The end that the walk has taken is no longer in the vector. -/
def Cursor.Doomed (length : ℕ) : Cursor → Prop
  | .among position finish => position.index < finish.index ∧ length < finish.index
  | .strayed => True
  | _ => False

/-- The positions of a walk during which the vector has not grown. -/
def Cursor.Bounded (storage length : ℕ) : Cursor → Prop
  | .begun position => position = ⟨storage, 0⟩
  | .among position finish =>
    position.storage = finish.storage ∧ position.index ≤ finish.index ∧ length ≤ finish.index
  | _ => True

theorem Cursor.Doomed.mono {cursor : Cursor} {length shorter : ℕ}
    (hdoomed : cursor.Doomed length) (hle : shorter ≤ length) : cursor.Doomed shorter := by
  cases cursor with
  | among position finish => exact ⟨hdoomed.1, lt_of_le_of_lt hle hdoomed.2⟩
  | _ => exact hdoomed

theorem Cursor.Bounded.mono {cursor : Cursor} {storage length shorter : ℕ}
    (hbounded : cursor.Bounded storage length) (hle : shorter ≤ length) :
    cursor.Bounded storage shorter := by
  cases cursor with
  | among position finish => exact ⟨hbounded.1, hbounded.2.1, hle.trans hbounded.2.2⟩
  | _ => exact hbounded

namespace Broadcast

variable {app : Application U V H} {packet : Packet} {state next : Broadcast U V H}
  {position finish : Position}

/-- The walk can only go astray from here, or not return. -/
def Doomed (state : Broadcast U V H) : Prop :=
  state.cursor.Doomed state.world.sessions.length

/-- The invariant of a broadcast during which no connection is accepted. -/
structure Bounded (state : Broadcast U V H) : Prop where
  capacity : state.world.sessions.length ≤ state.capacity
  cursor : state.cursor.Bounded state.storage state.world.sessions.length

theorem Doomed.not_returned (hdoomed : state.Doomed) : ¬ state.Returned := by
  unfold Doomed at hdoomed
  unfold Returned
  cases hcursor : state.cursor with
  | among position finish =>
    rw [hcursor] at hdoomed
    rintro rfl
    exact lt_irrefl _ hdoomed.1
  | _ => exact not_false

/-- A step of the loop that accepts no connection does not make the vector longer. -/
theorem sessions_length_le {event : Server.Event V H} {spare : ℕ} {world : World U V H}
    (hinserts : ¬ Event.Inserts (.loop event spare))
    (hstep : Server.step app state.world event = some world) :
    world.sessions.length ≤ state.world.sessions.length := by
  rcases sessions_step hstep with hsame | ⟨status, readResult, rfl, -, -⟩ | ⟨closed, -, hsessions⟩
  · rw [hsame]
  · exact absurd trivial hinserts
  · rw [hsessions]
    exact List.length_filter_le _ _

theorem Doomed.step {event : Event V H} (hdoomed : state.Doomed) (hinserts : ¬ event.Inserts)
    (hstep : step app packet state event = some next) : next.Doomed := by
  unfold Doomed at hdoomed
  rcases walk_cases hstep with ⟨-, hcursor, -⟩ | ⟨-, position, hcursor, -⟩ |
    ⟨write, position, finish, -, hcursor, -, rfl⟩ | ⟨event, spare, world, rfl, hworld, rfl⟩
  · rw [hcursor] at hdoomed
    exact hdoomed.elim
  · rw [hcursor] at hdoomed
    exact hdoomed.elim
  · rw [hcursor] at hdoomed
    rcases visit_cases app.host write with hstrayed | ⟨id, hderef, hvisit⟩
    · rw [hstrayed]
      exact trivial
    · have hlt := lt_of_deref hderef
      rw [hvisit]
      exact ⟨lt_of_le_of_lt hlt hdoomed.2, hdoomed.2⟩
  · unfold Doomed
    rw [afterLoop_cursor, afterLoop_world]
    exact hdoomed.mono (sessions_length_le hinserts hworld)

/-- Unless a connection is accepted, only a close callback disturbs a walk. -/
theorem disturbed_cases {event : Event V H} (hinserts : ¬ event.Inserts)
    (hdisturbed : ¬ state.Undisturbed event) :
    ∃ id spare position finish, event = .loop (.onClose id) spare ∧
      state.cursor = .among position finish ∧ position ≠ finish ∧
      id ∈ state.world.sessions.take finish.index := by
  cases event with
  | loop event spare =>
    cases event with
    | onClose id =>
      cases hcursor : state.cursor with
      | among position finish =>
        simp only [Undisturbed, hcursor, not_or, not_not] at hdisturbed
        exact ⟨id, spare, position, finish, rfl, rfl, hdisturbed⟩
      | _ => simp only [Undisturbed, hcursor, not_true_eq_false] at hdisturbed
    | onConnection status readResult => exact absurd trivial hinserts
    | _ => exact absurd trivial hdisturbed
  | _ => exact absurd trivial hdisturbed

/-- While no connection is accepted, a step that disturbs the walk dooms it. -/
theorem Bounded.doomed {event : Event V H} (hbounded : state.Bounded)
    (hinserts : ¬ event.Inserts) (hstep : step app packet state event = some next)
    (hdisturbed : ¬ state.Undisturbed event) : next.Doomed := by
  obtain ⟨id, spare, position, finish, rfl, hcursor, hne, hmem⟩ :=
    disturbed_cases hinserts hdisturbed
  obtain ⟨world, hworld, rfl⟩ := Option.map_eq_some_iff.mp hstep
  have hcursor' := hbounded.cursor
  rw [hcursor] at hcursor'
  obtain ⟨hstorage, hle, hlength⟩ := hcursor'
  have hshorter : world.sessions.length < state.world.sessions.length := by
    rw [sessions_onClose hworld, List.length_filter_lt_length_iff_exists]
    exact ⟨id, List.mem_of_mem_take hmem, by simp⟩
  unfold Doomed
  rw [afterLoop_cursor, afterLoop_world, hcursor]
  exact ⟨Position.index_lt hstorage hle hne, lt_of_lt_of_le hshorter hlength⟩

theorem Bounded.step {event : Event V H} (hbounded : state.Bounded)
    (hinserts : ¬ event.Inserts) (hstep : step app packet state event = some next) :
    next.Bounded := by
  have hcursor' := hbounded.cursor
  rcases walk_cases hstep with ⟨-, hcursor, rfl⟩ | ⟨-, position, hcursor, rfl⟩ |
    ⟨write, position, finish, -, hcursor, hne, rfl⟩ | ⟨event, spare, world, rfl, hworld, rfl⟩
  · exact ⟨hbounded.capacity, rfl⟩
  · rw [hcursor] at hcursor'
    obtain rfl := hcursor'
    exact ⟨hbounded.capacity, rfl, Nat.zero_le _, le_rfl⟩
  · rw [hcursor] at hcursor'
    rcases visit_cases app.host write with hstrayed | ⟨id, hderef, hvisit⟩
    · rw [hstrayed]
      exact ⟨hbounded.capacity, trivial⟩
    · obtain ⟨hstorage, hle, hlength⟩ := hcursor'
      have hsessions := (Serves.send 0 state.world app.host id packet write).sessions
      rw [hvisit]
      exact ⟨hsessions ▸ hbounded.capacity, hstorage, Position.index_lt hstorage hle hne,
        hsessions ▸ hlength⟩
  · have hle := sessions_length_le hinserts hworld
    rw [afterLoop_of_le (hle.trans hbounded.capacity)]
    exact ⟨hle.trans hbounded.capacity, hbounded.cursor.mono hle⟩

theorem OnTrack.reachesOpen {world : World U V H} {capacity : ℕ} {events : List (Event V H)}
    {last : Broadcast U V H} (hlast : OnTrack world.sessions last)
    (hrun : runFrom (Broadcast.step app packet) events (call world capacity) = some last) :
    ReachesOpen app packet events (call world capacity) last := by
  refine ⟨fun hstrayed ↦ not_tracked_strayed hstrayed hlast.tracked, ?_⟩
  intro hreturned id hopen halong
  have hkeep {state next : Broadcast U V H} {event : Event V H} (_ : state.world.Open id)
      (_ : Broadcast.step app packet state event = some next) (hnext : next.world.Open id) :
      next.world.Open id := hnext
  have hopen' : last.world.Open id :=
    halong.invariant hkeep hopen hrun
  unfold Returned at hreturned
  cases hcursor : last.cursor with
  | among position finish =>
    rw [hcursor] at hreturned
    obtain rfl := hreturned
    exact (tracked_returned hcursor).mp hlast.tracked id hopen.1 hopen'
  | _ =>
    rw [hcursor] at hreturned
    exact hreturned.elim

/-- **A broadcast reaches every open session.** A walk whose steps are not disturbed by the loop
never leaves the vector, and when it returns, it has sent the packet once to every session that was
open all the time.  A broadcast that ends and during which no connection was accepted does so only
if it was not disturbed. -/
theorem broadcast_reaches_open (app : Application U V H) (memory : U)
    (earlier : List (Server.Event V H)) (world : World U V H)
    (hworld : runFrom (Server.step app) earlier (.initial memory) = some world) (capacity : ℕ)
    (hcapacity : world.sessions.length ≤ capacity) (packet : Packet) (events : List (Event V H))
    (last : Broadcast U V H)
    (hrun : runFrom (step app packet) events (call world capacity) = some last) :
    (Along (step app packet) (fun state event _ ↦ state.Undisturbed event) events
        (call world capacity) →
      ReachesOpen app packet events (call world capacity) last) ∧
    ((∀ event ∈ events, ¬ event.Inserts) → last.Ended →
      (ReachesOpen app packet events (call world capacity) last ↔
        Along (step app packet) (fun state event _ ↦ state.Undisturbed event) events
          (call world capacity))) := by
  have hregistered := runFrom_invariant Registered.step (registered_initial memory) hworld
  have hstart := onTrack_call hregistered hcapacity
  have henough (halong : Along (step app packet) (fun state event _ ↦ state.Undisturbed event)
      events (call world capacity)) : ReachesOpen app packet events (call world capacity) last :=
    (halong.invariant OnTrack.step hstart hrun).reachesOpen hrun
  refine ⟨henough, fun hinserts hended ↦ ⟨fun hreaches ↦ ?_, henough⟩⟩
  have hreturned : last.Returned := hended.resolve_right hreaches.1
  have hbounded : (call world capacity).Bounded := ⟨hcapacity, trivial⟩
  exact Along.of_last
    (fun event hevent _ _ hstate hstep _ ↦ hstate.step (hinserts event hevent) hstep)
    (fun event hevent _ _ hstate hstep ↦ hstate.doomed (hinserts event hevent) hstep)
    (fun event hevent _ _ hstate hstep ↦ hstate.step (hinserts event hevent) hstep)
    hbounded hrun fun hdoomed ↦ hdoomed.not_returned hreturned

/-- Two connections. -/
def acceptTwo : List (Server.Event Unit Unit) := [.onConnection 0 0, .onConnection 0 0]

/-- A visit during which the transport takes the whole packet. -/
def visitWhole : Event Unit Unit := .visit ⟨0, ⟨0, 0⟩, 0, 12⟩

/-- Between the visits the first packet is written out and reported. -/
def visitBoth : List (Event Unit Unit) :=
  [.begin, .finish, visitWhole, .loop (.transmit 0 12) 0, .loop (.onWrite 0 0) 0, visitWhole]

/-- Between the visits another connection is accepted. -/
def acceptBetween : List (Event Unit Unit) :=
  [.begin, .finish, visitWhole, .loop (.onConnection 0 0) 0, visitWhole]

/-- A vector with room for a third session is not moved when the third one comes. -/
theorem broadcast_reaches_open_two :
    ∃ world last accepted, runFrom (Server.step hangingUp) acceptTwo (.initial ()) = some world ∧
      runFrom (step hangingUp ⟨.text, [], 0⟩) visitBoth (call world 2) = some last ∧
      last.sent = [0, 1] ∧
      ReachesOpen hangingUp ⟨.text, [], 0⟩ visitBoth (call world 2) last ∧
      runFrom (step hangingUp ⟨.text, [], 0⟩) acceptBetween (call world 3) = some accepted ∧
      accepted.sent = [0, 1] ∧
      ReachesOpen hangingUp ⟨.text, [], 0⟩ acceptBetween (call world 3) accepted := by
  refine ⟨_, _, _, rfl, rfl, rfl, ?_, rfl, rfl, ?_⟩
  · obtain ⟨-, hexactly⟩ := broadcast_reaches_open hangingUp () acceptTwo _ rfl 2 (by decide)
      ⟨.text, [], 0⟩ visitBoth _ rfl
    exact (hexactly (by decide) (by decide)).mpr (by decide)
  · obtain ⟨henough, -⟩ := broadcast_reaches_open hangingUp () acceptTwo _ rfl 3 (by decide)
      ⟨.text, [], 0⟩ acceptBetween _ rfl
    exact henough (by decide)

/-- The first of two sessions is closed and forgotten after it was visited. -/
def forgetFirst : List (Event Unit Unit) :=
  [.begin, .finish, visitWhole, .loop (.call (.close 0)) 0, .loop (.onClose 0) 0]

/-- The second session moves below the position.  With a third connection the walk returns without
having sent it the packet, and otherwise it leaves the vector. -/
theorem open_session_missed :
    ∃ world returned strayed,
      runFrom (Server.step hangingUp) acceptTwo (.initial ()) = some world ∧
      runFrom (step hangingUp ⟨.text, [], 0⟩)
        (forgetFirst ++ [.loop (.onConnection 0 0) 0, visitWhole]) (call world 2) =
          some returned ∧
      returned.sent = [0, 2] ∧
      ¬ ReachesOpen hangingUp ⟨.text, [], 0⟩
        (forgetFirst ++ [.loop (.onConnection 0 0) 0, visitWhole]) (call world 2) returned ∧
      runFrom (step hangingUp ⟨.text, [], 0⟩) (forgetFirst ++ [visitWhole])
        (call world 2) = some strayed ∧
      ¬ ReachesOpen hangingUp ⟨.text, [], 0⟩ (forgetFirst ++ [visitWhole])
        (call world 2) strayed := by
  refine ⟨_, _, _, rfl, rfl, rfl, ?_, rfl, ?_⟩
  · intro hreaches
    have honce := hreaches.2 (by decide) 1 (by decide) (by decide)
    cases honce
  · intro hreaches
    exact hreaches.1 rfl

end Broadcast

end Server

end LibuvNet
