import LibuvNet.Server.Serving

/-!
# A broadcast on another thread

`Server::broadcast` walks through `sessions_` on the thread of the application, while the loop
that `Server::start` runs on its own thread goes on accepting connections and running close
callbacks.  `sessions_mutex_` is there for `sessions_`, but neither side takes it.  So the loop may
insert and remove sessions between two accesses of the walk, and the walk keeps the positions that
it took before: an insertion that has to move the vector leaves them without a vector, and a
removal shifts the sessions behind it below them.

Accesses of `sessions_` are single steps.  A callback of the loop makes at most one of them.
-/

namespace LibuvNet

open Foundation

namespace Server

variable {U V H : Type*}

/-- An iterator of `sessions_`: the storage it points into, and where. -/
structure Position where
  storage : ℕ
  index : ℕ
  deriving DecidableEq, Repr

theorem Position.index_lt {position finish : Position}
    (hstorage : position.storage = finish.storage) (hle : position.index ≤ finish.index)
    (hne : position ≠ finish) : position.index < finish.index := by
  refine lt_of_le_of_ne hle fun hindex ↦ hne ?_
  cases position
  cases finish
  rw [Position.mk.injEq]
  exact ⟨hstorage, hindex⟩

/-- How far the range-based loop of `Server::broadcast` has come. -/
inductive Cursor where
  | called
  | begun (position : Position)
  | among (position finish : Position)
  | strayed
  deriving DecidableEq, Repr

/-- A server, the storage of its vector of sessions, and one call of `Server::broadcast` with the
sessions it has sent the packet to. -/
structure Broadcast (U V H : Type*) where
  world : World U V H
  storage : ℕ
  capacity : ℕ
  cursor : Cursor
  sent : List ℕ

namespace Broadcast

/-- `Server::broadcast` is called. -/
def call (world : World U V H) (capacity : ℕ) : Broadcast U V H where
  world := world
  storage := 0
  capacity := capacity
  cursor := .called
  sent := []

variable (state : Broadcast U V H)

/-- What a position refers to, if it refers to an element of the vector as it is. -/
def deref (position : Position) : Option ℕ :=
  if position.storage = state.storage then state.world.sessions[position.index]? else none

/-- The position has reached the end that was taken for it. -/
def Returned : Prop :=
  match state.cursor with
  | .among position finish => position = finish
  | _ => False

instance : Decidable state.Returned := by
  unfold Returned
  split <;> infer_instance

/-! ## Steps -/

/-- `session->send(packet)` for the session at a position.  A position that refers to no element
leads the walk astray, and what comes then is undefined. -/
def visit (host : Host) (packet : Packet) (write : WriteCall) (position finish : Position) :
    Broadcast U V H :=
  match state.deref position with
  | none => { state with cursor := .strayed }
  | some id =>
    { state with
      world := state.world.send host id packet write
      cursor := .among { position with index := position.index + 1 } finish
      sent := if (state.world.slot id).core.isClosing then state.sent else state.sent ++ [id] }

/-- The loop has changed the world.  An insertion into a full vector moves it to a storage with
room for some more. -/
def afterLoop (spare : ℕ) (world : World U V H) : Broadcast U V H :=
  if state.capacity < world.sessions.length then
    { state with
      world := world
      storage := state.storage + 1
      capacity := world.sessions.length + spare }
  else { state with world := world }

/-- A step of the walk, or a step of the loop with the room a moved vector would get. -/
inductive Event (V H : Type*) where
  | begin
  | finish
  | visit (write : WriteCall)
  | loop (event : Server.Event V H) (spare : ℕ)

/-- The loop may accept a connection. -/
def Event.Inserts : Event V H → Prop
  | .loop (.onConnection _ _) _ => True
  | _ => False

instance : DecidablePred (Event.Inserts : Event V H → Prop) := fun event ↦ by
  unfold Event.Inserts
  split <;> infer_instance

/-- One step of the broadcast or of the loop. -/
def step (app : Application U V H) (packet : Packet) (state : Broadcast U V H) :
    Event V H → Option (Broadcast U V H)
  | .begin =>
    match state.cursor with
    | .called => some { state with cursor := .begun ⟨state.storage, 0⟩ }
    | _ => none
  | .finish =>
    match state.cursor with
    | .begun position =>
      some { state with cursor := .among position ⟨state.storage, state.world.sessions.length⟩ }
    | _ => none
  | .visit write =>
    match state.cursor with
    | .among position finish =>
      if position = finish then none else some (state.visit app.host packet write position finish)
    | _ => none
  | .loop event spare => (Server.step app state.world event).map (state.afterLoop spare)

variable {app : Application U V H} {packet : Packet} {state next : Broadcast U V H}
  {position finish : Position}

/-! ## What a step can do -/

/-- A vector with room is not moved. -/
theorem afterLoop_of_le {spare : ℕ} {world : World U V H}
    (hroom : world.sessions.length ≤ state.capacity) :
    state.afterLoop spare world = { state with world := world } :=
  if_neg (not_lt.mpr hroom)

theorem afterLoop_world (spare : ℕ) (world : World U V H) :
    (state.afterLoop spare world).world = world := by
  unfold afterLoop
  split <;> rfl

theorem afterLoop_cursor (spare : ℕ) (world : World U V H) :
    (state.afterLoop spare world).cursor = state.cursor := by
  unfold afterLoop
  split <;> rfl

theorem afterLoop_sent (spare : ℕ) (world : World U V H) :
    (state.afterLoop spare world).sent = state.sent := by
  unfold afterLoop
  split <;> rfl

theorem afterLoop_capacity (spare : ℕ) (world : World U V H) :
    world.sessions.length ≤ (state.afterLoop spare world).capacity := by
  unfold afterLoop
  split
  · exact Nat.le_add_right _ _
  · rename_i hroom
    exact not_lt.mp hroom

theorem lt_of_deref {id : ℕ} (hderef : state.deref position = some id) :
    position.index < state.world.sessions.length := by
  unfold deref at hderef
  split at hderef
  · exact (List.getElem?_eq_some_iff.mp hderef).1
  · cases hderef

theorem visit_of_deref {id : ℕ} (hderef : state.deref position = some id) (host : Host)
    (packet : Packet) (write : WriteCall) :
    state.visit host packet write position finish =
      { state with
        world := state.world.send host id packet write
        cursor := .among { position with index := position.index + 1 } finish
        sent := if (state.world.slot id).core.isClosing then state.sent
          else state.sent ++ [id] } := by
  unfold visit
  rw [hderef]

/-- A visit goes astray or moves on by one. -/
theorem visit_cases (host : Host) (write : WriteCall) :
    state.visit host packet write position finish = { state with cursor := .strayed } ∨
    ∃ id, state.deref position = some id ∧
      state.visit host packet write position finish =
        { state with
          world := state.world.send host id packet write
          cursor := .among { position with index := position.index + 1 } finish
          sent := if (state.world.slot id).core.isClosing then state.sent
            else state.sent ++ [id] } := by
  cases hderef : state.deref position with
  | none =>
    refine .inl ?_
    unfold visit
    rw [hderef]
  | some id => exact .inr ⟨id, rfl, visit_of_deref hderef host packet write⟩

/-- A step takes the first position, takes the end, visits the session at the position, or lets
the loop go on. -/
theorem walk_cases {event : Event V H} (hstep : step app packet state event = some next) :
    (event = .begin ∧ state.cursor = .called ∧
      next = { state with cursor := .begun ⟨state.storage, 0⟩ }) ∨
    (event = .finish ∧ ∃ position, state.cursor = .begun position ∧ next =
      { state with cursor := .among position ⟨state.storage, state.world.sessions.length⟩ }) ∨
    (∃ write position finish, event = .visit write ∧ state.cursor = .among position finish ∧
      position ≠ finish ∧ next = state.visit app.host packet write position finish) ∨
    (∃ loopEvent spare world, event = .loop loopEvent spare ∧
      Server.step app state.world loopEvent = some world ∧
      next = state.afterLoop spare world) := by
  cases event with
  | begin =>
    cases hcursor : state.cursor with
    | called =>
      simp only [step, hcursor, Option.some.injEq] at hstep
      exact .inl ⟨rfl, rfl, hstep.symm⟩
    | _ => simp only [step, hcursor, reduceCtorEq] at hstep
  | finish =>
    cases hcursor : state.cursor with
    | begun position =>
      simp only [step, hcursor, Option.some.injEq] at hstep
      exact .inr (.inl ⟨rfl, position, rfl, hstep.symm⟩)
    | _ => simp only [step, hcursor, reduceCtorEq] at hstep
  | visit write =>
    cases hcursor : state.cursor with
    | among position finish =>
      simp only [step, hcursor, Option.ite_none_left_eq_some, Option.some.injEq] at hstep
      exact .inr (.inr (.inl ⟨write, position, finish, rfl, rfl, hstep.1, hstep.2.symm⟩))
    | _ => simp only [step, hcursor, reduceCtorEq] at hstep
  | loop event spare =>
    obtain ⟨world, hworld, rfl⟩ := Option.map_eq_some_iff.mp hstep
    exact .inr (.inr (.inr ⟨event, spare, world, rfl, hworld, rfl⟩))

/-! ## A walk that nothing comes between -/

/-- The visits of the sessions from a position on do what the loop over them does. -/
theorem visits_alone (app : Application U V H) (packet : Packet) (world : World U V H)
    (before sessions : List ℕ) (hsessions : world.sessions = before ++ sessions)
    (storage capacity : ℕ) (sent : List ℕ) (writes : ℕ → WriteCall) :
    ∃ last, runFrom (step app packet) (sessions.map fun id ↦ .visit (writes id))
        ⟨world, storage, capacity,
          .among ⟨storage, before.length⟩ ⟨storage, world.sessions.length⟩, sent⟩ = some last ∧
      last.world =
        sessions.foldl (fun world id ↦ world.send app.host id packet (writes id)) world ∧
      last.Returned := by
  induction sessions generalizing world before sent with
  | nil =>
    refine ⟨_, rfl, rfl, ?_⟩
    rw [List.append_nil] at hsessions
    change Position.mk storage before.length = ⟨storage, world.sessions.length⟩
    rw [hsessions]
  | cons id sessions ih =>
    have hsent : (world.send app.host id packet (writes id)).sessions = world.sessions :=
      (Serves.send 0 world app.host id packet (writes id)).sessions
    have hnext := ih (world.send app.host id packet (writes id)) (before ++ [id])
      (by rw [hsent, hsessions, List.append_assoc, List.singleton_append])
      (if (world.slot id).core.isClosing then sent else sent ++ [id])
    rw [hsent, List.length_append, List.length_singleton] at hnext
    obtain ⟨last, hrun, hworld, hreturned⟩ := hnext
    have hlt : before.length < world.sessions.length := by
      rw [hsessions, List.length_append, List.length_cons]
      omega
    have hderef (cursor : Cursor) :
        (⟨world, storage, capacity, cursor, sent⟩ : Broadcast U V H).deref
          ⟨storage, before.length⟩ = some id := by
      unfold deref
      rw [if_pos rfl]
      simp only [hsessions, List.getElem?_append_right le_rfl, Nat.sub_self,
        List.getElem?_cons_zero]
    refine ⟨last, ?_, hworld, hreturned⟩
    rw [List.map_cons, runFrom_cons]
    refine ⟨_, ?_, hrun⟩
    have hne : Position.mk storage before.length ≠ ⟨storage, world.sessions.length⟩ :=
      fun heq ↦ hlt.ne (congrArg Position.index heq)
    simp only [Broadcast.step, if_neg hne, visit_of_deref (hderef _)]

/-- Without interleavings the walk does what `World.broadcast` says. -/
theorem walk_alone (app : Application U V H) (packet : Packet) (world : World U V H)
    (capacity : ℕ) (writes : ℕ → WriteCall) :
    ∃ last, runFrom (step app packet)
        (.begin :: .finish :: world.sessions.map fun id ↦ .visit (writes id))
        (call world capacity) = some last ∧
      last.world = world.broadcast app.host packet writes ∧ last.Returned := by
  obtain ⟨last, hrun, hlast⟩ := visits_alone app packet world [] world.sessions rfl 0
    capacity [] writes
  exact ⟨last, hrun, hlast⟩

/-! ## The property and its condition -/

/-- The walk has not left the vector, and if it has returned, every session that was open from the
start to the end was sent the packet exactly once. -/
def ReachesOpen (app : Application U V H) (packet : Packet) (events : List (Event V H))
    (start last : Broadcast U V H) : Prop :=
  last.cursor ≠ .strayed ∧ (last.Returned → ∀ id, start.world.Open id →
    Along (step app packet) (fun _ _ next ↦ next.world.Open id) events start →
      last.sent.count id = 1)

/-- The event does not disturb the positions of a walk that goes on: no close callback removes a
session from below its end, and no insertion has to move the vector. -/
def Undisturbed (state : Broadcast U V H) : Event V H → Prop
  | .loop (.onClose id) _ =>
    match state.cursor with
    | .among position finish =>
      position = finish ∨ id ∉ state.world.sessions.take finish.index
    | _ => True
  | .loop (.onConnection status _) _ =>
    match state.cursor with
    | .begun _ => status < 0 ∨ state.world.sessions.length < state.capacity
    | .among position finish =>
      position = finish ∨ status < 0 ∨ state.world.sessions.length < state.capacity
    | _ => True
  | _ => True

instance (event : Event V H) : Decidable (state.Undisturbed event) := by
  unfold Undisturbed
  split
  · split <;> infer_instance
  · split <;> infer_instance
  · infer_instance

/-- The call has returned or has gone astray. -/
def Ended (state : Broadcast U V H) : Prop := state.Returned ∨ state.cursor = .strayed

instance (state : Broadcast U V H) : Decidable state.Ended := by
  unfold Ended
  infer_instance

end Broadcast

end Server

end LibuvNet
