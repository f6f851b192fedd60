import LibuvNet.Server.Registry
import Mathlib.Data.Finset.Card
import Mathlib.Data.Finset.Range
import Mathlib.Data.List.Nodup
import Mathlib.Data.List.TakeWhile

/-!
# Who owns a session

A session lives as long as a `shared_ptr` to it does.  `on_connection` leaves three of them behind:
the entry in `sessions_`, and one in each of the two handlers that it stores in the session itself,
the default packet handler and the close handler.  The close handler removes the entry; nothing
removes the handlers.  So a session that the server has forgotten still owns itself, unless user
code has replaced both handlers, the close handler not before it was called.

The owners are followed by themselves here; every run of a server is one of their runs.
-/

namespace LibuvNet

open Foundation

namespace Server

/-- The owners of the sessions of a server: the registry, for each session whether the handlers
stored in it are those of `on_connection`, which hold the session, and the references that user
code keeps.  The close callback has returned for the sessions in `closed`. -/
structure Ownership where
  created : ℕ
  sessions : List ℕ
  defaultPacketHandler : ℕ → Bool
  closeHandler : ℕ → Bool
  closed : List ℕ
  kept : List ℕ

namespace Ownership

def initial : Ownership where
  created := 0
  sessions := []
  defaultPacketHandler _ := false
  closeHandler _ := false
  closed := []
  kept := []

/-- What happens to owners: a connection is accepted, the close callback of a session runs, user
code replaces a handler of a session, keeps a reference or gives one up. -/
inductive Event where
  | accept
  | onClose (id : ℕ)
  | setDefaultPacketHandler (id : ℕ)
  | setCloseHandler (id : ℕ)
  | keep (id : ℕ)
  | release (id : ℕ)
  deriving DecidableEq, Repr

variable (owners : Ownership)

/-- `Server::on_connection`: the session is entered in `sessions_` and captured by the two handlers
it is given; the local reference ends with the call. -/
def accept : Ownership :=
  { owners with
    created := owners.created + 1
    sessions := owners.sessions ++ [owners.created]
    defaultPacketHandler := Function.update owners.defaultPacketHandler owners.created true
    closeHandler := Function.update owners.closeHandler owners.created true }

/-- `Session::on_close`: the close handler of `on_connection` removes the session from `sessions_`,
one of the user does not. -/
def onClose (id : ℕ) : Ownership :=
  { owners with
    sessions :=
      if owners.closeHandler id then owners.sessions.filter fun other ↦ other ≠ id
      else owners.sessions
    closed := owners.closed ++ [id] }

/-- One step of the owners. -/
def step (owners : Ownership) : Event → Option Ownership
  | .accept => some owners.accept
  | .onClose id =>
    if id < owners.created ∧ id ∉ owners.closed then some (owners.onClose id) else none
  | .setDefaultPacketHandler id =>
    if id < owners.created then
      some { owners with
        defaultPacketHandler := Function.update owners.defaultPacketHandler id false }
    else none
  | .setCloseHandler id =>
    if id < owners.created then
      some { owners with closeHandler := Function.update owners.closeHandler id false }
    else none
  | .keep id => if id < owners.created then some { owners with kept := id :: owners.kept } else none
  | .release id => some { owners with kept := owners.kept.erase id }

/-- The strong references to a session. -/
def useCount (id : ℕ) : ℕ :=
  owners.sessions.count id + (owners.defaultPacketHandler id).toNat +
    (owners.closeHandler id).toNat + owners.kept.count id

/-- A session whose close callback has returned and that user code does not keep has no owner. -/
def AllReleased : Prop :=
  ∀ id ∈ owners.closed, id ∉ owners.kept → owners.useCount id = 0

instance : Decidable owners.AllReleased := by
  unfold AllReleased
  infer_instance

/-- As many sessions have an owner as are in `sessions_` or kept by user code. -/
def CountsRight : Prop :=
  ((Finset.range owners.created).filter fun id ↦ 0 < owners.useCount id).card =
    owners.sessions.length + (owners.kept.toFinset.filter fun id ↦ id ∉ owners.sessions).card

/-- The events before the close callback of a session, and those from it on. -/
def beforeClose (id : ℕ) (events : List Event) : List Event :=
  events.takeWhile fun event ↦ event ≠ .onClose id

def fromClose (id : ℕ) (events : List Event) : List Event :=
  events.dropWhile fun event ↦ event ≠ .onClose id

/-- User code has replaced both handlers of a session, the close handler only after it was
called. -/
def ReplacedByUser (events : List Event) (id : ℕ) : Prop :=
  .setDefaultPacketHandler id ∈ events ∧ .setCloseHandler id ∉ beforeClose id events ∧
    .setCloseHandler id ∈ fromClose id events

instance (events : List Event) (id : ℕ) : Decidable (ReplacedByUser events id) := by
  unfold ReplacedByUser
  infer_instance

/-! ## What holds of all owners -/

/-- The registry names existing sessions once each, among them all that are not closed, and the
other lists name existing sessions. -/
structure Sound (owners : Ownership) : Prop where
  nodup : owners.sessions.Nodup
  sessions_lt : ∀ id ∈ owners.sessions, id < owners.created
  closed_lt : ∀ id ∈ owners.closed, id < owners.created
  kept_lt : ∀ id ∈ owners.kept, id < owners.created
  registered : ∀ id < owners.created, id ∉ owners.closed → id ∈ owners.sessions

variable {owners} {next : Ownership}

theorem sound_initial : initial.Sound :=
  ⟨List.nodup_nil, by simp [initial], by simp [initial], by simp [initial], by simp [initial]⟩

theorem mem_onClose_sessions {id other : ℕ} :
    other ∈ (owners.onClose id).sessions ↔
      other ∈ owners.sessions ∧ (owners.closeHandler id → other ≠ id) := by
  unfold onClose
  by_cases hhandler : owners.closeHandler id
  · simp [hhandler]
  · simp [hhandler]

theorem Sound.accept (hsound : owners.Sound) : owners.accept.Sound := by
  have hfresh : owners.created ∉ owners.sessions := fun hmem ↦
    lt_irrefl _ (hsound.sessions_lt _ hmem)
  refine ⟨?_, ?_, ?_, ?_, ?_⟩
  · exact List.nodup_append.mpr ⟨hsound.nodup, List.nodup_singleton _, fun id hid other hother ↦
      fun heq ↦ hfresh (List.mem_singleton.mp hother ▸ heq ▸ hid)⟩
  · intro id hid
    rcases List.mem_append.mp hid with hmem | hnew
    · exact Nat.lt_succ_of_lt (hsound.sessions_lt id hmem)
    · rw [List.mem_singleton.mp hnew]
      exact Nat.lt_succ_self _
  · exact fun id hid ↦ Nat.lt_succ_of_lt (hsound.closed_lt id hid)
  · exact fun id hid ↦ Nat.lt_succ_of_lt (hsound.kept_lt id hid)
  · intro id hid hopen
    rcases Nat.lt_succ_iff_lt_or_eq.mp hid with hlt | rfl
    · exact List.mem_append_left _ (hsound.registered id hlt hopen)
    · exact List.mem_append_right _ (List.mem_singleton_self _)

theorem Sound.onClose (hsound : owners.Sound) {id : ℕ} (hid : id < owners.created) :
    (owners.onClose id).Sound := by
  refine ⟨?_, ?_, ?_, hsound.kept_lt, ?_⟩
  · unfold Ownership.onClose
    split
    · exact hsound.nodup.filter _
    · exact hsound.nodup
  · exact fun other hother ↦ hsound.sessions_lt other (mem_onClose_sessions.mp hother).1
  · intro other hother
    rcases List.mem_append.mp hother with hmem | hnew
    · exact hsound.closed_lt other hmem
    · rw [List.mem_singleton.mp hnew]
      exact hid
  · intro other hother hopen
    have hne : other ≠ id ∧ other ∉ owners.closed := by
      simpa [Ownership.onClose, and_comm, not_or] using hopen
    exact mem_onClose_sessions.mpr ⟨hsound.registered other hother hne.2, fun _ ↦ hne.1⟩

theorem Sound.step {event : Event} (hsound : owners.Sound)
    (hstep : owners.step event = some next) : next.Sound := by
  cases event with
  | accept =>
    cases hstep
    exact hsound.accept
  | onClose id =>
    simp only [Ownership.step, Option.ite_none_right_eq_some, Option.some.injEq] at hstep
    obtain ⟨⟨hid, -⟩, rfl⟩ := hstep
    exact hsound.onClose hid
  | setDefaultPacketHandler id =>
    simp only [Ownership.step, Option.ite_none_right_eq_some, Option.some.injEq] at hstep
    obtain ⟨-, rfl⟩ := hstep
    exact ⟨hsound.nodup, hsound.sessions_lt, hsound.closed_lt, hsound.kept_lt, hsound.registered⟩
  | setCloseHandler id =>
    simp only [Ownership.step, Option.ite_none_right_eq_some, Option.some.injEq] at hstep
    obtain ⟨-, rfl⟩ := hstep
    exact ⟨hsound.nodup, hsound.sessions_lt, hsound.closed_lt, hsound.kept_lt, hsound.registered⟩
  | keep id =>
    simp only [Ownership.step, Option.ite_none_right_eq_some, Option.some.injEq] at hstep
    obtain ⟨hid, rfl⟩ := hstep
    refine ⟨hsound.nodup, hsound.sessions_lt, hsound.closed_lt, ?_, hsound.registered⟩
    exact List.forall_mem_cons.mpr ⟨hid, hsound.kept_lt⟩
  | release id =>
    cases hstep
    refine ⟨hsound.nodup, hsound.sessions_lt, hsound.closed_lt, ?_, hsound.registered⟩
    exact fun other hother ↦ hsound.kept_lt other (List.mem_of_mem_erase hother)

theorem useCount_pos_of_mem_sessions {id : ℕ} (hid : id ∈ owners.sessions) :
    0 < owners.useCount id := by
  have hcount := List.count_pos_iff.mpr hid
  unfold useCount
  omega

theorem useCount_pos_of_mem_kept {id : ℕ} (hid : id ∈ owners.kept) : 0 < owners.useCount id := by
  have hcount := List.count_pos_iff.mpr hid
  unfold useCount
  omega

/-- If every closed session is released, the sessions with an owner are those in `sessions_` and
those that user code keeps. -/
theorem AllReleased.countsRight (hreleased : owners.AllReleased) (hsound : owners.Sound) :
    owners.CountsRight := by
  have howned : (Finset.range owners.created).filter (fun id ↦ 0 < owners.useCount id) =
      owners.sessions.toFinset ∪ owners.kept.toFinset.filter (fun id ↦ id ∉ owners.sessions) := by
    ext id
    simp only [Finset.mem_filter, Finset.mem_range, Finset.mem_union, List.mem_toFinset]
    constructor
    · rintro ⟨hid, hpos⟩
      by_cases hsession : id ∈ owners.sessions
      · exact .inl hsession
      · refine .inr ⟨?_, hsession⟩
        by_contra hkept
        have hclosed : id ∈ owners.closed := by
          by_contra hopen
          exact hsession (hsound.registered id hid hopen)
        exact hpos.ne' (hreleased id hclosed hkept)
    · rintro (hsession | ⟨hkept, -⟩)
      · exact ⟨hsound.sessions_lt id hsession, useCount_pos_of_mem_sessions hsession⟩
      · exact ⟨hsound.kept_lt id hkept, useCount_pos_of_mem_kept hkept⟩
  have hdisjoint : Disjoint owners.sessions.toFinset
      (owners.kept.toFinset.filter fun id ↦ id ∉ owners.sessions) := by
    rw [Finset.disjoint_left]
    intro id hsession hkept
    exact (Finset.mem_filter.mp hkept).2 (List.mem_toFinset.mp hsession)
  rw [CountsRight, howned, Finset.card_union_of_disjoint hdisjoint,
    List.toFinset_card_of_nodup hsound.nodup]

/-! ## What the events say of the owners -/

/-- The handlers, the registry and the close callbacks of a state are those the events so far
lead to. -/
structure History (events : List Event) (owners : Ownership) : Prop where
  default_lt : ∀ id, .setDefaultPacketHandler id ∈ events → id < owners.created
  close_lt : ∀ id, .setCloseHandler id ∈ events → id < owners.created
  closed : ∀ id, id ∈ owners.closed ↔ .onClose id ∈ events
  default : ∀ id < owners.created,
    (owners.defaultPacketHandler id = false ↔ .setDefaultPacketHandler id ∈ events)
  close : ∀ id < owners.created,
    (owners.closeHandler id = false ↔ .setCloseHandler id ∈ events)
  erased : ∀ id ∈ owners.closed,
    (id ∉ owners.sessions ↔ .setCloseHandler id ∉ beforeClose id events)

theorem history_initial : History [] initial :=
  ⟨by simp, by simp, by simp [initial], by simp [initial], by simp [initial], by simp [initial]⟩

/-- Once the close callback has run, later events do not come before it. -/
theorem beforeClose_append_of_mem {id : ℕ} {events : List Event} (event : Event)
    (hclosed : .onClose id ∈ events) :
    beforeClose id (events ++ [event]) = beforeClose id events := by
  have hne : (events.takeWhile fun event ↦ event ≠ .onClose id).length ≠ events.length := by
    intro hlength
    have hall := List.takeWhile_eq_self_iff.mp
      ((List.takeWhile_prefix _).eq_of_length hlength)
    simpa using hall _ hclosed
  rw [beforeClose, List.takeWhile_append, if_neg hne]
  rfl

/-- As long as the close callback has not run, all events come before it. -/
theorem beforeClose_append_of_not_mem {id : ℕ} {events : List Event}
    (hopen : .onClose id ∉ events) : beforeClose id (events ++ [.onClose id]) = events := by
  have hall : events.takeWhile (fun event ↦ event ≠ .onClose id) = events := by
    rw [List.takeWhile_eq_self_iff]
    intro event hevent
    have hne : event ≠ .onClose id := fun heq ↦ hopen (heq ▸ hevent)
    simpa using hne
  rw [beforeClose, List.takeWhile_append, if_pos (by rw [hall]), List.takeWhile_cons]
  simp

namespace History

variable {events : List Event}

/-- For a session that is closed, no later event comes before its close callback. -/
theorem erased_append (hhistory : History events owners) (event : Event) {id : ℕ}
    (hclosed : id ∈ owners.closed) :
    id ∉ owners.sessions ↔ .setCloseHandler id ∉ beforeClose id (events ++ [event]) := by
  rw [beforeClose_append_of_mem event ((hhistory.closed id).mp hclosed)]
  exact hhistory.erased id hclosed

theorem accept (hhistory : History events owners) (hsound : owners.Sound) :
    History (events ++ [.accept]) owners.accept := by
  have hnew {id : ℕ} (hid : id < owners.created) : id ≠ owners.created := hid.ne
  refine ⟨?_, ?_, by simpa [Ownership.accept] using hhistory.closed, ?_, ?_, ?_⟩
  · intro id hmem
    exact Nat.lt_succ_of_lt (hhistory.default_lt id (by simpa using hmem))
  · intro id hmem
    exact Nat.lt_succ_of_lt (hhistory.close_lt id (by simpa using hmem))
  · intro id hid
    rcases Nat.lt_succ_iff_lt_or_eq.mp hid with hlt | rfl
    · simpa [Ownership.accept, hnew hlt] using hhistory.default id hlt
    · simpa [Ownership.accept] using fun hmem ↦ lt_irrefl _ (hhistory.default_lt _ hmem)
  · intro id hid
    rcases Nat.lt_succ_iff_lt_or_eq.mp hid with hlt | rfl
    · simpa [Ownership.accept, hnew hlt] using hhistory.close id hlt
    · simpa [Ownership.accept] using fun hmem ↦ lt_irrefl _ (hhistory.close_lt _ hmem)
  · intro id hclosed
    rw [← hhistory.erased_append .accept hclosed]
    simp [Ownership.accept, hnew (hsound.closed_lt id hclosed)]

theorem onClose (hhistory : History events owners) (hsound : owners.Sound) {id : ℕ}
    (hid : id < owners.created) (hopen : id ∉ owners.closed) :
    History (events ++ [.onClose id]) (owners.onClose id) := by
  refine ⟨by simpa [Ownership.onClose] using hhistory.default_lt,
    by simpa [Ownership.onClose] using hhistory.close_lt, ?_,
    by simpa [Ownership.onClose] using hhistory.default,
    by simpa [Ownership.onClose] using hhistory.close, ?_⟩
  · intro other
    simp [Ownership.onClose, hhistory.closed other]
  · intro other hother
    rw [mem_onClose_sessions]
    rcases List.mem_append.mp hother with hclosed | hnow
    · have hne : other ≠ id := fun heq ↦ hopen (heq ▸ hclosed)
      rw [← hhistory.erased_append (.onClose id) hclosed]
      simp [hne]
    · -- The registry forgets the session unless its close handler was replaced before.
      obtain rfl := List.mem_singleton.mp hnow
      rw [beforeClose_append_of_not_mem (fun hmem ↦ hopen ((hhistory.closed other).mpr hmem)),
        ← hhistory.close other hid]
      simp [hsound.registered other hid hopen]

theorem setDefaultPacketHandler (hhistory : History events owners) {id : ℕ}
    (hid : id < owners.created) :
    History (events ++ [.setDefaultPacketHandler id]) { owners with
      defaultPacketHandler := Function.update owners.defaultPacketHandler id false } := by
  refine ⟨?_, by simpa using hhistory.close_lt, by simpa using hhistory.closed, ?_,
    by simpa using hhistory.close, fun other ↦ hhistory.erased_append _⟩
  · intro other hmem
    rcases List.mem_append.mp hmem with hearlier | hnow
    · exact hhistory.default_lt other hearlier
    · obtain rfl := Event.setDefaultPacketHandler.inj (List.mem_singleton.mp hnow)
      exact hid
  · intro other hother
    by_cases heq : other = id
    · simp [heq]
    · simpa [heq] using hhistory.default other hother

theorem setCloseHandler (hhistory : History events owners) {id : ℕ} (hid : id < owners.created) :
    History (events ++ [.setCloseHandler id])
      { owners with closeHandler := Function.update owners.closeHandler id false } := by
  refine ⟨by simpa using hhistory.default_lt, ?_, by simpa using hhistory.closed,
    by simpa using hhistory.default, ?_, fun other ↦ hhistory.erased_append _⟩
  · intro other hmem
    rcases List.mem_append.mp hmem with hearlier | hnow
    · exact hhistory.close_lt other hearlier
    · obtain rfl := Event.setCloseHandler.inj (List.mem_singleton.mp hnow)
      exact hid
  · intro other hother
    by_cases heq : other = id
    · simp [heq]
    · simpa [heq] using hhistory.close other hother

/-- The references of user code are no part of the history. -/
theorem with_kept (hhistory : History events owners) {event : Event} {id : ℕ}
    (hevent : event = .keep id ∨ event = .release id) (kept : List ℕ) :
    History (events ++ [event]) { owners with kept := kept } := by
  have hmem (earlier : Event) (hkeep : earlier ≠ .keep id) (hrelease : earlier ≠ .release id) :
      earlier ∈ events ++ [event] ↔ earlier ∈ events := by
    rcases hevent with rfl | rfl <;> simp [hkeep, hrelease]
  have hdefault (other : ℕ) := hmem (.setDefaultPacketHandler other) nofun nofun
  have hclose (other : ℕ) := hmem (.setCloseHandler other) nofun nofun
  have hclosed (other : ℕ) := hmem (.onClose other) nofun nofun
  refine ⟨?_, ?_, ?_, ?_, ?_, fun other ↦ hhistory.erased_append event⟩
  · exact fun other hother ↦ hhistory.default_lt other ((hdefault other).mp hother)
  · exact fun other hother ↦ hhistory.close_lt other ((hclose other).mp hother)
  · exact fun other ↦ (hhistory.closed other).trans (hclosed other).symm
  · exact fun other hother ↦ (hhistory.default other hother).trans (hdefault other).symm
  · exact fun other hother ↦ (hhistory.close other hother).trans (hclose other).symm

theorem step {event : Event} (hhistory : History events owners) (hsound : owners.Sound)
    (hstep : owners.step event = some next) : History (events ++ [event]) next := by
  cases event with
  | accept =>
    cases hstep
    exact hhistory.accept hsound
  | onClose id =>
    simp only [Ownership.step, Option.ite_none_right_eq_some, Option.some.injEq] at hstep
    obtain ⟨⟨hid, hopen⟩, rfl⟩ := hstep
    exact hhistory.onClose hsound hid hopen
  | setDefaultPacketHandler id =>
    simp only [Ownership.step, Option.ite_none_right_eq_some, Option.some.injEq] at hstep
    obtain ⟨hid, rfl⟩ := hstep
    exact hhistory.setDefaultPacketHandler hid
  | setCloseHandler id =>
    simp only [Ownership.step, Option.ite_none_right_eq_some, Option.some.injEq] at hstep
    obtain ⟨hid, rfl⟩ := hstep
    exact hhistory.setCloseHandler hid
  | keep id =>
    simp only [Ownership.step, Option.ite_none_right_eq_some, Option.some.injEq] at hstep
    obtain ⟨-, rfl⟩ := hstep
    exact hhistory.with_kept (.inl rfl) _
  | release id =>
    cases hstep
    exact hhistory.with_kept (.inr rfl) _

end History

theorem history_run {earlier events : List Event} (hhistory : History earlier owners)
    (hsound : owners.Sound) (hrun : runFrom Ownership.step events owners = some next) :
    History (earlier ++ events) next ∧ next.Sound := by
  induction events generalizing earlier owners with
  | nil =>
    obtain rfl := Option.some.inj hrun
    rw [List.append_nil]
    exact ⟨hhistory, hsound⟩
  | cons event events ih =>
    obtain ⟨mid, hmid, hlater⟩ := (runFrom_cons _).mp hrun
    have hnext := ih (hhistory.step hsound hmid) (hsound.step hmid) hlater
    rwa [List.append_assoc, List.singleton_append] at hnext

/-- A closed session that user code does not keep has lost its owners exactly if user code has
replaced its handlers in time. -/
theorem useCount_eq_zero_iff {events : List Event} (hhistory : History events owners)
    (hsound : owners.Sound) {id : ℕ} (hclosed : id ∈ owners.closed) (hkept : id ∉ owners.kept) :
    owners.useCount id = 0 ↔ ReplacedByUser events id := by
  have hid := hsound.closed_lt id hclosed
  have hmem : .setCloseHandler id ∈ events ↔
      .setCloseHandler id ∈ beforeClose id events ∨ .setCloseHandler id ∈ fromClose id events := by
    rw [← List.mem_append, beforeClose, fromClose, List.takeWhile_append_dropWhile]
  have hzero : owners.useCount id = 0 ↔ id ∉ owners.sessions ∧
      owners.defaultPacketHandler id = false ∧ owners.closeHandler id = false := by
    simp [useCount, List.count_eq_zero, hkept, and_assoc]
  rw [hzero, hhistory.erased id hclosed, hhistory.default id hid, hhistory.close id hid, hmem,
    ReplacedByUser]
  tauto

/-! ## The owners of a server -/

/-- The owners of the sessions of a server whose user code keeps no reference and replaces no
handler. -/
def ofWorld {U V H : Type*} (world : World U V H) : Ownership where
  created := world.created
  sessions := world.sessions
  defaultPacketHandler id := id < world.created
  closeHandler id := id < world.created
  closed := world.closedSessions
  kept := []

end Ownership

variable {U V H : Type*}

/-- What a step of a server does to the owners of its sessions. -/
def Event.owning : Event V H → List Ownership.Event
  | .onConnection status _ => if status < 0 then [] else [.accept]
  | .onClose id => [.onClose id]
  | _ => []

namespace Ownership

variable {app : Application U V H} {world next : World U V H}

theorem ofWorld_eq (hcreated : next.created = world.created)
    (hsessions : next.sessions = world.sessions)
    (hclosed : next.closedSessions = world.closedSessions) : ofWorld next = ofWorld world := by
  simp only [ofWorld, hcreated, hsessions, hclosed]

theorem ofWorld_create (readResult : ℤ) :
    ofWorld ((world.create readResult).record world.created .connect) =
      (ofWorld world).accept := by
  have hflags : (fun id ↦ decide (id < world.created + 1)) =
      Function.update (fun id ↦ decide (id < world.created)) world.created true := by
    funext id
    by_cases heq : id = world.created
    · simp [heq]
    · rw [Function.update_of_ne heq, decide_eq_decide]
      omega
  change Ownership.mk _ _ (fun id ↦ decide (id < world.created + 1))
    (fun id ↦ decide (id < world.created + 1)) _ _ = _
  rw [hflags]
  rfl

theorem ofWorld_forget {id : ℕ} (hid : id < world.created) :
    ofWorld ((world.forget id).record id .close) = (ofWorld world).onClose id := by
  have hhandler : (ofWorld world).closeHandler id = true := decide_eq_true hid
  rw [onClose, if_pos hhandler]
  rfl

theorem ofWorld_step (hregistered : Registered world) {event : Server.Event V H}
    (hstep : Server.step app world event = some next) :
    runFrom step event.owning (ofWorld world) = some (ofWorld next) := by
  have hcases := step_cases hstep
  unfold Server.step at hstep
  split at hstep
  · rename_i hdue
    rw [Outcome.returned?_eq_some] at hstep
    cases event with
    | onConnection status readResult =>
      change onConnection app status readResult world = .returned next at hstep
      unfold onConnection at hstep
      split at hstep
      · rename_i hstatus
        cases hstep
        rw [Event.owning, if_pos hstatus]
        rfl
      · rename_i hstatus
        have hserves := Serves.react 0 hstep
        rw [Event.owning, if_neg hstatus, ofWorld_eq hserves.created hserves.sessions
          hserves.closedSessions, ofWorld_create]
        rfl
    | onClose id =>
      obtain ⟨hid, hreqs⟩ := hdue
      have hserves := Serves.react 0 hstep
      have hopen : id ∉ world.closedSessions :=
        List.count_eq_zero.mp ((hregistered.guarded id hid).onClose hreqs).1
      rw [ofWorld_eq hserves.created hserves.sessions hserves.closedSessions, ofWorld_forget hid]
      exact (runFrom_cons _).mpr ⟨_, if_pos ⟨hid, hopen⟩, rfl⟩
    | _ =>
      rcases hcases with ⟨id, packets, -, -, hserves⟩ | hserves | ⟨_, _, hevent, -⟩ |
        ⟨_, hevent, -⟩
      · exact congrArg some (ofWorld_eq hserves.created hserves.sessions
          hserves.closedSessions).symm
      · exact congrArg some (ofWorld_eq (hserves 0).created (hserves 0).sessions
          (hserves 0).closedSessions).symm
      · cases hevent
      · cases hevent
  · cases hstep

theorem ofWorld_initial (memory : U) : ofWorld (World.initial memory : World U V H) = initial := by
  have hflags : (fun id : ℕ ↦ decide (id < 0)) = fun _ ↦ false := by
    funext id
    simp
  change Ownership.mk _ _ (fun id ↦ decide (id < 0)) (fun id ↦ decide (id < 0)) _ _ = _
  rw [hflags]
  rfl

/-- Every run of a server is a run of the owners of its sessions. -/
theorem ofWorld_run {events : List (Server.Event V H)} (hregistered : Registered world)
    (hrun : runFrom (Server.step app) events world = some next) :
    runFrom step (events.flatMap Event.owning) (ofWorld world) = some (ofWorld next) := by
  induction events generalizing world with
  | nil =>
    obtain rfl := Option.some.inj hrun
    rfl
  | cons event events ih =>
    obtain ⟨mid, hmid, hlater⟩ := (runFrom_cons _).mp hrun
    rw [List.flatMap_cons, runFrom_append, ofWorld_step hregistered hmid]
    exact ih (hregistered.step hmid) hlater

end Ownership

/-- **The release of closed sessions.** A run of a server is a run of the owners of its sessions.
In any run of owners, every closed session that user code does not keep is released, and as many
sessions have an owner as are in `sessions_` or kept, if and only if user code has replaced the
handlers of each such session, the close handler not before it was called. -/
theorem closed_sessions_released_iff :
    (∀ (app : Application U V H) (memory : U) (events : List (Event V H)) (world : World U V H),
      runFrom (step app) events (.initial memory) = some world →
        runFrom Ownership.step (events.flatMap Event.owning) .initial =
          some (Ownership.ofWorld world)) ∧
      ∀ (events : List Ownership.Event) (last : Ownership),
        runFrom Ownership.step events .initial = some last →
          (last.AllReleased ∧ last.CountsRight ↔
            ∀ id ∈ last.closed, id ∈ last.kept ∨ Ownership.ReplacedByUser events id) := by
  constructor
  · intro app memory events world hrun
    rw [← Ownership.ofWorld_initial memory]
    exact Ownership.ofWorld_run (registered_initial memory) hrun
  · intro events last hrun
    obtain ⟨hhistory, hsound⟩ :=
      Ownership.history_run Ownership.history_initial Ownership.sound_initial hrun
    rw [List.nil_append] at hhistory
    constructor
    · rintro ⟨hreleased, -⟩ id hclosed
      refine or_iff_not_imp_left.mpr fun hkept ↦ ?_
      exact (Ownership.useCount_eq_zero_iff hhistory hsound hclosed hkept).mp
        (hreleased id hclosed hkept)
    · intro hreplaced
      have hreleased : last.AllReleased := fun id hclosed hkept ↦
        (Ownership.useCount_eq_zero_iff hhistory hsound hclosed hkept).mpr
          ((hreplaced id hclosed).resolve_left hkept)
      exact ⟨hreleased, hreleased.countsRight hsound⟩

/-- Of two closed sessions user code keeps the first; it has replaced the handlers of the second,
which is released. -/
theorem closed_sessions_released_iff_replaced :
    ∃ last, runFrom Ownership.step [.accept, .keep 0, .accept, .setDefaultPacketHandler 1,
        .onClose 0, .onClose 1, .setCloseHandler 1] .initial = some last ∧
      last.closed = [0, 1] ∧ 0 < last.useCount 0 ∧ last.useCount 1 = 0 ∧
      last.AllReleased ∧ last.CountsRight :=
  ⟨_, rfl, rfl, by decide, by decide,
    ((closed_sessions_released_iff (U := Unit) (V := Unit) (H := Unit)).2
      [.accept, .keep 0, .accept, .setDefaultPacketHandler 1, .onClose 0, .onClose 1,
        .setCloseHandler 1] _ rfl).mpr (by decide)⟩

/-- A session that was closed, and that user code does not keep, still owns itself. -/
theorem closed_session_owned :
    ¬ ∀ (events : List (Event Unit Unit)) (world : World Unit Unit Unit),
      runFrom (step hangingUp) events (.initial ()) = some world →
        (Ownership.ofWorld world).AllReleased ∧ (Ownership.ofWorld world).CountsRight := by
  intro hreleased
  have hworld := (hreleased hangUpEvents _ rfl).1 0 (by decide) (by decide)
  revert hworld
  decide

end Server

end LibuvNet
