import LibuvNet.Client.Calls

/-!
# Connecting from another thread

`Client::connect` runs on the application's thread while the loop thread calls back.  Here it is
taken apart into its steps, and anything else may happen between two of them: `on_connect` with
all that the application does in its handlers, and every other callback.  `connect` sets
`is_connecting_` after `uv_tcp_connect` has accepted the request, so the request can be over
before the flag is set; the flag is then set for good.  That is the only way it can get stuck.
-/

namespace LibuvNet

open Foundation

namespace Client

variable {U V H : Type*}

/-- Where the application's thread stands in `Client::connect`. -/
inductive Caller where
  | idle
  | checked
  | initialised
  | requested
  deriving DecidableEq

/-- A client and the thread that calls `connect`. -/
structure Threads (U H : Type*) where
  caller : Caller
  client : Receiver (Core U) H

/-- A step of `connect`, with what libuv answers, or another event. -/
inductive Action where
  | check
  | initSocket (initResult : ℤ)
  | request (connectResult : ℤ)
  | assign
  | other (event : Event)
  deriving DecidableEq

/-- The event can happen while the application's thread is there.  Its other calls have to wait
until `connect` has returned. -/
def Event.MayInterrupt (caller : Caller) : Event → Prop
  | .call (.connect _ _) => False
  | .call _ | .start | .stop => caller = .idle
  | _ => True

instance (caller : Caller) (event : Event) : Decidable (event.MayInterrupt caller) :=
  match event with
  | .call (.connect _ _) => isFalse id
  | .call .disconnect | .call (.send _ _) | .start | .stop =>
    inferInstanceAs (Decidable (caller = .idle))
  | .onConnect _ _ | .onClose | .onRead _ _ | .onWrite _ | .onHeartbeatTimer _ | .transmit _
  | .elapse _ => isTrue trivial

namespace Threads

/-- A new client whose application has called nothing. -/
def initial (active closing : Bool) (memory : U) : Threads U H where
  caller := .idle
  client := .start (.initial active closing memory)

/-- The application's thread moves on, with these members of the client. -/
def move (threads : Threads U H) (caller : Caller) (core : Core U) : Threads U H where
  caller := caller
  client := { threads.client with state := core }

end Threads

/-- One step of the two threads. -/
def interleave (app : Application U V H) (threads : Threads U H) (action : Action) :
    Option (Threads U H) :=
  let core := threads.client.state
  match action, threads.caller with
  | .check, .idle =>
    some (if core.isConnected ∨ core.isConnecting then threads else threads.move .checked core)
  | .initSocket initResult, .checked =>
    match core.initSocket initResult with
    | (false, core) => some (threads.move .idle core)
    | (true, core) => some (threads.move .initialised core)
  | .request connectResult, .initialised =>
    if connectResult ≠ 0 then some (threads.move .idle { core with isConnecting := false })
    else some (threads.move .requested { core with socket := core.socket.connect })
  | .assign, .requested => some (threads.move .idle { core with isConnecting := true })
  | .other event, caller =>
    if event.MayInterrupt caller then
      (step app threads.client event).map fun client ↦ { threads with client := client }
    else none
  | _, _ => none

/-- Without interruption the steps make up `Client::connect`. -/
theorem connect_uninterrupted (app : Application U V H) (client : Receiver (Core U) H)
    (initResult connectResult : ℤ) :
    ∃ actions, actions <+: [.check, .initSocket initResult, .request connectResult, .assign] ∧
      runFrom (interleave app) actions ⟨.idle, client⟩ = some
        ⟨.idle, { client with state := (client.state.connect initResult connectResult).2 }⟩ := by
  unfold Core.connect
  split
  · rename_i hflags
    refine ⟨[.check], by simp, ?_⟩
    simp only [runFrom, interleave, if_pos hflags]
    rfl
  · rename_i hflags
    rcases hinit : client.state.initSocket initResult with ⟨accepted, core⟩
    cases accepted with
    | false =>
      refine ⟨[.check, .initSocket initResult], by simp, ?_⟩
      simp only [runFrom, interleave, if_neg hflags, Threads.move, Option.bind_some, hinit]
    | true =>
      simp only
      split
      · rename_i hresult
        refine ⟨[.check, .initSocket initResult, .request connectResult], by simp, ?_⟩
        simp only [runFrom, interleave, if_neg hflags, Threads.move, Option.bind_some, hinit,
          if_pos hresult]
      · rename_i hresult
        refine ⟨_, List.prefix_rfl, ?_⟩
        simp only [runFrom, interleave, if_neg hflags, Threads.move, Option.bind_some, hinit,
          if_neg hresult]

/-- Unless a call or a request is under way the client is not connecting, and it is never both
connected and connecting. -/
def Unstuck (threads : Threads U H) : Prop :=
  (threads.caller = .idle → threads.client.state.socket.connectReqs = 0 →
    ¬ threads.client.state.isConnecting) ∧
  ¬ (threads.client.state.isConnected ∧ threads.client.state.isConnecting)

instance (threads : Threads U H) : Decidable (Unstuck threads) := by
  unfold Unstuck
  infer_instance

/-- When `connect` sets `is_connecting_`, its request is still outstanding. -/
def AssignsInTime (threads : Threads U H) (action : Action) (_ : Threads U H) : Prop :=
  action = .assign →
    0 < threads.client.state.socket.connectReqs ∧ ¬ threads.client.state.isConnected

instance (threads : Threads U H) (action : Action) (next : Threads U H) :
    Decidable (AssignsInTime threads action next) := by
  unfold AssignsInTime
  infer_instance

/-- A connecting client has a request outstanding and is not connected. -/
structure Coherent (core : Core U) : Prop where
  outstanding : core.isConnecting → 0 < core.socket.connectReqs
  exclusive : core.isConnected → core.isConnecting = false

namespace Coherent

variable {core : Core U}

/-- A client that is not connecting. -/
theorem of_not_connecting (hconnecting : core.isConnecting = false) : Coherent core where
  outstanding hconnecting' := nomatch hconnecting.symm.trans hconnecting'
  exclusive _ := hconnecting

/-- The flags and the requests are all that matters. -/
theorem congr {next : Core U} (hcoherent : Coherent core)
    (hreqs : next.socket.connectReqs = core.socket.connectReqs)
    (hconnected : next.isConnected = core.isConnected)
    (hconnecting : next.isConnecting = core.isConnecting) : Coherent next := by
  constructor
  · rw [hreqs, hconnecting]
    exact hcoherent.outstanding
  · rw [hconnected, hconnecting]
    exact hcoherent.exclusive

theorem same {next : Core U} (hcoherent : Coherent core) (hsame : SameConnection core next) :
    Coherent next := by
  obtain ⟨hconnected, hconnecting, canceledWrites, writer, hsocket⟩ := hsame
  apply hcoherent.congr _ hconnected hconnecting
  rw [hsocket]

theorem disconnect (hcoherent : Coherent core) : Coherent core.disconnect := by
  unfold Core.disconnect
  split_ifs
  · exact hcoherent
  all_goals exact of_not_connecting rfl

theorem initSocket (hcoherent : Coherent core) (initResult : ℤ) :
    Coherent (core.initSocket initResult).2 := by
  unfold Core.initSocket
  split_ifs <;> exact hcoherent.congr rfl rfl rfl

theorem connect (hcoherent : Coherent core) (initResult connectResult : ℤ) :
    Coherent (core.connect initResult connectResult).2 := by
  rcases core.connect_cases initResult connectResult with
    heq | ⟨⟨hconnected, hconnecting⟩, heq | heq | heq⟩ <;> rw [heq]
  · exact hcoherent
  · exact of_not_connecting hconnecting
  · exact of_not_connecting rfl
  · constructor
    · exact fun _ ↦ Nat.succ_pos _
    · exact fun htrue ↦ nomatch hconnected.symm.trans htrue

theorem send (hcoherent : Coherent core) (host : Host) (packet : Packet) (write : WriteCall) :
    Coherent (core.send host packet write) :=
  hcoherent.same (.send core host packet write)

theorem kept (host : Host) : Kept host (Coherent : Core U → Prop) where
  connect initResult connectResult hcoherent := hcoherent.connect initResult connectResult
  disconnect hcoherent := hcoherent.disconnect
  send packet write hcoherent := hcoherent.send host packet write
  memory _ hcoherent := hcoherent.congr rfl rfl rfl

theorem step {app : Application U V H} {client next : Receiver (Core U) H} {event : Event}
    (hcoherent : Coherent client.state) (hstep : Client.step app client event = some next) :
    Coherent next.state := by
  apply step_keeps (kept app.host) _ hstep
  by_cases hevent : event.TurnsConnection
  · cases event with
    | call call => exact (kept app.host).run call hcoherent
    | onConnect status readResult =>
      simp only [Event.effect]
      split_ifs
      · exact of_not_connecting rfl
      · apply disconnect
        exact of_not_connecting rfl
      · exact of_not_connecting rfl
    | onClose => exact of_not_connecting rfl
    | _ => cases hevent
  · exact effect_keeps same disconnect app.host hevent hcoherent

/-- A step of the two threads keeps the client coherent, if it assigns the flag in time. -/
theorem interleave {app : Application U V H} {threads next : Threads U H} {action : Action}
    (hcoherent : Coherent threads.client.state)
    (hstep : Client.interleave app threads action = some next)
    (hassigns : AssignsInTime threads action next) : Coherent next.client.state := by
  unfold Client.interleave at hstep
  dsimp only at hstep
  split at hstep
  · cases hstep
    split
    · exact hcoherent
    · exact hcoherent
  · rename_i initResult hcaller
    have hinit := hcoherent.initSocket initResult
    split at hstep <;> rename_i heq <;> rw [heq] at hinit <;> cases hstep
    · exact hinit
    · exact hinit
  · split at hstep <;> cases hstep
    · exact of_not_connecting rfl
    · constructor
      · exact fun _ ↦ Nat.succ_pos _
      · exact hcoherent.exclusive
  · cases hstep
    obtain ⟨hreqs, hconnected⟩ := hassigns rfl
    constructor
    · exact fun _ ↦ hreqs
    · exact fun htrue ↦ absurd htrue hconnected
  · split at hstep
    · obtain ⟨client, hclient, rfl⟩ := Option.map_eq_some_iff.mp hstep
      exact hcoherent.step hclient
    · cases hstep
  · cases hstep

theorem unstuck {threads : Threads U H} (hcoherent : Coherent threads.client.state) :
    Unstuck threads := by
  constructor
  · intro _ hreqs hconnecting
    exact absurd (hcoherent.outstanding hconnecting) (by rw [hreqs]; exact lt_irrefl 0)
  · rintro ⟨hconnected, hconnecting⟩
    exact nomatch (hcoherent.exclusive hconnected).symm.trans hconnecting

end Coherent

/-- From a coherent client, a step leads to a stuck flag exactly when it assigns the flag late. -/
theorem unstuck_iff_assignsInTime {app : Application U V H} {threads next : Threads U H}
    {action : Action} (hcoherent : Coherent threads.client.state)
    (hstep : interleave app threads action = some next) :
    Unstuck next ↔ AssignsInTime threads action next := by
  constructor
  · rintro ⟨hsettled, hexclusive⟩ rfl
    have hnext : next = threads.move .idle { threads.client.state with isConnecting := true } := by
      unfold interleave at hstep
      split at hstep <;> simp_all
    rw [hnext] at hsettled hexclusive
    constructor
    · exact Nat.pos_of_ne_zero fun hreqs ↦ hsettled rfl hreqs rfl
    · exact fun hconnected ↦ hexclusive ⟨hconnected, rfl⟩
  · exact fun hassigns ↦ (hcoherent.interleave hstep hassigns).unstuck

/-- **The connecting flag.** A run of the two threads leads only to states in which
`is_connecting_` is not stuck, if and only if `connect` always sets it while its request is
outstanding.  A client that is idle, not connected and not stuck lets the next `connect` pass. -/
theorem connecting_never_stuck_iff (app : Application U V H) (active closing : Bool) (memory : U)
    (actions : List Action) :
    (Along (interleave app) (fun _ _ next ↦ Unstuck next) actions
        (.initial active closing memory) ↔
      Along (interleave app) AssignsInTime actions (.initial active closing memory)) ∧
    ∀ threads : Threads U H, Unstuck threads → threads.caller = .idle →
      threads.client.state.socket.connectReqs = 0 → ¬ threads.client.state.isConnected →
      interleave app threads .check = some { threads with caller := .checked } := by
  constructor
  · apply Along.congr
    · exact fun _ _ _ _ hcoherent hstep ↦ unstuck_iff_assignsInTime hcoherent hstep
    · intro action _ threads next hcoherent hstep hunstuck
      exact Coherent.interleave hcoherent hstep
        ((unstuck_iff_assignsInTime hcoherent hstep).mp hunstuck)
    · exact .of_not_connecting rfl
  · rintro ⟨caller, client⟩ ⟨hsettled, -⟩ rfl hreqs hconnected
    have hconnecting := hsettled rfl hreqs
    simp only [interleave, if_neg (not_or.mpr ⟨hconnected, hconnecting⟩)]
    rfl

/-- Two attempts: one that fails after the call has returned, and one that succeeds. -/
theorem connecting_never_stuck_iff_retry :
    Along (interleave quiet) (fun _ _ next ↦ Unstuck next)
        [.other .start, .check, .initSocket 0, .request 0, .assign, .other (.onConnect (-111) 0),
          .check, .initSocket 0, .request 0, .assign, .other (.onConnect 0 0)]
        (.initial false false ()) ∧
      interleave quiet (.initial false false ()) .check =
        some { (.initial false false () : Threads Unit Unit) with caller := .checked } :=
  ⟨(connecting_never_stuck_iff quiet false false () _).1.mpr (by decide),
    (connecting_never_stuck_iff quiet false false () []).2 (.initial false false ())
      ⟨nofun, nofun⟩ rfl rfl nofun⟩

/-- The attempt fails before `connect` has set the flag: the flag stays set, and every later
`connect` is turned away. -/
theorem failed_attempt_sticks :
    ¬ Along (interleave quiet) (fun _ _ next ↦ Unstuck next)
        [.other .start, .check, .initSocket 0, .request 0, .other (.onConnect (-111) 0), .assign]
        (.initial false false ()) ∧
      ∃ last, runFrom (interleave quiet)
        [.other .start, .check, .initSocket 0, .request 0, .other (.onConnect (-111) 0), .assign]
        (.initial false false ()) = some last ∧
      last.client.state.socket.connectReqs = 0 ∧ last.client.state.isConnecting ∧
      interleave quiet last .check = some last :=
  ⟨by decide, _, rfl, rfl, rfl, rfl⟩

end Client

end LibuvNet
