import LibuvNet.Foundation.HandleLedger
import LibuvNet.Server.Lifecycle

/-!
# A server on its loop

The rest of `server.cpp`: the constructor and the destructor, starting and stopping the thread of
the loop, listening and no longer listening.  A `Service` is a server with its sessions, its own
handle `server_`, its thread, and a ledger of the handles on its loop.  Callbacks run only while
the thread runs, and connections arrive only while the handle listens.
-/

namespace LibuvNet

open Foundation

/-- How far the listening handle of a server has come.  It is `inUse` while `uv_tcp_bind` has put
off the error of an address that is in use: nothing is bound then. -/
inductive ListenPhase where
  | fresh
  | inUse
  | bound
  | listening
  | closing
  | closed
  deriving DecidableEq, Repr

/-- `UV_EINVAL`. -/
def uvEinval : ℤ := -22

/-- `UV_EADDRINUSE`. -/
def uvEaddrinuse : ℤ := -98

namespace ListenPhase

variable (phase : ListenPhase)

/-- No address is bound to the handle, and one can be. -/
def Bindable : Prop := phase = .fresh ∨ phase = .inUse

instance : Decidable phase.Bindable := inferInstanceAs (Decidable (_ ∨ _))

/-- `uv_tcp_bind`, for an address whose binding by itself gives some result.  That the address is
in use is reported by `uv_listen` only. -/
def bind (bindResult : ℤ) : ℤ × ListenPhase :=
  if ¬ phase.Bindable then (uvEinval, phase)
  else if bindResult = uvEaddrinuse then (0, .inUse)
  else if bindResult ≠ 0 then (bindResult, phase)
  else (0, .bound)

/-- `uv_listen`, on an address that by itself gives some result. -/
def listen (listenResult : ℤ) : ℤ × ListenPhase :=
  if phase = .inUse then (uvEaddrinuse, phase)
  else if phase ≠ .bound then (uvEinval, phase)
  else if listenResult ≠ 0 then (listenResult, phase)
  else (0, .listening)

/-- `uv_is_closing`. -/
def isClosing : Bool := phase = .closing ∨ phase = .closed

/-- What a ledger says of a handle in this phase. -/
def toHandlePhase : HandlePhase :=
  match phase with
  | fresh | inUse | bound | listening => .opened
  | closing => .closing
  | closed => .closed

theorem Bindable.toHandlePhase {phase : ListenPhase} (hbindable : phase.Bindable) :
    phase.toHandlePhase = .opened := by
  rcases hbindable with rfl | rfl <;> rfl

theorem Bindable.ne_closed {phase : ListenPhase} (hbindable : phase.Bindable) :
    phase ≠ .closed := by
  rintro rfl
  exact absurd hbindable (by decide)

end ListenPhase

namespace Server

variable {U V H : Type*}

/-- The handles a server and its sessions initialise on the loop. -/
inductive Handle where
  | server
  | socket (id : ℕ)
  | heartbeatTimer (id : ℕ)
  deriving DecidableEq, Repr

/-- A callback that libuv makes. -/
def Event.isCallback : Event V H → Bool
  | .onConnection _ _ | .onRead _ _ _ | .onWrite _ _ | .onClose _ | .onHeartbeatTimer _ _ => true
  | .call _ | .transmit _ _ | .elapse _ => false

def Event.isConnection : Event V H → Bool
  | .onConnection _ _ => true
  | _ => false

/-- The calls about the handles of sessions between two worlds.  `Session::Session` initialises the
socket and the timer; the socket is passed to `uv_close` by `Session::close`; the timer is started
and stopped but passed to `uv_close` nowhere. -/
def World.handleCalls (world : World U V H) (event : Event V H) (next : World U V H) :
    List (HandleCall Handle) :=
  (match event with
    | .onConnection status _ =>
      if status < 0 then []
      else [.init (.socket world.created), .init (.heartbeatTimer world.created)]
    | .onClose id => [.closed (.socket id)]
    | _ => []) ++
  ((List.range next.created).filter fun id ↦
    (world.slot id).core.socket.closeCalls < (next.slot id).core.socket.closeCalls).map
      fun id ↦ .close (.socket id)

/-- A server with its listening handle, its flag, the thread of its loop and the ledger of the
loop. -/
structure Service (U V H : Type*) where
  world : World U V H
  server : ListenPhase
  isListening : Bool
  loopThread : Bool
  ledger : List (HandleCall Handle)

namespace Service

/-- `Server::Server`. -/
def initial (memory : U) : Service U V H where
  world := .initial memory
  server := .fresh
  isListening := false
  loopThread := false
  ledger := [.init .server]

variable (service : Service U V H)

/-- `Server::start`. -/
def start : Bool × Service U V H :=
  if service.loopThread then (false, service) else (true, { service with loopThread := true })

/-- `Server::stop`. -/
def stop : Service U V H :=
  if ¬ service.loopThread then service else { service with loopThread := false }

/-- `Server::listen`, given what the address results in. -/
def listen (bindResult listenResult : ℤ) : Service U V H :=
  if service.isListening then service
  else
    let (result, server) := service.server.bind bindResult
    if result ≠ 0 then { service with server := server }
    else
      let (result, server) := server.listen listenResult
      if result ≠ 0 then { service with server := server }
      else { service with server := server, isListening := true }

/-- `Server::stop_listening`. -/
def stopListening : Service U V H :=
  if ¬ service.isListening then service
  else if ¬ service.server.isClosing then
    { service with
      server := .closing
      isListening := false
      ledger := service.ledger ++ [.close .server] }
  else { service with isListening := false }

/-- `Server::on_close`, which does nothing: the handle is closed. -/
def onServerClose : Service U V H :=
  { service with server := .closed, ledger := service.ledger ++ [.closed .server] }

/-- A call of the application, or what happens on the loop or outside the server. -/
inductive Event (V H : Type*) where
  | start
  | stop
  | listen (bindResult listenResult : ℤ)
  | stopListening
  | onServerClose
  | world (event : Server.Event V H)

/-- A callback that libuv makes. -/
def Event.IsCallback : Event V H → Prop
  | .onServerClose => True
  | .world event => event.isCallback
  | .start | .stop | .listen _ _ | .stopListening => False

/-- When a step of the world is one of the service: callbacks need the thread, and connections a
handle that listens. -/
def Serves (event : Server.Event V H) : Prop :=
  (event.isCallback → service.loopThread) ∧ (event.isConnection → service.server = .listening)

instance (event : Server.Event V H) : Decidable (service.Serves event) := by
  unfold Serves
  infer_instance

/-- One step of a service. -/
def step (app : Application U V H) (service : Service U V H) :
    Event V H → Option (Service U V H)
  | .start => some service.start.2
  | .stop => some service.stop
  | .listen bindResult listenResult => some (service.listen bindResult listenResult)
  | .stopListening => some service.stopListening
  | .onServerClose =>
    if service.loopThread ∧ service.server = .closing then some service.onServerClose else none
  | .world event =>
    if service.Serves event then
      (Server.step app service.world event).map fun next ↦
        { service with
          world := next
          ledger := service.ledger ++ service.world.handleCalls event next }
    else none

/-! ## What a step can do -/

/-- Starting and stopping concern the thread only. -/
theorem start_eq : ∃ loopThread, service.start.2 = { service with loopThread := loopThread } := by
  unfold start
  split
  · exact ⟨service.loopThread, rfl⟩
  · exact ⟨true, rfl⟩

theorem stop_eq : ∃ loopThread, service.stop = { service with loopThread := loopThread } := by
  unfold stop
  split
  · exact ⟨service.loopThread, rfl⟩
  · exact ⟨false, rfl⟩

/-- `listen` does nothing to the handle, or finds the address in use, or binds the handle, or makes
it listen.  Only a handle that is not bound can be, and a call in which that succeeds leaves it so
no longer. -/
theorem listen_cases (bindResult listenResult : ℤ) :
    service.listen bindResult listenResult = service ∧
        (service.isListening ∨ ¬ service.server.Bindable ∨ bindResult ≠ 0) ∨
      service.isListening = false ∧ service.server.Bindable ∧
        (bindResult = uvEaddrinuse ∧
            service.listen bindResult listenResult = { service with server := .inUse } ∨
          bindResult = 0 ∧
            (listenResult ≠ 0 ∧
                service.listen bindResult listenResult = { service with server := .bound } ∨
              listenResult = 0 ∧ service.listen bindResult listenResult =
                { service with server := .listening, isListening := true })) := by
  by_cases hlistening : service.isListening
  · exact .inl ⟨if_pos hlistening, .inl hlistening⟩
  have hlisten : service.listen bindResult listenResult = _ := if_neg hlistening
  by_cases hbindable : service.server.Bindable
  swap
  · have hfailed : service.server.bind bindResult = (uvEinval, service.server) := if_pos hbindable
    refine .inl ⟨?_, .inr (.inl hbindable)⟩
    rw [hlisten, hfailed]
    rfl
  have hbind : service.server.bind bindResult = _ := if_neg (not_not.mpr hbindable)
  by_cases hinUse : bindResult = uvEaddrinuse
  · refine .inr ⟨Bool.eq_false_of_not_eq_true hlistening, hbindable, .inl ⟨hinUse, ?_⟩⟩
    rw [hlisten, hbind, if_pos hinUse]
    rfl
  rw [if_neg hinUse] at hbind
  by_cases hresult : bindResult = 0
  · refine .inr ⟨Bool.eq_false_of_not_eq_true hlistening, hbindable, .inr ⟨hresult, ?_⟩⟩
    rw [if_neg (not_not.mpr hresult)] at hbind
    rw [hlisten, hbind]
    by_cases hlistens : listenResult = 0
    · rw [hlistens]
      exact .inr ⟨rfl, rfl⟩
    · have hfailed : ListenPhase.bound.listen listenResult = (listenResult, .bound) :=
        if_pos hlistens
      refine .inl ⟨hlistens, ?_⟩
      simp only [hfailed]
      exact if_pos hlistens
  · rw [if_pos hresult] at hbind
    refine .inl ⟨?_, .inr (.inr hresult)⟩
    rw [hlisten, hbind]
    exact if_pos hresult

/-- `stop_listening` closes a handle that is not closing, and does nothing to a server that is not
listening. -/
theorem stopListening_cases :
    service.isListening = false ∧ service.stopListening = service ∨
      service.isListening ∧
        (service.server.isClosing = false ∧ service.stopListening =
            { service with
              server := .closing
              isListening := false
              ledger := service.ledger ++ [.close .server] } ∨
          service.server.isClosing ∧
            service.stopListening = { service with isListening := false }) := by
  by_cases hlistening : service.isListening
  · have hstop : service.stopListening = _ := if_neg (not_not.mpr hlistening)
    refine .inr ⟨hlistening, ?_⟩
    by_cases hclosing : service.server.isClosing
    · exact .inr ⟨hclosing, hstop.trans (if_neg (not_not.mpr hclosing))⟩
    · exact .inl ⟨Bool.eq_false_of_not_eq_true hclosing, hstop.trans (if_pos hclosing)⟩
  · exact .inl ⟨Bool.eq_false_of_not_eq_true hlistening, if_pos hlistening⟩

variable {service}

/-- A step of the world leaves the handle, the flag and the thread alone. -/
theorem step_world {app : Application U V H} {next : Service U V H} {event : Server.Event V H}
    (hstep : step app service (.world event) = some next) :
    service.Serves event ∧ ∃ world, Server.step app service.world event = some world ∧
      next = { service with
        world := world
        ledger := service.ledger ++ service.world.handleCalls event world } := by
  change (if service.Serves event then _ else none) = some next at hstep
  split at hstep
  · rename_i hserves
    obtain ⟨world, hworld, rfl⟩ := Option.map_eq_some_iff.mp hstep
    exact ⟨hserves, world, hworld, rfl⟩
  · cases hstep

theorem step_onServerClose {app : Application U V H} {next : Service U V H}
    (hstep : step app service .onServerClose = some next) :
    (service.loopThread ∧ service.server = .closing) ∧ next = service.onServerClose := by
  change (if service.loopThread ∧ service.server = .closing then _ else none) = some next at hstep
  split at hstep
  · rename_i hdue
    exact ⟨hdue, (Option.some.inj hstep).symm⟩
  · cases hstep

/-- A step is one of the world, or leaves the world alone and makes calls about the listening
handle only. -/
theorem step_cases {app : Application U V H} {next : Service U V H} {event : Event V H}
    (hstep : step app service event = some next) :
    (∃ happening world, event = .world happening ∧
      Server.step app service.world happening = some world ∧
      next = { service with
        world := world
        ledger := service.ledger ++ service.world.handleCalls happening world }) ∨
    ((∀ happening, event ≠ .world happening) ∧ next.world = service.world ∧
      ∃ calls, (∀ call ∈ calls, call.handle = .server) ∧
        next.ledger = service.ledger ++ calls) := by
  have hnone : ∀ call ∈ ([] : List (HandleCall Handle)), call.handle = .server :=
    List.forall_mem_nil _
  cases event with
  | start =>
    cases hstep
    obtain ⟨loopThread, hstart⟩ := service.start_eq
    rw [hstart]
    exact .inr ⟨by simp, rfl, [], hnone, (List.append_nil _).symm⟩
  | stop =>
    cases hstep
    obtain ⟨loopThread, hstop⟩ := service.stop_eq
    rw [hstop]
    exact .inr ⟨by simp, rfl, [], hnone, (List.append_nil _).symm⟩
  | listen bindResult listenResult =>
    cases hstep
    rcases service.listen_cases bindResult listenResult with
      ⟨hsame, -⟩ | ⟨-, -, ⟨-, hinUse⟩ | ⟨-, ⟨-, hbound⟩ | ⟨-, hlistening⟩⟩⟩
    · exact .inr ⟨by simp, by rw [hsame], [], hnone, by simp [hsame]⟩
    · exact .inr ⟨by simp, by rw [hinUse], [], hnone, by simp [hinUse]⟩
    · exact .inr ⟨by simp, by rw [hbound], [], hnone, by simp [hbound]⟩
    · exact .inr ⟨by simp, by rw [hlistening], [], hnone, by simp [hlistening]⟩
  | stopListening =>
    cases hstep
    rcases service.stopListening_cases with ⟨-, hsame⟩ | ⟨-, ⟨-, hstop⟩ | ⟨-, hstop⟩⟩
    · exact .inr ⟨by simp, by rw [hsame], [], hnone, by simp [hsame]⟩
    · exact .inr ⟨by simp, by rw [hstop], [.close .server],
        List.forall_mem_singleton.mpr rfl, by rw [hstop]⟩
    · exact .inr ⟨by simp, by rw [hstop], [], hnone, by simp [hstop]⟩
  | onServerClose =>
    obtain ⟨-, rfl⟩ := step_onServerClose hstep
    exact .inr ⟨by simp, rfl, [.closed .server], List.forall_mem_singleton.mpr rfl, rfl⟩
  | world happening =>
    obtain ⟨-, world, hworld, rfl⟩ := step_world hstep
    exact .inl ⟨happening, world, rfl, hworld, rfl⟩

end Service

end Server

end LibuvNet
