import LibuvNet.Server.Registry
import LibuvNet.Server.Service

/-!
# Listening again

`Server::listen` binds the handle that the constructor initialised, and no other function
initialises it again.  So the first `listen` that finds a free address uses the handle up: whether
it goes on to listen or fails, and whether the server stops listening later or not, no other
address can be bound to that handle.  An address that is in use does not use it up, although
`uv_tcp_bind` returns 0 then.  `Client::init_socket` starts its handle over instead.
-/

namespace LibuvNet

open Foundation

namespace Server

namespace Service

variable {U V H : Type*} {service next : Service U V H}

/-- The flag is set only while the handle listens, and the ledger knows the phase of the handle. -/
structure Coherent (service : Service U V H) : Prop where
  listening : service.isListening → service.server = .listening
  phase : HandleLedger.phase service.ledger .server = service.server.toHandlePhase

theorem coherent_initial (memory : U) : Coherent (initial memory : Service U V H) :=
  ⟨Bool.noConfusion, rfl⟩

/-- The calls about handles of sessions are about no other handle. -/
theorem handle_of_mem_handleCalls {world after : World U V H} {event : Server.Event V H}
    {call : HandleCall Handle} (hcall : call ∈ world.handleCalls event after) :
    call.handle ≠ .server := by
  unfold World.handleCalls at hcall
  rcases List.mem_append.mp hcall with hmem | hmem
  · cases event with
    | onConnection status readResult =>
      simp only at hmem
      split at hmem
      · cases hmem
      · rcases List.mem_cons.mp hmem with rfl | hmem
        · simp [HandleCall.handle]
        · obtain rfl := List.mem_singleton.mp hmem
          simp [HandleCall.handle]
    | onClose id =>
      obtain rfl := List.mem_singleton.mp hmem
      simp [HandleCall.handle]
    | _ => cases hmem
  · obtain ⟨id, -, rfl⟩ := List.mem_map.mp hmem
    simp [HandleCall.handle]

namespace Coherent

theorem listen (hcoherent : service.Coherent) (bindResult listenResult : ℤ) :
    (service.listen bindResult listenResult).Coherent := by
  rcases service.listen_cases bindResult listenResult with
    ⟨hsame, -⟩ | ⟨hflag, hbindable, hcase⟩
  · rwa [hsame]
  have hopened : HandleLedger.phase service.ledger .server = .opened :=
    hcoherent.phase.trans hbindable.toHandlePhase
  rcases hcase with ⟨-, hinUse⟩ | ⟨-, ⟨-, hbound⟩ | ⟨-, hlistening⟩⟩
  · rw [hinUse]
    exact ⟨fun hlistening ↦ Bool.noConfusion (hflag.symm.trans hlistening), hopened⟩
  · rw [hbound]
    exact ⟨fun hlistening ↦ Bool.noConfusion (hflag.symm.trans hlistening), hopened⟩
  · rw [hlistening]
    exact ⟨fun _ ↦ rfl, hopened⟩

theorem stopListening (hcoherent : service.Coherent) : service.stopListening.Coherent := by
  rcases service.stopListening_cases with
    ⟨-, hsame⟩ | ⟨hflag, ⟨-, hstop⟩ | ⟨-, hstop⟩⟩
  · rwa [hsame]
  · have hphase := hcoherent.phase
    rw [hcoherent.listening hflag] at hphase
    have hclose : HandleLedger.phase (service.ledger ++ [.close .server]) Handle.server =
        HandlePhase.after _ _ := HandleLedger.phase_append_self rfl
    rw [hstop]
    refine ⟨fun hflag ↦ Bool.noConfusion hflag, hclose.trans ?_⟩
    rw [hphase]
    rfl
  · rw [hstop]
    exact ⟨fun hflag ↦ Bool.noConfusion hflag, hcoherent.phase⟩

theorem onServerClose (hcoherent : service.Coherent) (hclosing : service.server = .closing) :
    service.onServerClose.Coherent := by
  have hphase := hcoherent.phase
  rw [hclosing] at hphase
  have hclosed : HandleLedger.phase (service.ledger ++ [.closed .server]) Handle.server =
      HandlePhase.after _ _ := HandleLedger.phase_append_self rfl
  refine ⟨fun hflag ↦ ?_, hclosed.trans ?_⟩
  · have hlistening := hcoherent.listening hflag
    rw [hclosing] at hlistening
    cases hlistening
  · rw [hphase]
    rfl

theorem step {app : Application U V H} {event : Event V H} (hcoherent : service.Coherent)
    (hstep : step app service event = some next) : next.Coherent := by
  cases event with
  | start =>
    cases hstep
    obtain ⟨loopThread, hstart⟩ := service.start_eq
    rw [hstart]
    exact ⟨hcoherent.listening, hcoherent.phase⟩
  | stop =>
    cases hstep
    obtain ⟨loopThread, hstop⟩ := service.stop_eq
    rw [hstop]
    exact ⟨hcoherent.listening, hcoherent.phase⟩
  | listen bindResult listenResult =>
    cases hstep
    exact hcoherent.listen bindResult listenResult
  | stopListening =>
    cases hstep
    exact hcoherent.stopListening
  | onServerClose =>
    obtain ⟨⟨-, hclosing⟩, rfl⟩ := step_onServerClose hstep
    exact hcoherent.onServerClose hclosing
  | world event =>
    obtain ⟨-, world, -, rfl⟩ := step_world hstep
    refine ⟨hcoherent.listening, ?_⟩
    exact (HandleLedger.phase_append_of_ne fun _ ↦ handle_of_mem_handleCalls).trans hcoherent.phase

end Coherent

/-! ## A handle that can be bound -/

/-- The event is a call of `listen` whose address can be bound. -/
def Event.Binds : Event V H → Prop
  | .listen bindResult _ => bindResult = 0
  | _ => False

theorem bindable_step {app : Application U V H} {event : Event V H} (hcoherent : service.Coherent)
    (hstep : step app service event = some next) :
    next.server.Bindable ↔ service.server.Bindable ∧ ¬ event.Binds := by
  cases event with
  | start =>
    cases hstep
    obtain ⟨loopThread, hstart⟩ := service.start_eq
    rw [hstart]
    simp [Event.Binds]
  | stop =>
    cases hstep
    obtain ⟨loopThread, hstop⟩ := service.stop_eq
    rw [hstop]
    simp [Event.Binds]
  | listen bindResult listenResult =>
    cases hstep
    rcases service.listen_cases bindResult listenResult with ⟨hsame, hwhy⟩ | ⟨-, hbindable, hcase⟩
    · rw [hsame]
      refine ⟨fun hbindable ↦ ⟨hbindable, fun hbind ↦ ?_⟩, And.left⟩
      rcases hwhy with hflag | hnot | hfailed
      · have hlistening := hcoherent.listening hflag
        rw [hlistening] at hbindable
        exact absurd hbindable (by decide)
      · exact hnot hbindable
      · exact hfailed hbind
    rcases hcase with ⟨hresult, hinUse⟩ | ⟨hresult, ⟨-, hbound⟩ | ⟨-, hlistening⟩⟩
    · rw [hinUse]
      refine iff_of_true (.inr rfl) ⟨hbindable, fun hbind : bindResult = 0 ↦ ?_⟩
      exact absurd (hresult.symm.trans hbind) (by decide)
    · rw [hbound]
      exact iff_of_false (show ¬ ListenPhase.bound.Bindable by decide) fun hnot ↦ hnot.2 hresult
    · rw [hlistening]
      exact iff_of_false (show ¬ ListenPhase.listening.Bindable by decide) fun hnot ↦
        hnot.2 hresult
  | stopListening =>
    cases hstep
    rcases service.stopListening_cases with
      ⟨-, hsame⟩ | ⟨hflag, ⟨-, hstop⟩ | ⟨-, hstop⟩⟩
    · rw [hsame]
      simp [Event.Binds]
    · rw [hstop]
      simp [hcoherent.listening hflag, ListenPhase.Bindable]
    · rw [hstop]
      simp [Event.Binds]
  | onServerClose =>
    obtain ⟨⟨-, hclosing⟩, rfl⟩ := step_onServerClose hstep
    simp [Service.onServerClose, hclosing, ListenPhase.Bindable]
  | world event =>
    obtain ⟨-, world, -, rfl⟩ := step_world hstep
    simp [Event.Binds]

/-- The handle can be bound until an address is, and never again. -/
theorem bindable_run {app : Application U V H} {events : List (Event V H)}
    (hcoherent : service.Coherent) (hrun : runFrom (step app) events service = some next) :
    next.server.Bindable ↔ service.server.Bindable ∧ ∀ event ∈ events, ¬ event.Binds := by
  induction events generalizing service with
  | nil =>
    obtain rfl := Option.some.inj hrun
    simp
  | cons event events ih =>
    obtain ⟨mid, hmid, hlater⟩ := (runFrom_cons _).mp hrun
    rw [ih (hcoherent.step hmid) hlater, bindable_step hcoherent hmid, List.forall_mem_cons,
      and_assoc]

/-- `listen` on a valid and free address succeeds. -/
theorem listen_succeeds_iff (hidle : service.isListening = false) :
    (service.listen 0 0).isListening ↔ service.server.Bindable := by
  rcases service.listen_cases 0 0 with
    ⟨hsame, hwhy⟩ | ⟨-, hbindable, ⟨hresult, -⟩ | ⟨-, ⟨hlisten, -⟩ | ⟨-, hlistening⟩⟩⟩
  · rw [hsame, hidle]
    simpa [hidle] using hwhy
  · exact absurd hresult (by decide)
  · exact absurd rfl hlisten
  · rw [hlistening]
    exact iff_of_true rfl hbindable

end Service

variable {U V H : Type*}

/-- **Listening again.** In a state in which a server is not listening, with or without a close
pending, `listen` on a valid and free address succeeds if and only if no call of `listen` so far
has found an address it could bind. -/
theorem listens_again_iff (app : Application U V H) (memory : U)
    (events : List (Service.Event V H)) (last : Service U V H)
    (hrun : runFrom (Service.step app) events (.initial memory) = some last)
    (hidle : last.isListening = false) :
    (last.listen 0 0).isListening = true ↔ ∀ event ∈ events, ¬ event.Binds := by
  rw [Service.listen_succeeds_iff hidle,
    Service.bindable_run (Service.coherent_initial memory) hrun]
  exact and_iff_right (.inl rfl)

/-- After an address that `uv_tcp_bind` refuses with `UV_EACCES`, and one that is in use, another
one is listened on. -/
theorem listens_again_iff_refused :
    ∃ last, runFrom (Service.step hangingUp) [.listen (-13) 0, .listen uvEaddrinuse 0]
        (.initial ()) = some last ∧ last.server = .inUse ∧
      ((last.listen 0 0).isListening = true ↔ ∀ event ∈
        [Service.Event.listen (-13) 0 (V := Unit) (H := Unit), .listen uvEaddrinuse 0],
          ¬ event.Binds) :=
  ⟨_, rfl, rfl, listens_again_iff hangingUp () [.listen (-13) 0, .listen uvEaddrinuse 0] _ rfl rfl⟩

/-- After a `listen` that was stopped, when its handle is closed, no `listen` succeeds. -/
theorem listening_used_up :
    ¬ ∀ (events : List (Service.Event Unit Unit)) (last : Service Unit Unit Unit),
      runFrom (Service.step hangingUp) events (.initial ()) = some last →
      last.isListening = false → last.server ≠ .closing →
      (last.listen 0 0).isListening = true := by
  intro hlistens
  have hlater := hlistens [.start, .listen 0 0, .stopListening, .onServerClose] _ rfl rfl
    (by decide)
  exact Bool.noConfusion hlater

end Server

end LibuvNet
