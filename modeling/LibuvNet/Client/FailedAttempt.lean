import LibuvNet.Client.Calls

/-!
# Failed connection attempts

`Client::connect` opens a socket.  If the attempt fails, nobody closes it: neither `connect` itself
nor `on_connect` calls `uv_close` for a status that is an error, and where `on_connect` calls
`disconnect` because `uv_read_start` has failed, it has cleared the only flag that `disconnect`
would act on.  The next attempt starts the open socket over.

A client without a connection and an attempt keeps no open socket exactly as long as no attempt
fails that the application has not disconnected itself, and no late `on_close` takes the flags of
an attempt away.
-/

namespace LibuvNet

open Foundation

namespace Client

variable {U V H : Type*}

/-- Without a connection and an attempt the socket is not open: it was never initialised, or it
was passed to `uv_close`. -/
def NoOpenSocket (core : Core U) : Prop :=
  core.isConnected = false → core.isConnecting = false →
    core.socket.initialised = false ∨ core.socket.closing = true

instance (core : Core U) : Decidable (NoOpenSocket core) := by
  unfold NoOpenSocket
  infer_instance

/-- No attempt fails with an open socket, and no `on_close` finds the socket open again. -/
def Succeeds (core : Core U) (event : Event) (_ : Core U) : Prop :=
  match event with
  | .call (.connect initResult connectResult) =>
    connectResult ≠ 0 → core.isConnected ∨ core.isConnecting ∨ core.socket.active ∨ initResult ≠ 0
  | .onConnect status readResult =>
    status < 0 ∨ readResult ≠ 0 → core.isConnected ∨ core.socket.closing
  | .onClose => core.socket.closing
  | _ => True

/-- Before `uv_tcp_init` nothing is due of the socket and no flag is set. -/
def UnusedBeforeInit (core : Core U) : Prop :=
  core.socket.initialised = false → core.socket.connectReqs = 0 ∧ core.socket.closeReqs = 0 ∧
    core.isConnected = false ∧ core.isConnecting = false

namespace UnusedBeforeInit

variable {core next : Core U}

theorem of_initialised (hinitialised : core.socket.initialised = true) : UnusedBeforeInit core :=
  fun hraw ↦ absurd hinitialised (by simp [hraw])

theorem initialised_of_connect (hunused : UnusedBeforeInit core)
    (hdue : 0 < core.socket.connectReqs) : core.socket.initialised = true := by
  by_contra hraw
  have hnone := (hunused (Bool.eq_false_of_not_eq_true hraw)).1
  omega

theorem initialised_of_close (hunused : UnusedBeforeInit core)
    (hdue : 0 < core.socket.closeReqs) : core.socket.initialised = true := by
  by_contra hraw
  have hnone := (hunused (Bool.eq_false_of_not_eq_true hraw)).2.1
  omega

theorem same (hunused : UnusedBeforeInit core) (hsame : SameConnection core next) :
    UnusedBeforeInit next := by
  obtain ⟨hconnected, hconnecting, canceledWrites, writer, hsocket⟩ := hsame
  unfold UnusedBeforeInit
  rw [hsocket, hconnected, hconnecting]
  exact hunused

theorem disconnect (hunused : UnusedBeforeInit core) : UnusedBeforeInit core.disconnect := by
  unfold Core.disconnect
  split
  · exact hunused
  · rename_i hflags
    cases hinitialised : core.socket.initialised with
    | true =>
      apply of_initialised
      split <;> exact hinitialised
    | false =>
      obtain ⟨-, -, hconnected, hconnecting⟩ := hunused hinitialised
      exact absurd ⟨by simp [hconnected], by simp [hconnecting]⟩ hflags

theorem connect (hunused : UnusedBeforeInit core) (initResult connectResult : ℤ) :
    UnusedBeforeInit (core.connect initResult connectResult).2 := by
  rcases core.connect_cases initResult connectResult with heq | ⟨-, heq | heq | heq⟩ <;> rw [heq]
  · exact hunused
  · exact hunused
  · exact of_initialised rfl
  · exact of_initialised rfl

/-- Every event keeps it. -/
theorem step {host : Host} {event : Event} (hunused : UnusedBeforeInit core)
    (hstep : Core.step host core event = some next) : UnusedBeforeInit next := by
  obtain ⟨hdue, rfl⟩ := Core.step_eq_some.mp hstep
  by_cases hevent : event.TurnsConnection
  · cases event with
    | call call =>
      cases call with
      | connect initResult connectResult => exact hunused.connect initResult connectResult
      | disconnect => cases hevent
      | send packet write => cases hevent
    | onConnect status readResult =>
      have hinitialised := hunused.initialised_of_connect hdue.2.1
      simp only [Event.effect]
      split_ifs
      · exact of_initialised hinitialised
      · apply disconnect
        exact of_initialised hinitialised
      · exact of_initialised hinitialised
    | onClose => exact of_initialised (hunused.initialised_of_close hdue.2)
    | _ => cases hevent
  · exact effect_keeps same disconnect host hevent hunused

end UnusedBeforeInit

namespace NoOpenSocket

variable {core next : Core U}

theorem same (hnone : NoOpenSocket core) (hsame : SameConnection core next) :
    NoOpenSocket next := by
  obtain ⟨hconnected, hconnecting, canceledWrites, writer, hsocket⟩ := hsame
  unfold NoOpenSocket
  rw [hsocket, hconnected, hconnecting]
  exact hnone

/-- Once an attempt is over, an initialised socket has to be in use or closing. -/
theorem iff_of_initialised (hinitialised : core.socket.initialised = true)
    (hconnecting : core.isConnecting = false) :
    NoOpenSocket core ↔ core.isConnected ∨ core.socket.closing := by
  unfold NoOpenSocket
  cases hconnected : core.isConnected with
  | true => simp
  | false => simp [hinitialised, hconnecting]

/-- `disconnect` closes a socket that is in use. -/
theorem disconnect (hnone : NoOpenSocket core) : NoOpenSocket core.disconnect := by
  unfold Core.disconnect
  split
  · exact hnone
  · intro _ _
    right
    split
    · rfl
    · rename_i hclosing
      exact not_not.mp hclosing

/-- A `connect` leaves no open socket unless `uv_tcp_connect` fails on one it has initialised. -/
theorem connect_iff (hnone : NoOpenSocket core) (initResult connectResult : ℤ) :
    NoOpenSocket (core.connect initResult connectResult).2 ↔
      (connectResult ≠ 0 →
        core.isConnected ∨ core.isConnecting ∨ core.socket.active ∨ initResult ≠ 0) := by
  by_cases hflags : core.isConnected ∨ core.isConnecting
  · have hsame : (core.connect initResult connectResult).2 = core := by
      simp only [Core.connect, if_pos hflags]
    rw [hsame]
    exact iff_of_true hnone fun _ ↦ hflags.imp_right .inl
  obtain ⟨hconnected, hconnecting⟩ := not_or.mp hflags
  by_cases hactive : core.socket.active
  · refine iff_of_true ?_ fun _ ↦ .inr (.inr (.inl hactive))
    simp only [Core.connect, Core.initSocket, if_neg hflags, if_pos hactive]
    by_cases hclosing : ¬ core.socket.closing
    · simp only [if_pos hclosing]
      exact fun _ _ ↦ .inr rfl
    · simp only [if_neg hclosing]
      exact hnone
  by_cases hinit : initResult ≠ 0
  · refine iff_of_true ?_ fun _ ↦ .inr (.inr (.inr hinit))
    simp only [Core.connect, Core.initSocket, if_neg hflags, if_neg hactive, if_pos hinit]
    exact hnone
  by_cases hresult : connectResult ≠ 0
  · refine iff_of_false ?_ fun h ↦ ?_
    · simp only [Core.connect, Core.initSocket, if_neg hflags, if_neg hactive, if_neg hinit,
        if_pos hresult]
      intro hnone
      have hopen := hnone (Bool.eq_false_of_not_eq_true hconnected) rfl
      simp [UvTcp.init] at hopen
    · rcases h hresult with h | h | h | h
      · exact hconnected h
      · exact hconnecting h
      · exact hactive h
      · exact hinit h
  · refine iff_of_true ?_ fun h ↦ absurd h hresult
    simp only [Core.connect, Core.initSocket, if_neg hflags, if_neg hactive, if_neg hinit,
      if_neg hresult]
    exact fun _ hconnecting ↦ Bool.noConfusion hconnecting

end NoOpenSocket

/-- From a client without an open socket, a step leads to such a client exactly if it meets the
condition. -/
theorem noOpenSocket_iff_succeeds {host : Host} {core next : Core U} {event : Event}
    (hunused : UnusedBeforeInit core) (hnone : NoOpenSocket core)
    (hstep : Core.step host core event = some next) :
    NoOpenSocket next ↔ Succeeds core event next := by
  obtain ⟨hdue, rfl⟩ := Core.step_eq_some.mp hstep
  by_cases hevent : event.TurnsConnection
  · cases event with
    | call call =>
      cases call with
      | connect initResult connectResult => exact hnone.connect_iff initResult connectResult
      | disconnect => cases hevent
      | send packet write => cases hevent
    | onConnect status readResult =>
      have hinitialised := hunused.initialised_of_connect hdue.2.1
      have hfailed : NoOpenSocket { core with
          socket := core.socket.connectDone, isConnecting := false } ↔
          core.isConnected ∨ core.socket.closing :=
        NoOpenSocket.iff_of_initialised hinitialised rfl
      simp only [Event.effect]
      by_cases hfails : status < 0 ∨ readResult ≠ 0
      · refine Iff.trans ?_ (forall_prop_of_true hfails).symm
        split_ifs with hstatus hread
        · exact hfailed
        · -- Only for a client that is connected `disconnect` closes anything here.
          by_cases hconnected : core.isConnected
          · exact iff_of_true (hfailed.mpr (.inl hconnected)).disconnect (.inl hconnected)
          · rw [Core.disconnect, if_pos ⟨hconnected, Bool.false_ne_true⟩]
            exact hfailed
        · exact absurd hfails (not_or.mpr ⟨hstatus, hread⟩)
      · obtain ⟨hstatus, hread⟩ := not_or.mp hfails
        rw [if_neg hstatus, if_neg hread]
        exact iff_of_true (fun h ↦ Bool.noConfusion h) (absurd · hfails)
    | onClose =>
      have hclosed : NoOpenSocket (Event.onClose.effect host core) ↔
          false ∨ core.socket.closing :=
        NoOpenSocket.iff_of_initialised (hunused.initialised_of_close hdue.2) rfl
      exact hclosed.trans (or_iff_right Bool.false_ne_true)
    | _ => cases hevent
  · apply iff_of_true (effect_keeps NoOpenSocket.same NoOpenSocket.disconnect host hevent hnone)
    unfold Succeeds
    split
    · exact absurd trivial hevent
    · exact absurd trivial hevent
    · exact absurd trivial hevent
    · trivial

/-- **Failed attempts.** A run of a new client leads only to states in which, without a connection
and an attempt, the socket is not open, if and only if no attempt in it fails with an open socket
and no `on_close` comes when the socket is open again. -/
theorem failed_attempts_closed_iff (host : Host) (active closing : Bool) (memory : U)
    (events : List Event) :
    Along (Core.step host) (fun _ _ next ↦ NoOpenSocket next) events
        (.initial active closing memory) ↔
      Along (Core.step host) Succeeds events (.initial active closing memory) := by
  apply Along.congr
  · exact fun _ _ _ _ (htidy : UnusedBeforeInit _ ∧ NoOpenSocket _) hstep ↦
      noOpenSocket_iff_succeeds htidy.1 htidy.2 hstep
  · exact fun _ _ _ _ htidy hstep hnext ↦ ⟨htidy.1.step hstep, hnext⟩
  · exact ⟨fun _ ↦ ⟨rfl, rfl, rfl, rfl⟩, fun _ _ ↦ .inl rfl⟩

/-- A client whose first attempt is refused by the server. -/
def refusedEvents : List Event :=
  [.start, .call (.connect 0 0), .onConnect (-111) 0]

/-- The socket of the refused attempt is open, and the next attempt starts it over. -/
theorem refused_attempt_leaks :
    ¬ Along (Core.step (.wide .little)) (fun _ _ next ↦ NoOpenSocket next) refusedEvents
        (.initial false false ()) ∧
      ∃ last, runFrom (Core.step (.wide .little)) refusedEvents (.initial false false ()) =
        some last ∧ last.isConnected = false ∧ last.isConnecting = false ∧
        last.socket.initialised ∧ last.socket.closeCalls = 0 ∧
        (last.connect 0 0).2.socket = last.socket.init.connect :=
  ⟨by decide, _, rfl, rfl, rfl, rfl, rfl, rfl⟩

end Client

end LibuvNet
