import LibuvNet.Client.Calls

/-!
# Reconnecting

`uv_close` gives the socket up at once, its `on_close` comes on a later turn of the loop, and until
then the handle belongs to the loop.  `Client::disconnect` clears both flags when it calls
`uv_close`, and `init_socket` looks at `uv_is_closing` only if the handle is active, which a closing
handle never is: a `connect` in between starts the socket over while its close is pending.  It is
the only way to do so, and as long as no `connect` comes in between, every `on_close` finds the
flags of its own connection.
-/

namespace LibuvNet

open Foundation

namespace Client

variable {U V H : Type*}

/-- A client and how often its `on_close` was called. -/
structure Counted (U : Type*) where
  core : Core U
  onCloses : ℕ

/-- `uv_close` was called on the socket more often than `on_close` was. -/
def ClosePending (onCloses : ℕ) (core : Core U) : Prop :=
  onCloses < core.socket.closeCalls

instance (onCloses : ℕ) (core : Core U) : Decidable (ClosePending onCloses core) := by
  unfold ClosePending
  infer_instance

namespace Counted

/-- A constructed client. -/
def initial (active closing : Bool) (memory : U) : Counted U where
  core := .initial active closing memory
  onCloses := 0

/-- The calls of `on_close` once an event has happened. -/
def count (counted : Counted U) (event : Event) : ℕ :=
  if event = .onClose then counted.onCloses + 1 else counted.onCloses

/-- One step of a client, with the calls of `on_close` counted. -/
def step (host : Host) (counted : Counted U) (event : Event) : Option (Counted U) :=
  (Core.step host counted.core event).map fun core ↦ ⟨core, counted.count event⟩

theorem step_eq_some {host : Host} {counted next : Counted U} {event : Event} :
    step host counted event = some next ↔ event.Due counted.core ∧
      ⟨event.effect host counted.core, counted.count event⟩ = next := by
  simp only [step, Option.map_eq_some_iff, Core.step_eq_some]
  constructor
  · rintro ⟨core, ⟨hdue, rfl⟩, rfl⟩
    exact ⟨hdue, rfl⟩
  · rintro ⟨hdue, rfl⟩
    exact ⟨_, ⟨hdue, rfl⟩, rfl⟩

end Counted

/-- A `connect` while a close is pending fails and changes nothing, and `on_close` clears no flag,
since it finds both of them cleared. -/
def WaitsForClose (counted : Counted U) (event : Event) (next : Counted U) : Prop :=
  match event with
  | .call (.connect initResult connectResult) => ClosePending counted.onCloses counted.core →
    (counted.core.connect initResult connectResult).1 = false ∧ next.core = counted.core
  | .onClose => counted.core.isConnected = false ∧ counted.core.isConnecting = false
  | _ => True

/-- No `connect` comes while a close is pending, except one in which `uv_tcp_init` fails. -/
def ConnectsLater (counted : Counted U) (event : Event) (_ : Counted U) : Prop :=
  match event with
  | .call (.connect initResult _) =>
    ClosePending counted.onCloses counted.core → initResult ≠ 0
  | _ => True

/-- While a close is pending, the socket is closing and idle and the flags are cleared; and an
`on_close` that is due belongs to a pending close. -/
structure Released (onCloses : ℕ) (core : Core U) : Prop where
  due : onCloses + core.socket.closeReqs ≤ core.socket.closeCalls
  closing : ClosePending onCloses core → core.socket.closing
  idle : ClosePending onCloses core → core.socket.active = false ∧ core.socket.reading = false
  flags : ClosePending onCloses core → core.isConnected = false ∧ core.isConnecting = false

namespace Released

variable {core next : Core U} {onCloses : ℕ}

theorem initial (active closing : Bool) (memory : U) :
    Released 0 (Core.initial active closing memory) where
  due := le_rfl
  closing hpending := absurd hpending (lt_irrefl 0)
  idle hpending := absurd hpending (lt_irrefl 0)
  flags hpending := absurd hpending (lt_irrefl 0)

/-- Without a pending close only the callbacks that are due matter. -/
theorem of_not_pending (hdue : onCloses + core.socket.closeReqs ≤ core.socket.closeCalls)
    (hpending : ¬ ClosePending onCloses core) : Released onCloses core where
  due := hdue
  closing h := absurd h hpending
  idle h := absurd h hpending
  flags h := absurd h hpending

/-- The calls and callbacks of `uv_close`, what the socket does and the flags are all that
matters. -/
theorem congr (hreleased : Released onCloses core)
    (hcalls : next.socket.closeCalls = core.socket.closeCalls)
    (hreqs : next.socket.closeReqs = core.socket.closeReqs)
    (hclosing : next.socket.closing = core.socket.closing)
    (hidle : core.socket.active = false ∧ core.socket.reading = false →
      next.socket.active = false ∧ next.socket.reading = false)
    (hflags : core.isConnected = false ∧ core.isConnecting = false →
      next.isConnected = false ∧ next.isConnecting = false) : Released onCloses next := by
  have hpending : ClosePending onCloses next → ClosePending onCloses core := by
    simp only [ClosePending, hcalls, imp_self]
  constructor
  · rw [hreqs, hcalls]
    exact hreleased.due
  · exact fun h ↦ hclosing.trans (hreleased.closing (hpending h))
  · exact fun h ↦ hidle (hreleased.idle (hpending h))
  · exact fun h ↦ hflags (hreleased.flags (hpending h))

theorem same (hreleased : Released onCloses core) (hsame : SameConnection core next) :
    Released onCloses next := by
  obtain ⟨hconnected, hconnecting, canceledWrites, writer, hsocket⟩ := hsame
  apply hreleased.congr
  · rw [hsocket]
  · rw [hsocket]
  · rw [hsocket]
  · rw [hsocket]
    exact id
  · rw [hconnected, hconnecting]
    exact id

theorem disconnect (hreleased : Released onCloses core) : Released onCloses core.disconnect := by
  unfold Core.disconnect
  split
  · exact hreleased
  · rename_i hflags
    split
    · exact ⟨Nat.add_le_add_right hreleased.due 1, fun _ ↦ rfl, fun _ ↦ ⟨rfl, rfl⟩,
        fun _ ↦ ⟨rfl, rfl⟩⟩
    · apply of_not_pending
      · exact hreleased.due
      · intro hpending
        obtain ⟨hconnected, hconnecting⟩ := hreleased.flags hpending
        exact hflags (by simp [hconnected, hconnecting])

/-- A `connect` that meets no pending close leaves nothing behind that is not released. -/
theorem connect (hreleased : Released onCloses core) (hpending : ¬ ClosePending onCloses core)
    (initResult connectResult : ℤ) :
    Released onCloses (core.connect initResult connectResult).2 := by
  rcases core.connect_cases initResult connectResult with heq | ⟨hneither, heq | heq | heq⟩ <;>
    rw [heq]
  · exact hreleased
  · exact ⟨hreleased.due.trans (Nat.le_succ _), fun _ ↦ rfl, fun _ ↦ ⟨rfl, rfl⟩,
      fun _ ↦ hneither⟩
  · exact of_not_pending hreleased.due hpending
  · exact of_not_pending hreleased.due hpending

/-- While a close is pending, `connect` fails and changes nothing only if `uv_tcp_init` fails. -/
theorem connect_of_pending (hreleased : Released onCloses core)
    (hpending : ClosePending onCloses core) (initResult connectResult : ℤ) :
    (core.connect initResult connectResult).1 = false ∧
        (core.connect initResult connectResult).2 = core ↔ initResult ≠ 0 := by
  obtain ⟨hconnected, hconnecting⟩ := hreleased.flags hpending
  obtain ⟨hactive, -⟩ := hreleased.idle hpending
  have hclosing := hreleased.closing hpending
  have hflags : ¬ (core.isConnected ∨ core.isConnecting) := by simp [hconnected, hconnecting]
  by_cases hinit : initResult ≠ 0
  · simp [Core.connect, Core.initSocket, hflags, hactive, hinit]
  · simp only [hinit, iff_false]
    rintro ⟨-, hsame⟩
    have hopen : (core.connect initResult connectResult).2.socket.closing = false := by
      simp only [Core.connect, Core.initSocket, if_neg hflags, hactive, if_neg hinit]
      simp only [Bool.false_eq_true, if_false]
      split <;> rfl
    rw [hsame, hclosing] at hopen
    cases hopen

/-- An `on_close` ends a pending close. -/
theorem onClose (hreleased : Released onCloses core) (hdue : 0 < core.socket.closeReqs)
    (host : Host) : Released (onCloses + 1) (Event.onClose.effect host core) := by
  have hpending (h : onCloses + 1 < core.socket.closeCalls) : ClosePending onCloses core :=
    (Nat.lt_succ_self _).trans h
  constructor
  · have hle := hreleased.due
    change onCloses + 1 + (core.socket.closeReqs - 1) ≤ core.socket.closeCalls
    omega
  · exact fun h ↦ hreleased.closing (hpending h)
  · exact fun h ↦ hreleased.idle (hpending h)
  · exact fun _ ↦ ⟨rfl, rfl⟩

/-- Every event but a `connect` during a pending close keeps the socket released. -/
theorem step {host : Host} {counted next : Counted U} {event : Event}
    (hreleased : Released counted.onCloses counted.core)
    (hstep : Counted.step host counted event = some next)
    (hlater : ConnectsLater counted event next) : Released next.onCloses next.core := by
  obtain ⟨hdue, rfl⟩ := Counted.step_eq_some.mp hstep
  by_cases hevent : event.TurnsConnection
  · cases event with
    | call call =>
      cases call with
      | connect initResult connectResult =>
        change Released counted.onCloses (counted.core.connect initResult connectResult).2
        by_cases hpending : ClosePending counted.onCloses counted.core
        · have hsame := hreleased.connect_of_pending hpending initResult connectResult
          rwa [(hsame.mpr (hlater hpending)).2]
        · exact hreleased.connect hpending initResult connectResult
      | disconnect => cases hevent
      | send packet write => cases hevent
    | onConnect status readResult =>
      have hdone : Released counted.onCloses { counted.core with
          socket := counted.core.socket.connectDone, isConnecting := false } :=
        hreleased.congr rfl rfl rfl (fun hidle ↦ ⟨hidle.2, hidle.2⟩)
          fun hflags ↦ ⟨hflags.1, rfl⟩
      simp only [Event.effect]
      split_ifs with hstatus hread
      · exact hdone
      · exact hdone.disconnect
      · apply of_not_pending
        · exact hreleased.due
        · exact fun hpending ↦ hstatus (hdue.2.2 (hreleased.closing hpending))
    | onClose => exact hreleased.onClose hdue.2 host
    | _ => cases hevent
  · have hcount : counted.count event = counted.onCloses := by
      apply if_neg
      rintro rfl
      exact hevent trivial
    rw [hcount]
    exact effect_keeps same disconnect host hevent hreleased

/-- From a released client, an event waits for a pending close exactly when it is no `connect` that
`uv_tcp_init` lets through in the meantime. -/
theorem waitsForClose_iff {host : Host} {counted next : Counted U} {event : Event}
    (hreleased : Released counted.onCloses counted.core)
    (hstep : Counted.step host counted event = some next) :
    WaitsForClose counted event next ↔ ConnectsLater counted event next := by
  obtain ⟨hdue, rfl⟩ := Counted.step_eq_some.mp hstep
  cases event with
  | call call =>
    cases call with
    | connect initResult connectResult =>
      exact forall_congr' fun hpending ↦
        hreleased.connect_of_pending hpending initResult connectResult
    | disconnect => exact Iff.rfl
    | send packet write => exact Iff.rfl
  | onClose =>
    have hpending : ClosePending counted.onCloses counted.core := by
      have hle := hreleased.due
      have hreqs := hdue.2
      change counted.onCloses < _
      omega
    exact iff_of_true (hreleased.flags hpending) trivial
  | _ => exact Iff.rfl

end Released

/-- **Reconnecting.** In a run of a new client every `connect` during a pending close fails and
changes nothing, and every `on_close` finds both flags cleared, if and only if no `connect` comes
while a close is pending, except one in which `uv_tcp_init` fails. -/
theorem reconnect_waits_iff (host : Host) (active closing : Bool) (memory : U)
    (events : List Event) :
    Along (Counted.step host) WaitsForClose events (.initial active closing memory) ↔
      Along (Counted.step host) ConnectsLater events (.initial active closing memory) := by
  apply Along.congr
  · exact fun _ _ _ _ hreleased hstep ↦ Released.waitsForClose_iff hreleased hstep
  · intro event _ counted next hreleased hstep hwaits
    exact Released.step hreleased hstep ((Released.waitsForClose_iff hreleased hstep).mp hwaits)
  · exact Released.initial active closing memory

/-- A client that is disconnected and connects again in the same turn of the loop. -/
def hastyEvents : List Event :=
  [.start, .call (.connect 0 0), .onConnect 0 0, .call .disconnect, .call (.connect 0 0)]

/-- The second `connect` starts the closing socket over. -/
theorem closing_socket_reused :
    ¬ Along (Counted.step (.wide .little)) WaitsForClose hastyEvents
        (.initial false false ()) ∧
      ∃ last, runFrom (Counted.step (.wide .little)) hastyEvents (.initial false false ()) =
        some last ∧ ClosePending last.onCloses last.core ∧ last.core.socket.closing = false ∧
        last.core.isConnecting := by
  refine ⟨?_, _, rfl, by decide, rfl, rfl⟩
  rintro ⟨_, hstart, -, _, hconnect, -, _, hconnected, -, _, hdisconnect, -, _, -, hwaits, -⟩
  cases hstart
  cases hconnect
  cases hconnected
  cases hdisconnect
  exact absurd (hwaits (by decide)).1 (by decide)

end Client

end LibuvNet
