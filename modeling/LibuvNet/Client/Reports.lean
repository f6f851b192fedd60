import LibuvNet.Client.Calls

/-!
# Connect and disconnect handlers

The calls of the two handlers are counted along a run.  They alternate as long as every
`uv_close` with a callback ends a connection that was reported, and no attempt begins before that
callback has run.  Both can go wrong: `disconnect` also closes the socket of an attempt, whose
`on_close` then reports a disconnection that no connection preceded, and `connect` starts over on
a socket whose `on_close` is still due.  Then a connect request and a close callback are
outstanding at the same time, which never happens otherwise.
-/

namespace LibuvNet

open Foundation

namespace Client

variable {U V H : Type*}

/-- How often the two handlers were called. -/
structure Reports where
  connects : ℕ
  disconnects : ℕ
  deriving DecidableEq

namespace Reports

/-- A connection or its end is reported to the handler, if it is set. -/
def note (app : Application U V H) (reports : Reports) : Event → Reports
  | .onConnect status readResult =>
    if status < 0 ∨ readResult ≠ 0 then reports
    else { reports with connects := reports.connects + app.connectHandler.isSome.toNat }
  | .onClose =>
    { reports with disconnects := reports.disconnects + app.disconnectHandler.isSome.toNat }
  | _ => reports

/-- Every disconnection follows a connection, and at most one connection is not ended. -/
def Alternate (reports : Reports) : Prop :=
  reports.disconnects ≤ reports.connects ∧ reports.connects ≤ reports.disconnects + 1

instance (reports : Reports) : Decidable reports.Alternate := by
  unfold Alternate
  infer_instance

end Reports

/-- A step of a client whose handler calls are counted. -/
def reportStep (app : Application U V H) (counted : Reports × Receiver (Core U) H)
    (event : Event) : Option (Reports × Receiver (Core U) H) :=
  (step app counted.2 event).map fun client ↦ (counted.1.note app event, client)

/-- A connect request and a close callback are outstanding at the same time. -/
def Overlap (core : Core U) : Prop :=
  0 < core.socket.connectReqs ∧ 0 < core.socket.closeReqs

instance (core : Core U) : Decidable (Overlap core) := by
  unfold Overlap
  infer_instance

/-- A client in which nothing overlaps, and what it has reported. -/
structure Balanced (reports : Reports) (core : Core U) : Prop where
  count : reports.connects =
    reports.disconnects + core.socket.closeReqs + core.isConnected.toNat
  connected : core.isConnected → core.isConnecting = false ∧ core.socket.closing = false ∧
    core.socket.closeReqs = 0
  connecting : core.isConnecting → 0 < core.socket.connectReqs ∧ core.socket.closing = false
  requested : 0 < core.socket.connectReqs → core.isConnecting ∧ core.socket.closeReqs = 0
  connectReqs_le : core.socket.connectReqs ≤ 1
  closeReqs_le : core.socket.closeReqs ≤ 1

/-- Something overlaps, or the reports are balanced. -/
def Accounted (reports : Reports) (core : Core U) : Prop :=
  Overlap core ∨ Balanced reports core

variable {reports : Reports} {core : Core U}

theorem Overlap.congr {next : Core U} (hoverlap : Overlap core)
    (hconnects : core.socket.connectReqs ≤ next.socket.connectReqs)
    (hcloses : core.socket.closeReqs ≤ next.socket.closeReqs) : Overlap next :=
  ⟨hoverlap.1.trans_le hconnects, hoverlap.2.trans_le hcloses⟩

namespace Balanced

/-- The flags, the requests and whether the socket is closing are all that matters. -/
theorem congr {next : Core U} (hbalanced : Balanced reports core)
    (hconnected : next.isConnected = core.isConnected)
    (hconnecting : next.isConnecting = core.isConnecting)
    (hclosing : next.socket.closing = core.socket.closing)
    (hconnects : next.socket.connectReqs = core.socket.connectReqs)
    (hcloses : next.socket.closeReqs = core.socket.closeReqs) : Balanced reports next := by
  constructor
  · rw [hconnected, hcloses]
    exact hbalanced.count
  · rw [hconnected, hconnecting, hclosing, hcloses]
    exact hbalanced.connected
  · rw [hconnecting, hconnects, hclosing]
    exact hbalanced.connecting
  · rw [hconnects, hconnecting, hcloses]
    exact hbalanced.requested
  · rw [hconnects]
    exact hbalanced.connectReqs_le
  · rw [hcloses]
    exact hbalanced.closeReqs_le

/-- Without a connection or an attempt no request is outstanding, and the socket does not matter. -/
theorem of_neither {next : Core U} (hbalanced : Balanced reports core)
    (hconnected : core.isConnected = false) (hconnecting : core.isConnecting = false)
    (hconnected' : next.isConnected = false) (hconnecting' : next.isConnecting = false)
    (hconnects : next.socket.connectReqs = core.socket.connectReqs)
    (hcloses : next.socket.closeReqs = core.socket.closeReqs) : Balanced reports next := by
  constructor
  · rw [hconnected', hcloses, ← hconnected]
    exact hbalanced.count
  · rw [hconnected']
    exact nofun
  · rw [hconnecting']
    exact nofun
  · intro hrequested
    rw [hconnects] at hrequested
    exact nomatch hconnecting.symm.trans (hbalanced.requested hrequested).1
  · rw [hconnects]
    exact hbalanced.connectReqs_le
  · rw [hcloses]
    exact hbalanced.closeReqs_le

/-- Closing a connection keeps the balance; closing the socket of an attempt makes an overlap. -/
theorem disconnect (hbalanced : Balanced reports core) : Accounted reports core.disconnect := by
  by_cases hneither : ¬ core.isConnected ∧ ¬ core.isConnecting
  · rw [Core.disconnect, if_pos hneither]
    exact .inr hbalanced
  cases hconnected : core.isConnected with
  | true =>
    obtain ⟨hconnecting, hopen, hcloses⟩ := hbalanced.connected hconnected
    have hconnects : ¬ 0 < core.socket.connectReqs :=
      fun hrequested ↦ nomatch hconnecting.symm.trans (hbalanced.requested hrequested).1
    have hcount := hbalanced.count
    rw [hconnected, hcloses] at hcount
    rw [Core.disconnect, if_neg hneither, hopen]
    right
    constructor
    · calc reports.connects = reports.disconnects + 0 + 1 := hcount
        _ = reports.disconnects + (core.socket.closeReqs + 1) + 0 := by rw [hcloses]
    · exact nofun
    · exact nofun
    · exact fun hrequested ↦ absurd hrequested hconnects
    · exact hbalanced.connectReqs_le
    · change core.socket.closeReqs + 1 ≤ 1
      rw [hcloses]
  | false =>
    have hconnecting : core.isConnecting := by
      by_contra hnot
      exact hneither ⟨by rw [hconnected]; exact nofun, hnot⟩
    obtain ⟨hrequested, hopen⟩ := hbalanced.connecting hconnecting
    rw [Core.disconnect, if_neg hneither, hopen]
    exact .inl ⟨hrequested, Nat.succ_pos core.socket.closeReqs⟩

/-- An attempt begins: it makes an overlap if the callback of an earlier close is due. -/
theorem attempt (hbalanced : Balanced reports core) (hconnected : core.isConnected = false)
    (hconnecting : core.isConnecting = false) :
    Accounted reports
      { core with socket := core.socket.init.connect, isConnecting := true } := by
  by_cases hcloses : 0 < core.socket.closeReqs
  · exact .inl ⟨Nat.succ_pos _, hcloses⟩
  · have hconnects : core.socket.connectReqs = 0 :=
      Nat.eq_zero_of_not_pos fun hrequested ↦
        nomatch hconnecting.symm.trans (hbalanced.requested hrequested).1
    right
    constructor
    · exact hbalanced.count
    · exact fun htrue ↦ nomatch hconnected.symm.trans htrue
    · exact fun _ ↦ ⟨Nat.succ_pos _, rfl⟩
    · exact fun _ ↦ ⟨rfl, Nat.eq_zero_of_not_pos hcloses⟩
    · change core.socket.connectReqs + 1 ≤ 1
      rw [hconnects]
    · exact hbalanced.closeReqs_le

end Balanced

namespace Overlap

theorem disconnect (hoverlap : Overlap core) : Overlap core.disconnect := by
  unfold Core.disconnect
  split_ifs
  · exact hoverlap
  · exact hoverlap
  · exact hoverlap.congr le_rfl (Nat.le_succ _)

theorem connect (hoverlap : Overlap core) (initResult connectResult : ℤ) :
    Overlap (core.connect initResult connectResult).2 := by
  rcases core.connect_cases initResult connectResult with heq | ⟨-, heq | heq | heq⟩ <;> rw [heq]
  · exact hoverlap
  · exact hoverlap
  · exact hoverlap
  · exact hoverlap.congr (Nat.le_succ _) le_rfl

end Overlap

namespace Accounted

theorem congr {next : Core U} (haccounted : Accounted reports core)
    (hconnected : next.isConnected = core.isConnected)
    (hconnecting : next.isConnecting = core.isConnecting)
    (hclosing : next.socket.closing = core.socket.closing)
    (hconnects : next.socket.connectReqs = core.socket.connectReqs)
    (hcloses : next.socket.closeReqs = core.socket.closeReqs) : Accounted reports next :=
  haccounted.imp (fun hoverlap ↦ hoverlap.congr hconnects.ge hcloses.ge)
    fun hbalanced ↦ hbalanced.congr hconnected hconnecting hclosing hconnects hcloses

theorem disconnect (haccounted : Accounted reports core) : Accounted reports core.disconnect :=
  haccounted.elim (fun hoverlap ↦ .inl hoverlap.disconnect) Balanced.disconnect

theorem connect (haccounted : Accounted reports core) (initResult connectResult : ℤ) :
    Accounted reports (core.connect initResult connectResult).2 := by
  rcases haccounted with hoverlap | hbalanced
  · exact .inl (hoverlap.connect initResult connectResult)
  rcases core.connect_cases initResult connectResult with
    heq | ⟨⟨hconnected, hconnecting⟩, heq | heq | heq⟩ <;> rw [heq]
  · exact .inr hbalanced
  · exact .inr (hbalanced.of_neither hconnected hconnecting hconnected hconnecting rfl rfl)
  · exact .inr (hbalanced.of_neither hconnected hconnecting hconnected rfl rfl rfl)
  · exact hbalanced.attempt hconnected hconnecting

theorem same {next : Core U} (haccounted : Accounted reports core)
    (hsame : SameConnection core next) : Accounted reports next := by
  obtain ⟨hconnected, hconnecting, canceledWrites, writer, hsocket⟩ := hsame
  apply haccounted.congr hconnected hconnecting
  · rw [hsocket]
  · rw [hsocket]
  · rw [hsocket]

theorem send (haccounted : Accounted reports core) (host : Host) (packet : Packet)
    (write : WriteCall) : Accounted reports (core.send host packet write) :=
  haccounted.same (.send core host packet write)

theorem kept (host : Host) : Kept host (Accounted reports : Core U → Prop) where
  connect initResult connectResult haccounted := haccounted.connect initResult connectResult
  disconnect haccounted := haccounted.disconnect
  send packet write haccounted := haccounted.send host packet write
  memory _ haccounted := haccounted.congr rfl rfl rfl rfl rfl

end Accounted

/-! ## Steps -/

section Steps

variable {app : Application U V H} {client next : Receiver (Core U) H}

/-- An attempt that fails is over, and nothing was reported. -/
theorem Balanced.attemptFailed (hbalanced : Balanced reports core)
    (hrequested : 0 < core.socket.connectReqs) :
    Balanced reports { core with socket := core.socket.connectDone, isConnecting := false } := by
  obtain ⟨hconnecting, hcloses⟩ := hbalanced.requested hrequested
  have hnot : ¬ core.isConnected := fun hconnected ↦
    nomatch hconnecting.symm.trans (hbalanced.connected hconnected).1
  have hdone : core.socket.connectReqs - 1 = 0 := Nat.sub_eq_zero_of_le hbalanced.connectReqs_le
  constructor
  · exact hbalanced.count
  · exact fun hconnected ↦ absurd hconnected hnot
  · exact nofun
  · exact fun hrequested ↦ absurd hdone hrequested.ne'
  · exact hdone.trans_le (Nat.zero_le 1)
  · exact hbalanced.closeReqs_le

/-- A successful attempt is reported, as the connection it is. -/
theorem Balanced.attemptSucceeded (hbalanced : Balanced reports core)
    (hrequested : 0 < core.socket.connectReqs) :
    Balanced { reports with connects := reports.connects + 1 }
      { core with
        socket := core.socket.connectDone.readStart
        isConnected := true
        isConnecting := false }.startHeartbeat := by
  obtain ⟨hconnecting, hcloses⟩ := hbalanced.requested hrequested
  have hnot : core.isConnected = false := Bool.eq_false_of_not_eq_true fun hconnected ↦
    nomatch hconnecting.symm.trans (hbalanced.connected hconnected).1
  have hdone : core.socket.connectReqs - 1 = 0 := Nat.sub_eq_zero_of_le hbalanced.connectReqs_le
  have hcount := hbalanced.count
  rw [hnot] at hcount
  constructor
  · exact congrArg (· + 1) hcount
  · exact fun _ ↦ ⟨rfl, (hbalanced.connecting hconnecting).2, hcloses⟩
  · exact nofun
  · exact fun hrequested ↦ absurd hdone hrequested.ne'
  · exact hdone.trans_le (Nat.zero_le 1)
  · exact hbalanced.closeReqs_le

/-- A close callback reports the end of a connection that was reported. -/
theorem Balanced.closed (hbalanced : Balanced reports core) (hclosed : 0 < core.socket.closeReqs)
    (hoverlap : ¬ Overlap core) :
    Balanced { reports with disconnects := reports.disconnects + 1 }
      { core with
        socket := { core.socket with closeReqs := core.socket.closeReqs - 1 }
        isConnected := false
        isConnecting := false }.stopHeartbeat := by
  have hcloses : core.socket.closeReqs = 1 := le_antisymm hbalanced.closeReqs_le hclosed
  have hnot : core.isConnected = false := Bool.eq_false_of_not_eq_true fun hconnected ↦
    absurd (hbalanced.connected hconnected).2.2 hclosed.ne'
  have hcount := hbalanced.count
  rw [hnot, hcloses] at hcount
  constructor
  · change reports.connects = reports.disconnects + 1 + (core.socket.closeReqs - 1) + 0
    rw [hcloses]
    exact hcount
  · exact nofun
  · exact nofun
  · exact fun hrequested ↦ absurd ⟨hrequested, hclosed⟩ hoverlap
  · exact hbalanced.connectReqs_le
  · exact (Nat.sub_le _ _).trans hbalanced.closeReqs_le

/-- Balanced reports alternate. -/
theorem Balanced.alternate (hbalanced : Balanced reports core) : reports.Alternate := by
  have hcount := hbalanced.count
  cases hconnected : core.isConnected with
  | true =>
    rw [hconnected, (hbalanced.connected hconnected).2.2, Bool.toNat_true] at hcount
    constructor <;> omega
  | false =>
    have hcloses := hbalanced.closeReqs_le
    rw [hconnected, Bool.toNat_false] at hcount
    constructor <;> omega

/-- What the client does at an event keeps the reports balanced or makes an overlap, and they
alternate. -/
theorem Balanced.effect (hbalanced : Balanced reports client.state)
    (hconnect : app.connectHandler.isSome) (hdisconnect : app.disconnectHandler.isSome)
    (hoverlap : ¬ Overlap client.state) {event : Event} (hdue : event.Due client.state) :
    Accounted (reports.note app event) (event.effect app.host client.state) ∧
      (reports.note app event).Alternate := by
  have haccounted : Accounted reports client.state := .inr hbalanced
  have halternate := hbalanced.alternate
  by_cases hevent : event.TurnsConnection
  · cases event with
    | call call => exact ⟨(Accounted.kept app.host).run call haccounted, halternate⟩
    | onConnect status readResult =>
      obtain ⟨-, hrequested, -⟩ := hdue
      have hfailed := hbalanced.attemptFailed hrequested
      simp only [Event.effect, Reports.note]
      by_cases hstatus : status < 0
      · rw [if_pos hstatus, if_pos (.inl hstatus)]
        exact ⟨.inr hfailed, halternate⟩
      by_cases hread : readResult ≠ 0
      · rw [if_neg hstatus, if_pos hread, if_pos (.inr hread)]
        exact ⟨hfailed.disconnect, halternate⟩
      · rw [if_neg hstatus, if_neg hread, if_neg (not_or.mpr ⟨hstatus, hread⟩), hconnect]
        have hsucceeded := hbalanced.attemptSucceeded hrequested
        exact ⟨.inr hsucceeded, hsucceeded.alternate⟩
    | onClose =>
      have hclosed := hbalanced.closed hdue.2 hoverlap
      simp only [Event.effect, Reports.note, hdisconnect]
      exact ⟨.inr hclosed, hclosed.alternate⟩
    | _ => cases hevent
  · have hnote : reports.note app event = reports := by
      cases event with
      | onConnect status readResult => exact absurd trivial hevent
      | onClose => exact absurd trivial hevent
      | _ => rfl
    rw [hnote]
    exact ⟨effect_keeps Accounted.same Accounted.disconnect app.host hevent haccounted, halternate⟩

end Steps

/-- What holds of a counted client as long as nothing overlaps, and at the first overlap. -/
structure Reported (counted : Reports × Receiver (Core U) H) : Prop where
  accounted : Accounted counted.1 counted.2.state
  alternate : counted.1.Alternate

theorem Reported.start (active closing : Bool) (memory : U) :
    Reported (H := H) (⟨0, 0⟩, .start (.initial active closing memory)) := by
  constructor
  · right
    constructor
    · rfl
    · exact nofun
    · exact nofun
    · exact nofun
    · exact Nat.zero_le 1
    · exact Nat.zero_le 1
  · exact ⟨le_rfl, Nat.zero_le 1⟩

theorem Reported.step {app : Application U V H} {counted next : Reports × Receiver (Core U) H}
    {event : Event} (hreported : Reported counted) (hconnect : app.connectHandler.isSome)
    (hdisconnect : app.disconnectHandler.isSome)
    (hstep : reportStep app counted event = some next) (hoverlap : ¬ Overlap counted.2.state) :
    Reported next := by
  obtain ⟨client, hclient, rfl⟩ := Option.map_eq_some_iff.mp hstep
  have hbalanced := hreported.accounted.resolve_left hoverlap
  obtain ⟨heffect, halternate⟩ :=
    hbalanced.effect hconnect hdisconnect hoverlap (due_of_step hclient)
  constructor
  · exact step_keeps (Accounted.kept app.host) heffect hclient
  · exact halternate

/-- **Alternation.** In every run of a new client with both handlers set, in which no step finds a
connect request and a close callback outstanding at the same time, the handlers alternate. -/
theorem handlers_alternate (app : Application U V H) (hconnect : app.connectHandler.isSome)
    (hdisconnect : app.disconnectHandler.isSome) (active closing : Bool) (memory : U)
    (events : List Event)
    (halong : Along (reportStep app) (fun counted _ _ ↦ ¬ Overlap counted.2.state) events
      (⟨0, 0⟩, .start (.initial active closing memory)))
    (reports : Reports) (last : Receiver (Core U) H)
    (hrun : runFrom (reportStep app) events (⟨0, 0⟩, .start (.initial active closing memory)) =
      some (reports, last)) :
    reports.disconnects ≤ reports.connects ∧ reports.connects ≤ reports.disconnects + 1 := by
  have hreported : Reported (reports, last) := by
    apply halong.invariant _ (Reported.start active closing memory) hrun
    exact fun hreported hstep hoverlap ↦ hreported.step hconnect hdisconnect hstep hoverlap
  exact hreported.alternate

/-- An application whose handlers do nothing. -/
def reporting : Application Unit Unit Unit :=
  { quiet with
    connectHandler := some fun _ ↦ ⟨[], (), none⟩
    disconnectHandler := some fun _ ↦ ⟨[], (), none⟩ }

/-- Two connections, one ended by the application and one by the server. -/
theorem handlers_alternate_twice :
    ∃ reports last, runFrom (reportStep reporting)
        [.start, .call (.connect 0 0), .onConnect 0 0, .call .disconnect, .onClose,
          .call (.connect 0 0), .onConnect 0 0, .onRead (-4095) [], .onClose]
        (⟨0, 0⟩, .start (.initial false false ())) = some (reports, last) ∧
      reports.disconnects ≤ reports.connects ∧ reports.connects ≤ reports.disconnects + 1 :=
  ⟨_, _, rfl, handlers_alternate reporting rfl rfl false false ()
    [.start, .call (.connect 0 0), .onConnect 0 0, .call .disconnect, .onClose,
      .call (.connect 0 0), .onConnect 0 0, .onRead (-4095) [], .onClose] (by decide) _ _ rfl⟩

/-- A client that disconnects while it is still connecting. -/
theorem disconnection_without_connection :
    ∃ reports last, runFrom (reportStep reporting)
        [.start, .call (.connect 0 0), .call .disconnect, .onConnect (-125) 0, .onClose]
        (⟨0, 0⟩, .start (.initial false false ())) = some (reports, last) ∧
      ¬ reports.disconnects ≤ reports.connects :=
  ⟨_, _, rfl, by decide⟩

end Client

end LibuvNet
