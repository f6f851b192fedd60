import LibuvNet.Foundation.Erasure
import LibuvNet.Server.Seeing
import LibuvNet.Server.TestServer

/-!
# The sessions of a server by themselves

The sessions of a server share its loop, its tables, its heap and the memory of the application.
If the application treats each session by what it knows of that session alone, nothing that happens
on one of them can be noticed on another: the events of the others can be left out of a run, and the
session ends as it did.  There is one way around: a write that is not finished when it is
accepted is finished with whatever the heap holds by then, and that may be the data of another
session.
-/

namespace LibuvNet

open Foundation

namespace Server

variable {U V H S : Type*}

/-! ## An application that keeps its sessions apart -/

/-- What the application does for a session follows from what that session sees, it does it to that
session, and it remembers nothing of it elsewhere. -/
structure KeepsTo (mine : ℕ → U → S) (id : ℕ) (react : World U V H → Reaction U V H) : Prop where
  same : ∀ {world other}, SameFor mine id world other →
    (react other).calls = (react world).calls ∧ (react other).throws = (react world).throws ∧
      mine id (react other).memory = mine id (react world).memory
  own : ∀ world, ∀ call ∈ (react world).calls, call.subject? = some id
  aside : ∀ world session, session ≠ id → mine session (react world).memory =
    mine session world.memory

/-- The application treats every session so. -/
structure Application.Separate (app : Application U V H) (mine : ℕ → U → S) : Prop where
  connect : ∀ id, KeepsTo mine id (app.connectHandler id)
  close : ∀ id, KeepsTo mine id (app.closeHandler id)
  packet : ∀ handler id packet, KeepsTo mine id (app.onPacket handler id packet)
  sessionPacket : ∀ handler id packet, KeepsTo mine id (app.onSessionPacket handler id packet)

variable {app : Application U V H} {mine : ℕ → U → S} {id session : ℕ}
  {world next other after : World U V H}

namespace KeepsTo

variable {react : World U V H → Reaction U V H}

/-- What is done for the session is done alike where it looks the same. -/
theorem react_same (hkeeps : KeepsTo mine id react) (hsame : SameFor mine id world other)
    (hreact : app.react (react world) world = .returned next) :
    ∃ after, app.react (react other) other = .returned after ∧ SameFor mine id next after := by
  have hcreated : next.created = world.created := (Serves.react 0 hreact).created
  obtain ⟨hthrows, rfl⟩ := react_eq_returned.mp hreact
  obtain ⟨hcalls, hthrows', hmine⟩ := hkeeps.same hsame
  refine ⟨_, react_eq_returned.mpr ⟨hthrows'.trans hthrows, rfl⟩, ?_⟩
  have hruns (calls : List (Call V H)) (hown : ∀ call ∈ calls, call.subject? = some id)
      {world other : World U V H} (hsame : SameFor mine id world other) :
      SameFor mine id (calls.foldl (Call.run app.host) world)
        (calls.foldl (Call.run app.host) other) := by
    induction calls generalizing world other with
    | nil => exact hsame
    | cons call calls ih =>
      obtain ⟨hfirst, hlater⟩ := List.forall_mem_cons.mp hown
      have hcall : call.subject?.getD id = id := by rw [hfirst, Option.getD_some]
      exact ih hlater (hsame.run app.host hcall)
  have hafter := hruns _ (hkeeps.own world) hsame
  rw [hcalls]
  refine ⟨hafter.created, hafter.now, hafter.live, hafter.packetHandlers,
    hafter.defaultPacketHandler, hafter.slot, fun known hknown ↦ ?_⟩
  obtain ⟨hsessions, hcallsOf, -⟩ := hafter.known known hknown
  refine ⟨hsessions, hcallsOf, ?_⟩
  change mine known (react other).memory = mine known (react world).memory
  by_cases heq : known = id
  · rw [heq, hmine]
  · have hknown' : known = id ∨ world.created ≤ known := hcreated ▸ hknown
    rw [hkeeps.aside other known heq, hkeeps.aside world known heq, (hsame.known known hknown').2.2]

/-- What is done for another session is nothing to this one. -/
theorem react_aside (hkeeps : KeepsTo mine session react) (hne : session ≠ id)
    (hold : session < world.created)
    (hreact : app.react (react world) world = .returned next) : SameFor mine id world next := by
  have hcreated : next.created = world.created := (Serves.react 0 hreact).created
  obtain ⟨-, rfl⟩ := react_eq_returned.mp hreact
  have hruns (calls : List (Call V H)) (hown : ∀ call ∈ calls, call.subject? = some session)
      (world : World U V H) :
      SameFor mine id world (calls.foldl (Call.run app.host) world) := by
    induction calls generalizing world with
    | nil => exact .refl mine id world
    | cons call calls ih =>
      obtain ⟨hfirst, hlater⟩ := List.forall_mem_cons.mp hown
      exact (SameFor.run_aside hne app.host world hfirst).trans (ih hlater _)
  have hafter : SameFor mine id world ((react world).calls.foldl (Call.run app.host) world) :=
    hruns _ (hkeeps.own world) world
  refine ⟨hafter.created, hafter.now, hafter.live, hafter.packetHandlers,
    hafter.defaultPacketHandler, hafter.slot, fun known hknown ↦ ?_⟩
  obtain ⟨hsessions, hcallsOf, -⟩ := hafter.known known hknown
  have hother : known ≠ session := by
    rcases hknown with rfl | hlater
    · exact hne.symm
    · exact (lt_of_lt_of_le hold hlater).ne'
  exact ⟨hsessions, hcallsOf, hkeeps.aside world known hother⟩

end KeepsTo

namespace Application.Separate

theorem callPacketHandler_same (hseparate : app.Separate mine) {handler : H} {packet : Packet}
    (hsame : SameFor mine id world other)
    (hcall : app.callPacketHandler handler id packet world = .returned next) :
    ∃ after, app.callPacketHandler handler id packet other = .returned after ∧
      SameFor mine id next after :=
  (hseparate.packet handler id packet).react_same (hsame.record (.packet handler packet)) hcall

theorem callPacketHandler_aside (hseparate : app.Separate mine) {handler : H} {packet : Packet}
    (hne : session ≠ id) (hold : session < world.created)
    (hcall : app.callPacketHandler handler session packet world = .returned next) :
    SameFor mine id world next := by
  have hrecord : SameFor mine id world (world.record session (.packet handler packet)) :=
    .record_aside hne hold _
  exact hrecord.trans ((hseparate.packet handler session packet).react_aside hne hold hcall)

/-- The handlers of the session do the same. -/
theorem invoke_same (hseparate : app.Separate mine) {slot : Slot V H}
    {handler : SessionHandler H} {packet : Packet} (hsame : SameFor mine id world other)
    (hinvoke : (app.program id slot).invoke handler packet world = .returned next) :
    ∃ after, (app.program id slot).invoke handler packet other = .returned after ∧
      SameFor mine id next after := by
  cases handler with
  | ignoreHeartbeat =>
    cases hinvoke
    exact ⟨other, rfl, hsame⟩
  | serverTables =>
    change app.serverTables id packet world = .returned next at hinvoke
    change ∃ after, app.serverTables id packet other = .returned after ∧ _
    have hfind : other.findHandler packet.type = world.findHandler packet.type := by
      unfold World.findHandler
      rw [hsame.packetHandlers, hsame.defaultPacketHandler]
    rw [serverTables_eq] at hinvoke ⊢
    rw [hfind]
    cases hhandler : world.findHandler packet.type with
    | none =>
      rw [hhandler] at hinvoke
      cases hinvoke
      exact ⟨other, rfl, hsame⟩
    | some handler =>
      rw [hhandler] at hinvoke
      exact hseparate.callPacketHandler_same hsame hinvoke
  | user handler => exact (hseparate.sessionPacket handler id packet).react_same hsame hinvoke

theorem invoke_aside (hseparate : app.Separate mine) {slot : Slot V H}
    {handler : SessionHandler H} {packet : Packet} (hne : session ≠ id)
    (hold : session < world.created)
    (hinvoke : (app.program session slot).invoke handler packet world = .returned next) :
    SameFor mine id world next := by
  cases handler with
  | ignoreHeartbeat =>
    cases hinvoke
    exact .refl mine id world
  | serverTables =>
    change app.serverTables session packet world = .returned next at hinvoke
    rw [serverTables_eq] at hinvoke
    cases hhandler : world.findHandler packet.type with
    | none =>
      rw [hhandler] at hinvoke
      cases hinvoke
      exact .refl mine id world
    | some handler =>
      rw [hhandler] at hinvoke
      exact hseparate.callPacketHandler_aside hne hold hinvoke
  | user handler =>
    exact (hseparate.sessionPacket handler session packet).react_aside hne hold hinvoke

/-- A packet of the session is handled alike. -/
theorem handlePacket_same (hseparate : app.Separate mine) {packet : Packet}
    {here later there : Endpoint (World U V H) (SessionHandler H)}
    (hsame : SameFor mine id here.state there.state)
    (hhandle : app.handlePacket id packet here = .returned later) :
    ∃ after, app.handlePacket id packet there = .returned after ∧
      SameFor mine id later.state after.state := by
  unfold Application.handlePacket at hhandle ⊢
  rw [hsame.slot]
  by_cases htype : packet.type = .heartbeat
  · rw [Session.handlePacket_of_heartbeat _ htype] at hhandle ⊢
    cases hhandle
    refine ⟨_, rfl, hsame.setCore ?_⟩
    rw [hsame.slot, hsame.now]
  · rw [Session.handlePacket_of_ne _ htype] at hhandle ⊢
    rw [Client.dispatch_eq] at hhandle ⊢
    cases hintercept : (app.program id (here.state.slot id)).intercept packet with
    | error error =>
      rw [hintercept] at hhandle
      cases hhandle
    | ok handler =>
      rw [hintercept] at hhandle
      cases handler with
      | none =>
        cases hhandle
        exact ⟨_, rfl, hsame⟩
      | some handler =>
        obtain ⟨state, hinvoke, rfl⟩ := Outcome.map_eq_returned hhandle
        obtain ⟨after, hafter, hstate⟩ := hseparate.invoke_same hsame hinvoke
        refine ⟨⟨after, there.trace ++ [.decoded packet] ++ [.invoked handler packet]⟩, ?_, hstate⟩
        change Outcome.map _ ((app.program id (here.state.slot id)).invoke handler packet
          there.state) = _
        rw [hafter]
        rfl

theorem handlePacket_aside (hseparate : app.Separate mine) {packet : Packet}
    {here later : Endpoint (World U V H) (SessionHandler H)} (hne : session ≠ id)
    (hold : session < here.state.created)
    (hhandle : app.handlePacket session packet here = .returned later) :
    SameFor mine id here.state later.state := by
  rcases Session.handlePacket_state _ hhandle with hstate | hbeat | ⟨handler, hinvoke⟩
  · rw [hstate]
    exact .refl mine id _
  · rw [hbeat]
    exact .setSlot_aside hne _ _
  · exact hseparate.invoke_aside hne hold hinvoke

/-- A chunk for the session is read alike. -/
theorem onRead_same (hseparate : app.Separate mine) {nread : ℤ} {base : Bytes}
    (hsame : SameFor mine id world other)
    (hread : onRead app id nread base world = .returned next) :
    ∃ after, onRead app id nread base other = .returned after ∧ SameFor mine id next after := by
  unfold onRead at hread ⊢
  by_cases herror : nread < 0
  · rw [if_pos herror] at hread ⊢
    cases hread
    exact ⟨_, rfl, hsame.setCore (by rw [hsame.slot])⟩
  rw [if_neg herror] at hread ⊢
  by_cases hnothing : nread = 0
  · rw [if_pos hnothing] at hread ⊢
    cases hread
    exact ⟨other, rfl, hsame⟩
  rw [if_neg hnothing] at hread ⊢
  obtain ⟨receiver, happend, rfl⟩ := Outcome.map_eq_returned hread
  let Related (here there : Endpoint (World U V H) (SessionHandler H)) : Prop :=
    SameFor mine id here.state there.state
  have hstart : Related ⟨world, []⟩ ⟨other, []⟩ := hsame
  obtain ⟨after, hdrain, hafter⟩ := (wireDecoder app.host).drain_follows (app.handlePacket id)
    (fun hrelated hhandle ↦ hseparate.handlePacket_same hrelated hhandle) hstart
    (Session.drain_of_appendToBufferBy happend)
  have hreceiver : Session.appendToBufferBy app.host (app.handlePacket id) base
      ⟨⟨other, []⟩, (other.slot id).buffer⟩ = .returned ⟨after, receiver.buffer⟩ := by
    rw [hsame.slot]
    exact (Session.appendToBufferBy_eq_append app.host (app.handlePacket id) base
      ((world.slot id).buffer, ⟨other, []⟩)).trans (congrArg (Outcome.map Receiver.ofPair) hdrain)
  refine ⟨_, congrArg (Outcome.map _) hreceiver, ?_⟩
  change SameFor mine id _ (after.state.setSlot id
    { after.state.slot id with buffer := receiver.buffer })
  rw [hafter.slot]
  exact hafter.setSlot _

theorem onRead_aside (hseparate : app.Separate mine) {nread : ℤ} {base : Bytes}
    (hne : session ≠ id) (hold : session < world.created)
    (hread : onRead app session nread base world = .returned next) :
    SameFor mine id world next := by
  unfold onRead at hread
  split_ifs at hread
  · cases hread
    exact .setSlot_aside hne world _
  · cases hread
    exact .refl mine id world
  · obtain ⟨receiver, happend, rfl⟩ := Outcome.map_eq_returned hread
    let Holds (endpoint : Endpoint (World U V H) (SessionHandler H)) : Prop :=
      session < endpoint.state.created ∧ SameFor mine id world endpoint.state
    have hhandle {packet : Packet} {here later : Endpoint (World U V H) (SessionHandler H)}
        (hholds : Holds here) (hhandle : app.handlePacket session packet here = .returned later) :
        Holds later := by
      have hlater := hseparate.handlePacket_aside hne hholds.1 hhandle
      exact ⟨hlater.created.symm ▸ hholds.1, hholds.2.trans hlater⟩
    have hstart : Holds ⟨world, []⟩ := ⟨hold, .refl mine id world⟩
    obtain ⟨-, hreceiver⟩ : Holds receiver.toEndpoint :=
      Session.appendToBufferBy_preserves Holds hhandle hstart happend
    exact hreceiver.trans (.setSlot_aside hne _ _)

/-- A new session is set up alike, whoever else there is. -/
theorem onConnection_same (hseparate : app.Separate mine) {status readResult : ℤ}
    (hsame : SameFor mine id world other)
    (hconnection : onConnection app status readResult world = .returned next) :
    ∃ after, onConnection app status readResult other = .returned after ∧
      SameFor mine id next after := by
  unfold onConnection at hconnection ⊢
  split_ifs at hconnection ⊢
  · cases hconnection
    exact ⟨other, rfl, hsame⟩
  · have hnew := hsame.create readResult (.inr rfl)
    rw [hsame.created] at hnew ⊢
    obtain ⟨after, hafter, hboth⟩ :=
      (hseparate.connect world.created).react_same hnew hconnection
    refine ⟨after, hafter, ?_⟩
    by_cases heq : world.created = id
    · exact heq ▸ hboth
    -- The handler of another new session is nothing to this one, on either side.
    · have hold := hsame.create readResult (.inl rfl)
      rw [hsame.created] at hold
      apply hold.congr
      · exact (hseparate.connect world.created).react_aside heq (Nat.lt_succ_self _) hconnection
      · have hlt : world.created < other.created + 1 := by
          rw [hsame.created]
          exact Nat.lt_succ_self _
        exact (hseparate.connect world.created).react_aside heq hlt hafter

theorem onClose_same (hseparate : app.Separate mine) (hsame : SameFor mine id world other)
    (hclose : onClose app id world = .returned next) :
    ∃ after, onClose app id other = .returned after ∧ SameFor mine id next after :=
  (hseparate.close id).react_same (hsame.forget.record .close) hclose

theorem onClose_aside (hseparate : app.Separate mine) (hne : session ≠ id)
    (hold : session < world.created) (hclose : onClose app session world = .returned next) :
    SameFor mine id world next := by
  have hforget : SameFor mine id world (world.forget session) := .forget_aside hne hold
  have hforgotten : session < (world.forget session).created := hold
  have hrecord : SameFor mine id (world.forget session)
      ((world.forget session).record session .close) := .record_aside hne hforgotten _
  exact (hforget.trans hrecord).trans ((hseparate.close session).react_aside hne hold hclose)

end Application.Separate

/-! ## Steps -/

/-- The transport never comes back for a write of the session that was not finished at once. -/
def Prompt (id : ℕ) (world : World U V H) (event : Event V H) (_ : World U V H) : Prop :=
  match event with
  | .transmit session _ => session = id → (world.slot id).core.socket.writer.queue = []
  | _ => True

instance (id : ℕ) (world : World U V H) (event : Event V H) (next : World U V H) :
    Decidable (Prompt id world event next) :=
  match event with
  | .transmit session _ =>
    inferInstanceAs (Decidable (session = id → (world.slot id).core.socket.writer.queue = []))
  | .call _ | .onConnection _ _ | .onRead _ _ _ | .onWrite _ _ | .onClose _
  | .onHeartbeatTimer _ _ | .elapse _ => isTrue trivial

/-- What is due on the session is due on both sides. -/
theorem SameFor.due (hsame : SameFor mine id world other) {event : Event V H}
    (hreaches : event.Reaches id) (hdue : event.Due world) : event.Due other := by
  cases event with
  | call call | onConnection status readResult | elapse milliseconds => trivial
  | onRead session nread base | onWrite session status | onClose session
  | onHeartbeatTimer session write | transmit session count =>
    obtain rfl : session = id := hreaches
    simp only [Event.Due, hsame.created, hsame.slot, hsame.now] at hdue ⊢
    exact hdue

/-- A step on the session, or on the server as a whole, is one for both. -/
theorem Application.Separate.step_same (hseparate : app.Separate mine) {event : Event V H}
    (hreaches : event.Reaches id) (hsame : SameFor mine id world other)
    (hstep : step app world event = some next) (hprompt : Prompt id world event next) :
    ∃ after, step app other event = some after ∧ SameFor mine id next after := by
  obtain ⟨hdue, hhandle⟩ := step_eq_some.mp hstep
  suffices hafter : ∃ after, handle app event other = .returned after ∧
      SameFor mine id next after by
    obtain ⟨after, hafter, hnext⟩ := hafter
    exact ⟨after, step_eq_some.mpr ⟨hsame.due hreaches hdue, hafter⟩, hnext⟩
  cases event with
  | call call =>
    cases hhandle
    exact ⟨_, rfl, hsame.run app.host hreaches⟩
  | onConnection status readResult => exact hseparate.onConnection_same hsame hhandle
  | onRead session nread base =>
    obtain rfl : session = id := hreaches
    exact hseparate.onRead_same hsame hhandle
  | onWrite session status =>
    obtain rfl : session = id := hreaches
    cases hhandle
    exact ⟨_, rfl, hsame.setCore (by rw [hsame.slot])⟩
  | onClose session =>
    obtain rfl : session = id := hreaches
    exact hseparate.onClose_same hsame hhandle
  | onHeartbeatTimer session write =>
    obtain rfl : session = id := hreaches
    cases hhandle
    obtain ⟨hcore, hlive⟩ := (world.slot session).core.tick_heap app.host write world.now hsame.live
    refine ⟨_, rfl, (hsame.setCore ?_).setHeap ?_⟩
    · rw [hsame.slot, hsame.now, hcore]
    · rw [hsame.slot, hsame.now, hlive]
  | transmit session count =>
    obtain rfl : session = id := hreaches
    cases hhandle
    have hnothing (heap : Memory UInt8) :
        (world.slot session).core.socket.transmit heap count =
          (world.slot session).core.socket := by
      rw [UvTcp.transmit, Writer.take, hprompt rfl]
    refine ⟨_, rfl, hsame.setCore ?_⟩
    rw [hsame.slot, hnothing, hnothing]
  | elapse milliseconds =>
    cases hhandle
    exact ⟨_, rfl, hsame.created, congrArg (· + milliseconds) hsame.now, hsame.live,
      hsame.packetHandlers, hsame.defaultPacketHandler, hsame.slot, hsame.known⟩

/-- A step on another session is none for this one. -/
theorem Application.Separate.step_aside (hseparate : app.Separate mine) {event : Event V H}
    (haside : ¬ event.Reaches id) (hstep : step app world event = some next) :
    SameFor mine id world next := by
  obtain ⟨hdue, hhandle⟩ := step_eq_some.mp hstep
  cases event with
  | call call =>
    cases hhandle
    cases hsubject : call.subject? with
    | none => exact absurd (congrArg (Option.getD · id) hsubject) haside
    | some session =>
      have hne : session ≠ id := fun heq ↦ haside (by
        rw [← heq]
        exact congrArg (Option.getD · session) hsubject)
      exact .run_aside hne app.host world hsubject
  | onConnection status readResult => exact absurd rfl haside
  | onRead session nread base => exact hseparate.onRead_aside haside hdue.1 hhandle
  | onWrite session status =>
    cases hhandle
    exact .setSlot_aside haside world _
  | onClose session => exact hseparate.onClose_aside haside hdue.1 hhandle
  | onHeartbeatTimer session write =>
    cases hhandle
    have hlive := (world.slot session).core.tick_live app.host write world.now world.heap
    exact (SameFor.setSlot_aside haside world _).trans (.setHeap_aside _ hlive)
  | transmit session count =>
    cases hhandle
    exact .setSlot_aside haside world _
  | elapse milliseconds => exact absurd rfl haside

/-- **Sessions by themselves.** Let the application treat each session by what it knows of that
session alone, and let the transport never come back for an unfinished write of one session.  Then
whatever happens on the other sessions can be left out of a run: the rest is a run, too, and at its
end the session, its tables and its buffer, the calls of handlers for it and what the application
remembers of it are the same. -/
theorem sessions_isolated {S : Type*} (app : Application U V H) (mine : ℕ → U → S)
    (hseparate : app.Separate mine) (memory : U) (events : List (Event V H)) (id : ℕ)
    (hprompt : Along (step app) (Prompt id) events (.initial memory)) (world : World U V H)
    (hrun : runFrom (step app) events (.initial memory) = some world) :
    ∃ alone : World U V H,
      runFrom (step app) (events.filter fun event ↦ event.Reaches id) (.initial memory) =
        some alone ∧
      alone.slot id = world.slot id ∧ alone.callsOf id = world.callsOf id ∧
      (id ∈ alone.sessions ↔ id ∈ world.sessions) ∧
      mine id alone.memory = mine id world.memory := by
  have hunwinds : Unwinds (step app) (Prompt id) (Event.Reaches id) (SameFor mine id) :=
    ⟨fun hreaches hsame hstep hprompt ↦ hseparate.step_same hreaches hsame hstep hprompt,
      fun haside hsame hstep _ ↦ (hseparate.step_aside haside hstep).symm.trans hsame⟩
  obtain ⟨alone, halone, hsame⟩ := hunwinds.runFrom_filter (.refl mine id _) hprompt hrun
  obtain ⟨hsessions, hcalls, hmine⟩ := hsame.known id (.inl rfl)
  refine ⟨alone, halone, hsame.slot, hcalls, ?_, hmine⟩
  have hmem (sessions : List ℕ) : id ∈ sessions ↔
      (sessions.filter fun entry ↦ entry = id) ≠ [] := by
    simp
  rw [hmem, hmem world.sessions, hsessions]

end Server

namespace TestServer

open Server

/-- The server of `server_test.cpp` keeps its sessions apart if `uv_write` does. -/
theorem separate {V : Type*} (host : Host) (mine : ℕ → Unit → Unit)
    {write : ℕ → Packet → World Unit V Handler → WriteCall}
    (hwrite : ∀ id packet world other, SameFor mine id world other →
      write id packet other = write id packet world) :
    (application host write).Separate mine where
  connect _ := ⟨fun _ ↦ ⟨rfl, rfl, rfl⟩, fun _ ↦ List.forall_mem_nil _, fun _ _ _ ↦ rfl⟩
  close _ := ⟨fun _ ↦ ⟨rfl, rfl, rfl⟩, fun _ ↦ List.forall_mem_nil _, fun _ _ _ ↦ rfl⟩
  packet handler id packet := by
    cases handler with
    | text =>
      refine ⟨fun {world other} hsame ↦ ⟨?_, rfl, rfl⟩, fun _ ↦ List.forall_mem_singleton.mpr rfl,
        fun _ _ _ ↦ rfl⟩
      change [Call.send id (responsePacket packet) (write id packet other)] =
        [Call.send id (responsePacket packet) (write id packet world)]
      rw [hwrite id packet world other hsame]
    | binary | heartbeat | other =>
      exact ⟨fun _ ↦ ⟨rfl, rfl, rfl⟩, fun _ ↦ List.forall_mem_nil _, fun _ _ _ ↦ rfl⟩
  sessionPacket _ _ _ := ⟨fun _ ↦ ⟨rfl, rfl, rfl⟩, fun _ ↦ List.forall_mem_nil _, fun _ _ _ ↦ rfl⟩

/-- That server, when the transport takes so many bytes of an answer at once. -/
def taking (taken : ℕ) : Application Unit Unit Handler :=
  application (.wide .little) fun _ _ _ ↦ ⟨5, ⟨0, 0⟩, 0, taken⟩

theorem taking_separate (taken : ℕ) : (taking taken).Separate fun _ (_ : Unit) ↦ () :=
  separate (.wide .little) _ fun _ _ _ _ _ ↦ rfl

/-- Two clients that each send a text; the second one hangs up. -/
def twoClients : List (Event Unit Handler) :=
  [.call (.setPacketHandler .text .text), .onConnection 0 0, .onConnection 0 0,
    .onRead 0 13 textFrame, .onRead 1 14 [1, 0, 0, 0, 2, 0, 0, 0, 0, 0, 0, 0, 112, 119],
    .onRead 1 (-4095) [], .onClose 1]

end TestServer

namespace Server

theorem sessions_isolated_two :
    ∃ world alone, runFrom (step (TestServer.taking 100)) TestServer.twoClients (.initial ()) =
        some world ∧
      runFrom (step (TestServer.taking 100))
        (TestServer.twoClients.filter fun event ↦ event.Reaches 0) (.initial ()) = some alone ∧
      alone.slot 0 = world.slot 0 := by
  obtain ⟨alone, halone, hslot, -⟩ := sessions_isolated (TestServer.taking 100)
    (fun _ (_ : Unit) ↦ ()) (TestServer.taking_separate 100) () TestServer.twoClients 0 (by decide)
    _ rfl
  exact ⟨_, alone, rfl, halone, hslot⟩

/-- If the transport comes back for an answer, the client is sent what another client has sent. -/
theorem unfinished_write_leaks :
    ∃ world alone,
      runFrom (step (TestServer.taking 38)) (TestServer.twoClients ++ [Event.transmit 0 100])
        (.initial ()) = some world ∧
      runFrom (step (TestServer.taking 38))
        ((TestServer.twoClients ++ [Event.transmit 0 100]).filter fun event ↦ event.Reaches 0)
        (.initial ()) = some alone ∧
      (world.slot 0).core.socket.writer.emitted.drop 38 = [112, 119] ∧
      (alone.slot 0).core.socket.writer.emitted.drop 38 = [104, 0] :=
  ⟨_, _, rfl, rfl, by decide, by decide⟩

end Server

end LibuvNet
