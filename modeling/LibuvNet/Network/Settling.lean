import LibuvNet.Foundation.Descent
import LibuvNet.Network.Agreement
import LibuvNet.Network.Answering
import LibuvNet.Server.Load

/-!
# A network that is left alone

When the clients say nothing more, what is under way is read and answered.  Each chunk that is read
takes something off the backlog, also at the server, whose answers are no longer than the factor
allows and go to clients that do not answer back.  So the network comes to rest, and then every
packet that was posted between open ends has been heard.
-/

namespace LibuvNet

open Foundation

namespace Network

variable {U V H : Type*} {app : Server.Application U V H} {order : ByteOrder}
  {network next : Network U V H} {factor : ℕ → ℕ} {id : ℕ}

/-! ## The backlog -/

/-- The event is that a chunk is read. -/
def Event.Reads : Event V H → Prop
  | .server happening => happening.received?.isSome
  | .client _ happening => happening.received?.isSome
  | .join _ _ => False

/-- The bytes that the client of a connection has emitted and the session has not received. -/
def unread (network : Network U V H) (id : ℕ) : ℕ :=
  (network.clientSocket id).writer.emitted.length - (network.upward id).received

/-- The bytes that the session has emitted and the client has not received. -/
def awaited (network : Network U V H) (id : ℕ) : ℕ :=
  (network.world.standing id).writer.emitted.length - (network.downward id).received

/-- What the server reads costs what it will answer, and what it holds may complete a packet. -/
def backlog (factor : ℕ → ℕ) (network : Network U V H) : ℕ :=
  (factor network.world.created + 1) * ∑ id ∈ Finset.range network.world.created,
      network.unread id +
    factor network.world.created * ∑ id ∈ Finset.range network.world.created,
      (network.world.bufferOf id).length +
    ∑ id ∈ Finset.range network.world.created, network.awaited id

/-- What reading keeps of a network. -/
structure Calm (order : ByteOrder) (network : Network U V H) : Prop where
  sound : network.Sound order
  tables : network.world.Tables
  sessions : network.world.sessions.length ≤ network.world.created

/-- The network in which a client has read a chunk. -/
def withRead (host : Host) (network : Network U V H) (id : ℕ) (client : Client.WithBuffer)
    (chunk : Bytes) : Network U V H :=
  network.withClient id ⟨client.core, (wireDecoder host).kept (client.buffer ++ chunk)⟩
    ((network.downward id).hear host client.buffer chunk)

theorem stepClient_onRead {host : Host} {nread : ℤ} {chunk : Bytes} (hnread : 0 < nread)
    {client : Client.WithBuffer} :
    network.stepClient host id (.onRead nread chunk) client = some next ↔
      (client.core.loopThread ∧ client.core.socket.reading ∧ nread = chunk.length) ∧
        (network.downward id).Arrives (network.world.standing id) chunk ∧
        network.withRead host id client chunk = next := by
  have hreceived : (Client.Event.onRead nread chunk).received? = some chunk :=
    Client.received?_onRead hnread
  have heffect : (Client.Event.onRead nread chunk).effect host client.core = client.core :=
    if_neg (by omega)
  have hstep : network.stepClient host id (.onRead nread chunk) client =
      if (network.downward id).Arrives (network.world.standing id) chunk then
        (Client.Core.step host client.core (.onRead nread chunk)).map fun core ↦
          network.withClient id ⟨core, (wireDecoder host).kept (client.buffer ++ chunk)⟩
            ((network.downward id).hear host client.buffer chunk)
      else none := by
    rw [stepClient, if_neg (by exact not_false), hreceived]
    rfl
  rw [hstep]
  by_cases harrives : (network.downward id).Arrives (network.world.standing id) chunk
  · rw [if_pos harrives, Option.map_eq_some_iff]
    constructor
    · rintro ⟨core, hcore, rfl⟩
      obtain ⟨⟨hloop, hreading, hlength⟩, rfl⟩ := Client.Core.step_eq_some.mp hcore
      rw [heffect]
      exact ⟨⟨hloop, hreading, hlength hnread⟩, harrives, rfl⟩
    · rintro ⟨⟨hloop, hreading, hlength⟩, -, rfl⟩
      exact ⟨client.core, Client.Core.step_eq_some.mpr
        ⟨⟨hloop, hreading, fun _ ↦ hlength⟩, heffect⟩, rfl⟩
  · rw [if_neg harrives]
    constructor
    · intro hnone
      cases hnone
    · exact fun hstep ↦ absurd hstep.2.1 harrives

/-- What was emitted and not received grows shorter by the chunk that arrives. -/
theorem sub_received_of_arrives {socket : UvTcp} {ear : Ear} {chunk buffer : Bytes} {host : Host}
    (hwithin : ear.received ≤ socket.writer.emitted.length) (harrives : ear.Arrives socket chunk) :
    socket.writer.emitted.length - (ear.hear host buffer chunk).received + chunk.length =
      socket.writer.emitted.length - ear.received := by
  have hlength := harrives.length_le
  rw [List.length_drop] at hlength
  change socket.writer.emitted.length - (ear.received + chunk.length) + chunk.length = _
  omega

/-- A client that reads takes what it reads off the backlog. -/
theorem backlog_withRead (hsound : network.Sound order) {client : Client.WithBuffer}
    (hclient : network.client id = some client) {chunk : Bytes} (hchunk : 0 < chunk.length)
    (harrives : (network.downward id).Arrives (network.world.standing id) chunk) :
    (network.withRead (.wide order) id client chunk).backlog factor < network.backlog factor := by
  have hsockets : (network.withRead (.wide order) id client chunk).clientSocket =
      network.clientSocket := by
    funext other
    refine forall_withClient (fun other socket _ _ ↦ socket = network.clientSocket other)
      (fun _ ↦ rfl) ?_ other
    exact (network.clientSocket_of_some hclient).symm
  have hid : id < network.world.created := by
    by_contra hid
    rw [Server.World.standing, if_neg hid] at harrives
    have hnothing : chunk <+: ([] : Bytes).drop (network.downward id).received := harrives
    rw [List.drop_nil, List.prefix_nil] at hnothing
    rw [hnothing] at hchunk
    exact absurd hchunk (lt_irrefl 0)
  have hself : (network.withRead (.wide order) id client chunk).awaited id + chunk.length =
      network.awaited id := by
    change (network.world.standing id).writer.emitted.length -
      (Function.update network.downward id _ id).received + chunk.length = _
    rw [Function.update_self]
    exact sub_received_of_arrives (hsound.downward id).within harrives
  have hothers (other : ℕ) (hne : other ≠ id) :
      (network.withRead (.wide order) id client chunk).awaited other = network.awaited other := by
    change (network.world.standing other).writer.emitted.length -
      (Function.update network.downward id _ other).received = _
    rw [Function.update_of_ne hne]
    rfl
  have hawaited : ∑ other ∈ Finset.range network.world.created,
      (network.withRead (.wide order) id client chunk).awaited other + chunk.length ≤
      ∑ other ∈ Finset.range network.world.created, network.awaited other + 0 :=
    sum_add_le_sum_add (Finset.mem_range.mpr hid) hself.le fun other _ hne ↦ hothers other hne
  have hunread : (network.withRead (.wide order) id client chunk).unread = network.unread := by
    unfold unread
    rw [hsockets]
    rfl
  unfold backlog
  rw [hunread]
  change _ + _ + ∑ other ∈ Finset.range network.world.created, _ < _
  exact Nat.add_lt_add_left (by omega) _

/-- The network in which a session has read a chunk. -/
def withHeard (host : Host) (network : Network U V H) (id : ℕ) (chunk : Bytes)
    (world : Server.World U V H) : Network U V H :=
  { network with
    world := world
    upward := Function.update network.upward id
      ((network.upward id).hear host (network.world.bufferOf id) chunk) }

theorem stepServer_onRead {nread : ℤ} {chunk : Bytes} (hnread : 0 < nread) :
    network.stepServer app (.onRead id nread chunk) = some next ↔
      (id < network.world.created ∧ (network.world.slot id).core.socket.reading ∧
        nread = chunk.length) ∧
      (network.upward id).Arrives (network.clientSocket id) chunk ∧
      ∃ world, Server.onRead app id nread chunk network.world = .returned world ∧
        network.withHeard app.host id chunk world = next := by
  have hstep : network.stepServer app (.onRead id nread chunk) =
      if (network.upward id).Arrives (network.clientSocket id) chunk then
        (Server.step app network.world (.onRead id nread chunk)).map
          (network.withHeard app.host id chunk)
      else none := by
    rw [stepServer, Server.received?_onRead hnread]
    rfl
  rw [hstep]
  by_cases harrives : (network.upward id).Arrives (network.clientSocket id) chunk
  · rw [if_pos harrives, Option.map_eq_some_iff]
    constructor
    · rintro ⟨world, hworld, hnext⟩
      obtain ⟨⟨hid, hreading, hlength⟩, hread⟩ := Server.step_eq_some.mp hworld
      exact ⟨⟨hid, hreading, hlength hnread⟩, harrives, world, hread, hnext⟩
    · rintro ⟨⟨hid, hreading, hlength⟩, -, world, hread, hnext⟩
      exact ⟨world, Server.step_eq_some.mpr ⟨⟨hid, hreading, fun _ ↦ hlength⟩, hread⟩, hnext⟩
  · rw [if_neg harrives]
    constructor
    · intro hnone
      cases hnone
    · exact fun hstep ↦ absurd hstep.2.1 harrives

/-- What the sessions emit is what is awaited more. -/
theorem sum_awaited {world : Server.World U V H} {ears : ℕ → Ear} (hsound : network.Sound order)
    (hcreated : world.created = network.world.created)
    (hemitted : ∀ id, (network.world.standing id).writer.emitted <+:
      (world.standing id).writer.emitted) :
    ∑ id ∈ Finset.range network.world.created,
        ({ network with world := world, upward := ears } : Network U V H).awaited id +
        network.world.output =
      ∑ id ∈ Finset.range network.world.created, network.awaited id + world.output := by
  unfold Server.World.output
  rw [hcreated, ← Finset.sum_add_distrib, ← Finset.sum_add_distrib]
  apply Finset.sum_congr rfl
  intro id hid
  have hlt := Finset.mem_range.mp hid
  have hwithin := (hsound.downward id).within
  have hgrows := (hemitted id).length_le
  change (world.standing id).writer.emitted.length - (network.downward id).received + _ =
    (network.world.standing id).writer.emitted.length - (network.downward id).received + _
  rw [Server.standing_of_lt hlt] at hwithin hgrows ⊢
  rw [Server.standing_of_lt (hcreated ▸ hlt)] at hgrows ⊢
  omega

/-- What the client has emitted is unread for as much less as arrives. -/
theorem sum_unread_withHeard (hsound : network.Sound order) (hid : id < network.world.created)
    {chunk : Bytes} (harrives : (network.upward id).Arrives (network.clientSocket id) chunk)
    (host : Host) (world : Server.World U V H) :
    ∑ other ∈ Finset.range network.world.created,
        (network.withHeard host id chunk world).unread other + chunk.length ≤
      ∑ other ∈ Finset.range network.world.created, network.unread other + 0 := by
  apply sum_add_le_sum_add (Finset.mem_range.mpr hid)
  · change (network.clientSocket id).writer.emitted.length -
      (Function.update network.upward id _ id).received + chunk.length ≤ network.unread id + 0
    rw [Function.update_self]
    exact (sub_received_of_arrives (hsound.upward id).within harrives).le
  · intro other _ hne
    change (network.clientSocket other).writer.emitted.length -
      (Function.update network.upward id _ other).received = network.unread other
    rw [Function.update_of_ne hne]
    rfl

/-- The buffer holds more by what arrives, but for the frames that are taken off it. -/
theorem sum_bufferOf_onRead (hhost : app.host = .wide order) {world after : Server.World U V H}
    (hid : id < world.created) {nread : ℤ} (hnread : 0 < nread) {chunk : Bytes}
    (hstep : Server.step app world (.onRead id nread chunk) = some after) :
    ∑ other ∈ Finset.range world.created, (after.bufferOf other).length +
        ((world.decoded app.host id chunk).map Packet.frameLength).sum ≤
      ∑ other ∈ Finset.range world.created, (world.bufferOf other).length + chunk.length := by
  apply sum_add_le_sum_add (Finset.mem_range.mpr hid)
  · have hbuffer : world.bufferOf id = (world.slot id).buffer := if_pos hid
    have hdecoded : world.decoded app.host id chunk =
        ((wireDecoder (.wide order)).parse (world.bufferOf id ++ chunk)).values := by
      rw [hbuffer, ← hhost]
      rfl
    have hkept := frameLengths_add_kept_le order (world.bufferOf id ++ chunk)
    rw [List.length_append] at hkept
    rw [Server.bufferOf_step hstep, Server.received?_onRead hnread, hdecoded, hhost]
    simp only [if_true]
    omega
  · intro other _ hne
    rw [Server.bufferOf_step hstep, Server.received?_onRead hnread]
    simp only [if_neg hne]

/-- A session that reads takes what it reads off the backlog, whatever it answers. -/
theorem backlog_withHeard (hanswers : app.Answers factor) (hhost : app.host = .wide order)
    (hcalm : network.Calm order) {nread : ℤ} (hnread : 0 < nread) {chunk : Bytes}
    (hstep : network.stepServer app (.onRead id nread chunk) = some next) :
    next.backlog factor < network.backlog factor ∧ next.world.Tables ∧
      next.world.sessions.length ≤ next.world.created := by
  obtain ⟨⟨hid, hreading, rfl⟩, harrives, world, hread, rfl⟩ := (stepServer_onRead hnread).mp hstep
  obtain ⟨world', hread', hbears⟩ :=
    hanswers.onRead hcalm.tables hid hcalm.sessions hnread chunk
  obtain rfl := Outcome.returned.inj (hread'.symm.trans hread)
  have hworld : Server.step app network.world (.onRead id chunk.length chunk) = some world' :=
    Server.step_eq_some.mpr ⟨⟨hid, hreading, fun _ ↦ rfl⟩, hread⟩
  have htidy : network.world.Tidy app.host := hhost ▸ hcalm.sound.tidy
  have hsessions : world'.sessions.length ≤ world'.created := by
    rw [hbears.sessions, hbears.created]
    exact hcalm.sessions
  refine ⟨?_, hbears.tables, hsessions⟩
  have hchunk : 0 < chunk.length := Int.natCast_pos.mp hnread
  let after := network.withHeard app.host id chunk world'
  let load := ((network.world.decoded app.host id chunk).map Packet.frameLength).sum
  have hunread : ∑ other ∈ Finset.range network.world.created, after.unread other + chunk.length ≤
      ∑ other ∈ Finset.range network.world.created, network.unread other + 0 :=
    sum_unread_withHeard hcalm.sound hid harrives app.host world'
  have hheld : ∑ other ∈ Finset.range network.world.created, (world'.bufferOf other).length +
      load ≤ ∑ other ∈ Finset.range network.world.created,
        (network.world.bufferOf other).length + chunk.length :=
    sum_bufferOf_onRead hhost hid hnread hworld
  -- The sessions emit no more than the factor allows.
  have hawaited : ∑ other ∈ Finset.range network.world.created, after.awaited other +
      network.world.output =
        ∑ other ∈ Finset.range network.world.created, network.awaited other + world'.output :=
    sum_awaited hcalm.sound hbears.created fun other ↦
      (Server.standing_step htidy hworld other).emitted
  have houtput : world'.output ≤ network.world.output + factor network.world.created * load :=
    hbears.output
  change (factor world'.created + 1) * ∑ other ∈ Finset.range world'.created, after.unread other +
    factor world'.created * ∑ other ∈ Finset.range world'.created, (world'.bufferOf other).length +
    ∑ other ∈ Finset.range world'.created, after.awaited other < _
  unfold backlog
  rw [hbears.created]
  generalize factor network.world.created = factor at houtput ⊢
  have hscaledUnread := Nat.mul_le_mul_left (factor + 1) hunread
  have hscaledHeld := Nat.mul_le_mul_left factor hheld
  rw [Nat.mul_add, Nat.mul_add, Nat.mul_zero, Nat.add_mul factor 1 chunk.length, Nat.one_mul]
    at hscaledUnread
  rw [Nat.mul_add, Nat.mul_add] at hscaledHeld
  omega

/-- Reading keeps the network calm and takes something off the backlog. -/
theorem Calm.read (hanswers : app.Answers factor) (hhost : app.host = .wide order)
    (hcalm : network.Calm order) {event : Event V H} (hreads : event.Reads)
    (hstep : step app network event = some next) (hflowing : next.Flowing) :
    next.Calm order ∧ next.backlog factor < network.backlog factor := by
  have hsound := (hcalm.sound.step hhost hstep hflowing).1
  cases event with
  | join id client => exact hreads.elim
  | client id happening =>
    obtain ⟨client, hclient, hstep⟩ := Option.bind_eq_some_iff.mp hstep
    obtain ⟨chunk, hreceived⟩ := Option.isSome_iff_exists.mp hreads
    obtain ⟨nread, hnread, rfl⟩ := Client.received?_eq_some hreceived
    obtain ⟨⟨-, -, rfl⟩, harrives, rfl⟩ := (stepClient_onRead hnread).mp hstep
    refine ⟨⟨hsound, hcalm.tables, hcalm.sessions⟩, ?_⟩
    rw [hhost]
    exact backlog_withRead hcalm.sound hclient (Int.natCast_pos.mp hnread) harrives
  | server happening =>
    obtain ⟨⟨id, chunk⟩, hreceived⟩ := Option.isSome_iff_exists.mp hreads
    obtain ⟨nread, hnread, rfl⟩ := Server.received?_eq_some hreceived
    obtain ⟨hless, htables, hsessions⟩ := backlog_withHeard hanswers hhost hcalm hnread hstep
    exact ⟨⟨hsound, htables, hsessions⟩, hless⟩

/-- The network is calm as long as user code leaves the tables of the sessions alone. -/
theorem calm_run (hleaves : app.LeavesTables) (hhost : app.host = .wide order) (memory : U)
    {events : List (Event V H)}
    (hevents : ∀ call, .server (.call call) ∈ events → call.LeavesTables)
    (hflows : Along (step app) FlowsOn events (.initial memory))
    (hrun : runFrom (step app) events (.initial memory) = some network) : network.Calm order := by
  let Holds (network : Network U V H) : Prop :=
    network.world.Tables ∧ Server.Registered network.world
  have hstep (event : Event V H) (hmem : event ∈ events) {network next : Network U V H}
      (hholds : Holds network) (hstep : step app network event = some next) : Holds next := by
    rcases step_world hstep with ⟨hworld, -⟩ | ⟨happening, rfl, hworld, -⟩
    · change next.world.Tables ∧ Server.Registered next.world
      rwa [hworld]
    · exact ⟨hholds.1.step hleaves (fun call hcall ↦ hevents call (hcall ▸ hmem)) hworld,
        hholds.2.step hworld⟩
  obtain ⟨htables, hregistered⟩ : Holds network := runFrom_invariant_of_mem Holds hstep
    ⟨Server.World.Tables.initial memory, Server.registered_initial memory⟩ hrun
  refine ⟨((Sound.initial order memory).run hhost hflows hrun).1, htables, ?_⟩
  rw [hregistered.sessions]
  exact (List.length_filter_le _ _).trans List.length_range.le

/-! ## Rest -/

/-- No chunk can be read. -/
def Rests (app : Server.Application U V H) (network : Network U V H) : Prop :=
  ∀ event next, Event.Reads event → step app network event ≠ some next

namespace Rests

/-- Nothing can be read where nothing is left of what was emitted. -/
theorem of_idle (hunread : ∀ id, network.unread id = 0) (hawaited : ∀ id, network.awaited id = 0) :
    Rests app network := by
  intro event next hreads hstep
  cases event with
  | join id client => exact hreads
  | client id happening =>
    obtain ⟨client, hclient, hstep⟩ := Option.bind_eq_some_iff.mp hstep
    obtain ⟨chunk, hreceived⟩ := Option.isSome_iff_exists.mp hreads
    obtain ⟨nread, hnread, rfl⟩ := Client.received?_eq_some hreceived
    obtain ⟨⟨-, -, rfl⟩, harrives, -⟩ := (stepClient_onRead hnread).mp hstep
    have hlength : chunk.length ≤ network.awaited id :=
      harrives.length_le.trans List.length_drop.le
    rw [hawaited id] at hlength
    omega
  | server happening =>
    obtain ⟨⟨id, chunk⟩, hreceived⟩ := Option.isSome_iff_exists.mp hreads
    obtain ⟨nread, hnread, rfl⟩ := Server.received?_eq_some hreceived
    obtain ⟨⟨-, -, rfl⟩, harrives, -⟩ := (stepServer_onRead hnread).mp hstep
    have hlength : chunk.length ≤ network.unread id :=
      harrives.length_le.trans List.length_drop.le
    rw [hunread id] at hlength
    omega

/-- A session that reads has received all that its client has emitted. -/
theorem unread (hrests : Rests app network) (hanswers : app.Answers factor)
    (hcalm : network.Calm order) (hid : id < network.world.created)
    (hreading : (network.world.slot id).core.socket.reading) : network.unread id = 0 := by
  by_contra hunread
  let chunk := (network.clientSocket id).writer.emitted.drop (network.upward id).received
  have hlength : chunk.length = network.unread id := List.length_drop
  have hnread : 0 < (chunk.length : ℤ) := by omega
  obtain ⟨world, hread, -⟩ := hanswers.onRead hcalm.tables hid hcalm.sessions hnread chunk
  have hreads : Event.Reads (.server (.onRead id chunk.length chunk) : Event V H) := by
    change (Server.Event.received? (.onRead id chunk.length chunk : Server.Event V H)).isSome
    rw [Server.received?_onRead hnread]
    rfl
  exact hrests _ _ hreads ((stepServer_onRead hnread).mpr
    ⟨⟨hid, hreading, rfl⟩, List.prefix_rfl, world, hread, rfl⟩)

/-- A client that reads has received all that its session has emitted. -/
theorem awaited (hrests : Rests app network) {client : Client.WithBuffer}
    (hclient : network.client id = some client) (hloop : client.core.loopThread)
    (hreading : client.core.socket.reading) : network.awaited id = 0 := by
  by_contra hawaited
  let chunk := (network.world.standing id).writer.emitted.drop (network.downward id).received
  have hlength : chunk.length = network.awaited id := List.length_drop
  have hnread : 0 < (chunk.length : ℤ) := by omega
  have hreads : Event.Reads (.client id (.onRead chunk.length chunk) : Event V H) := by
    change (Client.Event.received? (.onRead chunk.length chunk)).isSome
    rw [Client.received?_onRead hnread]
    rfl
  exact hrests _ _ hreads (Option.bind_eq_some_iff.mpr ⟨client, hclient,
    (stepClient_onRead hnread).mpr ⟨⟨hloop, hreading, rfl⟩, List.prefix_rfl, rfl⟩⟩)

end Rests

/-- The client of a connection writes whole frames. -/
theorem Sound.outgoing_client (hsound : network.Sound order) (id : ℕ) :
    Outgoing (.wide order) (network.clientSocket id) (network.clientSocket id) := by
  unfold clientSocket
  cases hclient : network.client id with
  | none => exact .of_idle rfl rfl
  | some client => exact (hsound.clients id client hclient).outgoing

/-- All that was written on an open handle is received when nothing is left of what it emitted. -/
theorem received_eq {start socket : UvTcp} {ear : Ear} {buffer : Bytes}
    (houtgoing : Outgoing (.wide order) start socket) (hopen : socket.closing = false)
    (hflows : Flows socket) (hdelivering : Delivering order socket ear buffer)
    (hnothing : socket.writer.emitted.length - ear.received = 0) :
    ear.received = socket.writer.accepted.flatten.length := by
  have hwithin := hdelivering.within
  rw [← (houtgoing.ordered hflows.announced hopen).whole hflows.queue]
  omega

/-- Reading comes to an end, and then everything has been received between open ends. -/
theorem Calm.settles (hanswers : app.Answers factor) (hhost : app.host = .wide order)
    (hcalm : network.Calm order) {reads : List (Event V H)}
    (hreads : ∀ event ∈ reads, event.Reads) (hreading : Along (step app) FlowsOn reads network)
    {last : Network U V H} (hlast : runFrom (step app) reads network = some last) :
    last.Calm order ∧ reads.length ≤ network.backlog factor ∧
      (Rests app last → ∀ id < last.world.created,
        ((last.world.slot id).core.socket.reading → (last.clientSocket id).closing = false →
          (last.upward id).received = (last.clientSocket id).writer.accepted.flatten.length) ∧
        ∀ client, last.client id = some client → client.core.loopThread →
          client.core.socket.reading → (last.world.slot id).core.socket.closing = false →
          (last.downward id).received =
            (last.world.standing id).writer.accepted.flatten.length) := by
  obtain ⟨hlastCalm, hlength⟩ := Along.lessens_of_mem
    (fun event hmem _ _ hcalm hstep hflowing ↦
      Calm.read hanswers hhost hcalm (hreads event hmem) hstep hflowing) hcalm hreading hlast
  have hsound := hlastCalm.sound
  refine ⟨hlastCalm, (Nat.le_add_right _ _).trans hlength, fun hrests id hid ↦ ⟨?_, ?_⟩⟩
  · intro hreads hopen
    exact received_eq (hsound.outgoing_client id) hopen (hsound.flowing id).1 (hsound.upward id)
      (hrests.unread hanswers hlastCalm hid hreads)
  · intro client hclient hloop hreads hopen
    have hstanding := Server.standing_of_lt hid
    have houtgoing : Outgoing (.wide order) (last.world.standing id) (last.world.standing id) := by
      rw [hstanding]
      exact (hsound.sessions id hid).outgoing
    exact received_eq houtgoing (by rwa [hstanding]) (hsound.flowing id).2 (hsound.downward id)
      (hrests.awaited hclient hloop hreads)

/-- Both ends of a connection are open, and read. -/
structure Alive (network : Network U V H) (id : ℕ) (client : Client.WithBuffer) : Prop where
  created : id < network.world.created
  joined : network.client id = some client
  loopThread : client.core.loopThread
  clientReads : client.core.socket.reading
  clientOpen : client.core.socket.closing = false
  sessionReads : (network.world.slot id).core.socket.reading
  sessionOpen : (network.world.slot id).core.isClosing = false

/-- A relay writes each packet once for each session. -/
theorem relay_answers : relay.Answers fun count ↦ count where
  leaves := {
    connect := fun _ _ ↦ List.forall_mem_nil _
    close := fun _ _ ↦ List.forall_mem_nil _
    packet := fun _ _ _ _ ↦ List.forall_mem_singleton.mpr trivial }
  returns _ _ _ _ := rfl
  within _ _ packet world _ hsessions :=
    (world.output_broadcast_le _ packet _).trans
      (Nat.add_le_add_left (Nat.mul_le_mul_right packet.frameLength hsessions) world.output)

/-- Nothing is left of what was emitted on the few connections there are. -/
theorem Rests.of_few {count : ℕ}
    (hfew : ∀ id < count, network.unread id = 0 ∧ network.awaited id = 0)
    (hothers : ∀ id, network.unread (id + count) = 0 ∧ network.awaited (id + count) = 0) :
    Rests app network := by
  have hidle (id : ℕ) : network.unread id = 0 ∧ network.awaited id = 0 := by
    rcases lt_or_ge id count with hlt | hge
    · exact hfew id hlt
    · obtain ⟨other, rfl⟩ := Nat.exists_eq_add_of_le' hge
      exact hothers other
  exact .of_idle (fun id ↦ (hidle id).1) fun id ↦ (hidle id).2

/-- What two clients hear of a relay ends with three chunks that are read. -/
theorem relayed_reads : ∀ event ∈ relayed.drop 6, event.Reads := by
  simp [relayed, Event.Reads, Server.Event.received?, Client.Event.received?]

/-- The conversation ends with three chunks that are read. -/
theorem conversation_reads : ∀ event ∈ conversation.drop 7, event.Reads := by
  simp [conversation, TestServer.setUp, Event.Reads, Server.Event.received?,
    Client.Event.received?]

end Network

/-- **The network settles.** Let the packet handlers of a server return, leave the tables of the
sessions alone and answer by no more than some factor of what they are called with.  In any state
that a run reaches which flows throughout, no more chunks can be read than the backlog says, unless
the clients say more; and when none can be read, each session and each client that reads has heard
all that was posted at the other end of its connection, if that is open. -/
theorem network_settles {U V H : Type*} (app : Server.Application U V H) (order : ByteOrder)
    (hhost : app.host = .wide order) (factor : ℕ → ℕ) (hanswers : app.Answers factor) (memory : U)
    (events : List (Network.Event V H))
    (hevents : ∀ call, .server (.call call) ∈ events → call.LeavesTables)
    (hflows : Along (Network.step app) Network.FlowsOn events (.initial memory))
    (network : Network U V H)
    (hrun : runFrom (Network.step app) events (.initial memory) = some network)
    (reads : List (Network.Event V H)) (hreads : ∀ event ∈ reads, Network.Event.Reads event)
    (hreading : Along (Network.step app) Network.FlowsOn reads network) (last : Network U V H)
    (hlast : runFrom (Network.step app) reads network = some last) :
    reads.length ≤ network.backlog factor ∧
      (Network.Rests app last → ∀ id < last.world.created,
        ((last.world.slot id).core.socket.reading → (last.clientSocket id).closing = false →
          (last.upMailbox (.wide order) id).Cleared) ∧
        ∀ client, last.client id = some client → client.core.loopThread →
          client.core.socket.reading → (last.world.slot id).core.socket.closing = false →
          (last.downMailbox (.wide order) id).Cleared) := by
  have hcalm : network.Calm order := Network.calm_run hanswers.leaves hhost memory hevents hflows
    hrun
  obtain ⟨hlastCalm, hlength, hreceived⟩ := hcalm.settles hanswers hhost hreads hreading hlast
  refine ⟨hlength, fun hrests id hid ↦ ?_⟩
  obtain ⟨hup, hdown⟩ := hreceived hrests id hid
  exact ⟨fun hreads hopen ↦ ((hlastCalm.sound.upward id).cleared (hup hreads hopen)).1,
    fun client hclient hloop hreads hopen ↦
      ((hlastCalm.sound.downward id).cleared (hdown client hclient hloop hreads hopen)).1⟩

/-- The first of two clients has sent a packet to a relay, and then both hear it. -/
theorem network_settles_relayed :
    ∃ network last, runFrom (Network.step Network.relay) (Network.relayed.take 6)
        (.initial ()) = some network ∧
      runFrom (Network.step Network.relay) (Network.relayed.drop 6) network = some last ∧
      3 ≤ network.backlog (fun count ↦ count) ∧
      (last.downMailbox (.wide .little) 0).Cleared ∧
      (last.downMailbox (.wide .little) 1).Cleared ∧
      (last.downMailbox (.wide .little) 1).fetched = [⟨.text, [104], 0⟩] := by
  obtain ⟨hlength, hsettled⟩ := network_settles Network.relay .little rfl (fun count ↦ count)
    Network.relay_answers () (Network.relayed.take 6)
    (by simp [Network.relayed, Server.Call.LeavesTables])
    (Network.relayed_flows.take 6) _ rfl (Network.relayed.drop 6)
    Network.relayed_reads (Network.relayed_flows.drop rfl) _ rfl
  have hcleared := hsettled (.of_few (by decide : ∀ id < 2, _) fun _ ↦ ⟨rfl, rfl⟩)
  exact ⟨_, _, rfl, rfl, hlength, (hcleared 0 (by decide)).2 _ rfl rfl rfl rfl,
    (hcleared 1 (by decide)).2 _ rfl rfl rfl rfl, by decide⟩

/-- **The conversation ends.** In any state of the server of `server_test.cpp` and its clients that
a run reaches which flows throughout, and if `uv_write` accepts every answer: no more chunks can be
read than the backlog says, unless the clients say more; and when none can be read, each client
whose connection is alive has heard the answers to all text packets that it has posted, in order,
and no other text. -/
theorem test_server_finishes {V : Type*} (order : ByteOrder)
    (write : ℕ → Packet → Server.World Unit V TestServer.Handler → WriteCall)
    (haccepts : TestServer.Accepts write) (events : List (Network.Event V TestServer.Handler))
    (hevents : ∀ call, .server (.call call) ∉ events)
    (hflows : Along (Network.step (TestServer.application (.wide order) write)) Network.FlowsOn
      (Network.ofCalls TestServer.setUp ++ events) (.initial ()))
    (network : Network Unit V TestServer.Handler)
    (hrun : runFrom (Network.step (TestServer.application (.wide order) write))
      (Network.ofCalls TestServer.setUp ++ events) (.initial ()) = some network)
    (reads : List (Network.Event V TestServer.Handler))
    (hreads : ∀ event ∈ reads, Network.Event.Reads event)
    (hreading : Along (Network.step (TestServer.application (.wide order) write)) Network.FlowsOn
      reads network)
    (last : Network Unit V TestServer.Handler)
    (hlast : runFrom (Network.step (TestServer.application (.wide order) write)) reads network =
      some last) :
    reads.length ≤ network.backlog (fun _ ↦ 4) ∧
      (Network.Rests (TestServer.application (.wide order) write) last →
        ∀ id client, last.Alive id client →
          texts (last.downward id).heard =
            (texts (posted (.wide order) client.core.socket)).map TestServer.responsePacket) := by
  have hanswers := TestServer.answers (.wide order) write
  have hsetUp (call : Server.Call V TestServer.Handler)
      (hcall : .server (.call call) ∈ Network.ofCalls TestServer.setUp ++ events) :
      call.LeavesTables := by
    rcases List.mem_append.mp hcall with hset | hevent
    · obtain ⟨set, hset, hsame⟩ := List.mem_map.mp hset
      cases hsame
      revert hset
      simp only [TestServer.setUp, List.mem_cons, List.not_mem_nil, or_false]
      rintro (rfl | rfl | rfl | rfl) <;> exact trivial
    · exact absurd hevent (hevents call)
  have hcalm : network.Calm order := Network.calm_run hanswers.leaves rfl () hsetUp hflows hrun
  obtain ⟨hlastCalm, hlength, hreceived⟩ := hcalm.settles hanswers rfl hreads hreading hlast
  refine ⟨hlength, fun hrests id client halive ↦ ?_⟩
  have hanswered : TestServer.AnswersAll (.wide order) write network.heard network.world :=
    TestServer.answersAll_run order hevents hrun
  have hlastAnswered : TestServer.AnswersAll (.wide order) write last.heard last.world :=
    Network.heard_run TestServer.answersAll_invariant
      (fun happening hmem call hcall ↦ by
        have hread := hreads _ hmem
        rw [hcall] at hread
        cases hread) hanswered hlast
  have hsocket := last.clientSocket_of_some halive.joined
  obtain ⟨hup, hdown⟩ := hreceived hrests id halive.created
  have hclosing := (hlastCalm.sound.sessions id halive.created).closing
  obtain ⟨-, -, hcomplete⟩ := hlastAnswered.converse hlastCalm.sound id
  rw [hsocket] at hup hcomplete
  exact hcomplete haccepts halive.sessionOpen (hup halive.sessionReads halive.clientOpen)
    (hdown client halive.joined halive.loopThread halive.clientReads
      (hclosing.symm.trans halive.sessionOpen))

theorem test_server_finishes_conversation :
    ∃ network last, runFrom (Network.step Network.answering) (Network.conversation.take 7)
        (.initial ()) = some network ∧
      runFrom (Network.step Network.answering) (Network.conversation.drop 7) network =
        some last ∧
      texts (last.downward 0).heard = [TestServer.responsePacket ⟨.text, [104], 0⟩] ∧
      ∃ client, last.client 0 = some client ∧ texts (last.downward 0).heard =
        (texts (posted (.wide .little) client.core.socket)).map TestServer.responsePacket := by
  obtain ⟨-, hfinished⟩ := test_server_finishes .little _ (fun _ _ _ ↦ rfl)
    ((Network.conversation.take 7).drop 4) (by simp [Network.conversation, TestServer.setUp])
    (Network.conversation_flows.take 7) _ rfl (Network.conversation.drop 7)
    Network.conversation_reads (Network.conversation_flows.drop rfl) _ rfl
  have hanswered := hfinished (.of_few (by decide : ∀ id < 1, _) fun _ ↦ ⟨rfl, rfl⟩)
  exact ⟨_, _, rfl, rfl, by decide, _, rfl, hanswered 0 _ ⟨by decide, rfl, rfl, rfl, rfl, rfl, rfl⟩⟩

end LibuvNet
