import LibuvNet.Network.Star
import LibuvNet.Server.TestServer

/-!
# What a network delivers

As long as no write has to wait and every header can tell the length of its frame, each direction
of each connection is a mailbox: the packets `uv_write` accepted at one end are posted, those the
other end takes out of its buffer are fetched, and whatever the server, its clients and their user
code do, in any order, is a number of steps of the mailboxes.  Nothing is lost, doubled, changed,
overtaken or brought to another connection.
-/

namespace LibuvNet

open Foundation

/-- No write waits, and every header tells the length of its frame. -/
structure Flows (socket : UvTcp) : Prop where
  queue : socket.writer.queue = []
  announced : Announced socket

instance (socket : UvTcp) : Decidable (Flows socket) :=
  decidable_of_iff (socket.writer.queue = [] ∧ Announced socket)
    ⟨fun ⟨hqueue, hannounced⟩ ↦ ⟨hqueue, hannounced⟩,
      fun ⟨hqueue, hannounced⟩ ↦ ⟨hqueue, hannounced⟩⟩

/-- A handle that has written nothing flows. -/
theorem Flows.of_idle {socket : UvTcp} (hqueue : socket.writer.queue = [])
    (haccepted : socket.writer.accepted = []) : Flows socket where
  queue := hqueue
  announced := by
    rw [Announced, haccepted]
    exact List.forall_mem_nil _

/-! ## One direction of a connection -/

/-- The frames of a socket are on their way to an ear. -/
def Delivering (order : ByteOrder) (socket : UvTcp) (ear : Ear) (buffer : Bytes) : Prop :=
  ∃ messages, socket.writer.accepted = messages.map (wireCodec order).encode ∧
    (wireCodec order).Conveys messages socket.writer.emitted ear.received ear.heard buffer

namespace Delivering

variable {order : ByteOrder} {socket next : UvTcp} {ear : Ear} {buffer : Bytes}

/-- Nothing was written. -/
theorem start (haccepted : socket.writer.accepted = []) (hemitted : socket.writer.emitted = []) :
    Delivering order socket .silent [] := by
  refine ⟨[], haccepted, ?_⟩
  rw [hemitted]
  exact .start

/-- The sender writes on. -/
theorem send (hdelivering : Delivering order socket ear buffer)
    (houtgoing : Outgoing (.wide order) socket next) (hannounced : Announced next) :
    Delivering order next ear buffer := by
  obtain ⟨messages, hmessages, hconveys⟩ := hdelivering
  obtain ⟨more, hmore⟩ := houtgoing.exists_messages hannounced hmessages
  refine ⟨messages ++ more, hmore, hconveys.send more houtgoing.emitted ?_⟩
  have hfront := houtgoing.front hannounced
  rw [hmore] at hfront
  rwa [FrameCodec.stream, List.flatMap_def]

/-- The receiver reads on. -/
theorem hear (hdelivering : Delivering order socket ear buffer) {chunk : Bytes}
    (harrives : ear.Arrives socket chunk) :
    Delivering order socket (ear.hear (.wide order) buffer chunk)
      ((wireDecoder (.wide order)).kept (buffer ++ chunk)) := by
  obtain ⟨messages, hmessages, hconveys⟩ := hdelivering
  exact ⟨messages, hmessages, hconveys.receive harrives⟩

/-- The frames are those of the packets posted. -/
theorem carries (hdelivering : Delivering order socket ear buffer) :
    Carries (.wide order) socket (posted (.wide order) socket) := by
  obtain ⟨messages, hmessages, -⟩ := hdelivering
  rw [posted_of_messages hmessages]
  exact carries_of_messages hmessages

theorem inOrder (hdelivering : Delivering order socket ear buffer) :
    Mailbox.InOrder ⟨posted (.wide order) socket, ear.heard⟩ := by
  obtain ⟨messages, hmessages, hconveys⟩ := hdelivering
  rw [posted_of_messages hmessages]
  exact hconveys.inOrder

/-- No more is received than was emitted. -/
theorem within (hdelivering : Delivering order socket ear buffer) :
    ear.received ≤ socket.writer.emitted.length := by
  obtain ⟨messages, -, hconveys⟩ := hdelivering
  exact hconveys.within

/-- Once every byte written has been received, every packet has been heard. -/
theorem cleared (hdelivering : Delivering order socket ear buffer)
    (hall : ear.received = socket.writer.accepted.flatten.length) :
    Mailbox.Cleared ⟨posted (.wide order) socket, ear.heard⟩ ∧ buffer = [] := by
  obtain ⟨messages, hmessages, hconveys⟩ := hdelivering
  rw [posted_of_messages hmessages]
  apply hconveys.cleared
  rw [hall, hmessages, FrameCodec.stream, List.flatMap_def]

end Delivering

namespace Network

variable {U V H : Type*} (network : Network U V H)

/-- Both ends of every connection flow. -/
def Flowing : Prop :=
  ∀ id, Flows (network.clientSocket id) ∧ Flows (network.world.standing id)

/-- The mailbox from the client of a connection to its session. -/
def upMailbox (host : Host) (id : ℕ) : Mailbox Packet :=
  ⟨posted host (network.clientSocket id), (network.upward id).heard⟩

/-- The mailbox from the session to its client. -/
def downMailbox (host : Host) (id : ℕ) : Mailbox Packet :=
  ⟨posted host (network.world.standing id), (network.downward id).heard⟩

/-- Every direction of every connection delivers. -/
structure Sound (order : ByteOrder) (network : Network U V H) : Prop where
  flowing : network.Flowing
  clients : ∀ id client, network.client id = some client →
    Client.Sending (.wide order) client.core.socket client.core
  sessions : ∀ id < network.world.created, Session.Sending (.wide order)
    (network.world.slot id).core.socket (network.world.slot id).core
  upward : ∀ id, Delivering order (network.clientSocket id) (network.upward id)
    (network.world.bufferOf id)
  downward : ∀ id, Delivering order (network.world.standing id) (network.downward id)
    (network.clientBuffer id)

namespace Sound

variable {order : ByteOrder} {network}

/-- In the beginning nothing is on its way. -/
theorem initial (order : ByteOrder) (memory : U) :
    Sound order (Network.initial memory : Network U V H) where
  flowing _ := ⟨.of_idle rfl rfl, .of_idle rfl rfl⟩
  clients _ _ hclient := by cases hclient
  sessions _ hid := absurd hid (Nat.not_lt_zero _)
  upward _ := .start rfl rfl
  downward _ := .start rfl rfl

theorem tidy (hsound : Sound order network) : network.world.Tidy (.wide order) where
  sending := hsound.sessions
  queue id hid := by
    have hflows := (hsound.flowing id).2.queue
    rwa [Server.World.standing, if_pos hid] at hflows

end Sound

/-! ## What a step can do -/

variable {order : ByteOrder} {network} {next : Network U V H}

/-- The client of a connection writes on and reads on. -/
structure ClientMoves (order : ByteOrder) (network : Network U V H) (id : ℕ)
    (client : Client.WithBuffer) (ear : Ear) : Prop where
  outgoing : Outgoing (.wide order) (network.clientSocket id) client.core.socket
  sending : Client.Sending (.wide order) client.core.socket client.core
  delivering : Delivering order (network.world.standing id) ear client.buffer
  heard : (network.downward id).heard <+: ear.heard

/-- The sessions of the server write on and read on. -/
structure ServerMoves (order : ByteOrder) (network : Network U V H) (world : Server.World U V H)
    (ears : ℕ → Ear) : Prop where
  outgoing : ∀ id, Outgoing (.wide order) (network.world.standing id) (world.standing id)
  sending : ∀ id < world.created,
    Session.Sending (.wide order) (world.slot id).core.socket (world.slot id).core
  delivering : ∀ id, Delivering order (network.clientSocket id) (ears id) (world.bufferOf id)
  heard : ∀ id, (network.upward id).heard <+: (ears id).heard

/-- The network in which a client has moved. -/
def withClient (network : Network U V H) (id : ℕ) (client : Client.WithBuffer) (ear : Ear) :
    Network U V H :=
  { network.setClient id client with downward := Function.update network.downward id ear }

theorem withClient_same (network : Network U V H) (id : ℕ) (client : Client.WithBuffer) :
    network.withClient id client (network.downward id) = network.setClient id client := by
  unfold withClient
  rw [Function.update_eq_self]
  rfl

/-- A client joins: it has written nothing and received nothing yet. -/
theorem join_moves (hsound : Sound order network) {id : ℕ} {client : Client.WithBuffer}
    (hnone : network.client id = none) (hjoining : client.Joining) :
    ClientMoves order network id client (network.downward id) := by
  have hself : Outgoing (.wide order) client.core.socket client.core.socket :=
    .of_idle hjoining.emitted hjoining.accepted
  constructor
  · unfold clientSocket
    rw [hnone]
    exact ⟨List.nil_prefix, List.nil_prefix, hself.framed, hself.front, hself.ordered⟩
  · exact ⟨hself, fun _ ↦ hjoining.closing⟩
  · have hbefore := hsound.downward id
    unfold clientBuffer at hbefore
    rw [hnone] at hbefore
    rw [hjoining.buffer]
    exact hbefore
  · exact List.prefix_rfl

theorem stepClient_moves (hsound : Sound order network) {id : ℕ} {event : Client.Event}
    {client : Client.WithBuffer} (hclient : network.client id = some client)
    (hstep : network.stepClient (.wide order) id event client = some next) :
    ∃ moved ear, next = network.withClient id moved ear ∧
      ClientMoves order network id moved ear := by
  have hsocket := network.clientSocket_of_some hclient
  have hbuffer := network.clientBuffer_of_some hclient
  have hqueue := (hsound.flowing id).1.queue
  have hdelivering := hsound.downward id
  rw [hsocket] at hqueue
  rw [hbuffer] at hdelivering
  unfold Network.stepClient at hstep
  split at hstep
  · cases hstep
  rename_i hrestarts
  have hsending {core : Client.Core Unit}
      (hcore : Client.Core.step (.wide order) client.core event = some core) :
      Client.Sending (.wide order) client.core.socket core := by
    obtain ⟨hdue, rfl⟩ := Client.Core.step_eq_some.mp hcore
    exact (hsound.clients id client hclient).effect hdue hrestarts hqueue
  split at hstep
  · obtain ⟨core, hcore, rfl⟩ := Option.map_eq_some_iff.mp hstep
    refine ⟨⟨core, client.buffer⟩, network.downward id, (network.withClient_same id _).symm, ?_⟩
    exact ⟨hsocket ▸ (hsending hcore).outgoing,
      ⟨(hsending hcore).outgoing.here, (hsending hcore).isOpen⟩, hdelivering, List.prefix_rfl⟩
  · split at hstep
    · rename_i chunk _ harrives
      obtain ⟨core, hcore, rfl⟩ := Option.map_eq_some_iff.mp hstep
      refine ⟨_, (network.downward id).hear (.wide order) client.buffer chunk, rfl, ?_⟩
      exact ⟨hsocket ▸ (hsending hcore).outgoing,
        ⟨(hsending hcore).outgoing.here, (hsending hcore).isOpen⟩, hdelivering.hear harrives,
        List.prefix_append _ _⟩
    · cases hstep

theorem stepServer_moves (hsound : Sound order network) {app : Server.Application U V H}
    (hhost : app.host = .wide order) {event : Server.Event V H}
    (hstep : network.stepServer app event = some next) :
    ∃ world ears, next = { network with world := world, upward := ears } ∧
      ServerMoves order network world ears := by
  have hmoves {world : Server.World U V H} {ears : ℕ → Ear}
      (hworld : Server.step app network.world event = some world)
      (hdelivering : ∀ id,
        Delivering order (network.clientSocket id) (ears id) (world.bufferOf id))
      (hheard : ∀ id, (network.upward id).heard <+: (ears id).heard) :
      ServerMoves order network world ears := by
    have htidy : network.world.Tidy app.host := hhost ▸ hsound.tidy
    constructor
    · exact fun id ↦ hhost ▸ Server.standing_step htidy hworld id
    · intro id hid
      have hsending := Server.sending_step htidy hworld id hid
      rw [hhost] at hsending
      exact ⟨hsending.outgoing.here, hsending.closing⟩
    · exact hdelivering
    · exact hheard
  unfold Network.stepServer at hstep
  split at hstep
  · rename_i hnone
    obtain ⟨world, hworld, rfl⟩ := Option.map_eq_some_iff.mp hstep
    refine ⟨world, network.upward, rfl, hmoves hworld (fun id ↦ ?_) fun _ ↦ List.prefix_rfl⟩
    rw [Server.bufferOf_step hworld, hnone]
    exact hsound.upward id
  · rename_i session chunk hreceived
    split at hstep
    · rename_i harrives
      obtain ⟨world, hworld, rfl⟩ := Option.map_eq_some_iff.mp hstep
      refine ⟨world, _, rfl, hmoves hworld (fun id ↦ ?_) fun id ↦ ?_⟩
      · simp only [Server.bufferOf_step hworld, hreceived]
        by_cases heq : id = session
        · subst heq
          rw [Function.update_self, if_pos rfl, hhost]
          exact (hsound.upward id).hear harrives
        · rw [Function.update_of_ne heq, if_neg heq]
          exact hsound.upward id
      · by_cases heq : id = session
        · subst heq
          rw [Function.update_self]
          exact List.prefix_append _ _
        · have hsame := congrArg Ear.heard (Function.update_of_ne heq
            ((network.upward session).hear app.host (network.world.bufferOf session) chunk)
            network.upward)
          exact hsame.symm ▸ List.prefix_rfl
    · cases hstep

/-- One client writes and reads on, or the server. -/
def Moves (order : ByteOrder) (network next : Network U V H) : Prop :=
  (∃ id client ear, next = network.withClient id client ear ∧
    ClientMoves order network id client ear) ∨
  ∃ world ears, next = { network with world := world, upward := ears } ∧
    ServerMoves order network world ears

/-- A step moves one client, or the server. -/
theorem step_moves (hsound : Sound order network) {app : Server.Application U V H}
    (hhost : app.host = .wide order) {event : Event V H}
    (hstep : step app network event = some next) : Moves order network next := by
  cases event with
  | join id client =>
    simp only [step] at hstep
    split at hstep
    · rename_i hjoins
      cases hstep
      exact .inl ⟨id, client, _, (network.withClient_same id client).symm,
        join_moves hsound hjoins.1 hjoins.2⟩
    · cases hstep
  | client id event =>
    obtain ⟨client, hclient, hstep⟩ := Option.bind_eq_some_iff.mp hstep
    rw [hhost] at hstep
    obtain ⟨moved, ear, hnext, hmoves⟩ := stepClient_moves hsound hclient hstep
    exact .inl ⟨id, moved, ear, hnext, hmoves⟩
  | server event => exact .inr (stepServer_moves hsound hhost hstep)

/-! ## What a step keeps, and what it does to the mailboxes -/

/-- What is said of the client's end of every connection is said of the one that moved. -/
theorem forall_withClient (Holds : ℕ → UvTcp → Bytes → Ear → Prop) {id : ℕ}
    {client : Client.WithBuffer} {ear : Ear}
    (hothers : ∀ other, Holds other (network.clientSocket other) (network.clientBuffer other)
      (network.downward other))
    (hclient : Holds id client.core.socket client.buffer ear) (other : ℕ) :
    Holds other ((network.withClient id client ear).clientSocket other)
      ((network.withClient id client ear).clientBuffer other)
      ((network.withClient id client ear).downward other) := by
  change Holds other ((network.setClient id client).clientSocket other)
    ((network.setClient id client).clientBuffer other)
    (Function.update network.downward id ear other)
  by_cases heq : other = id
  · subst heq
    rwa [clientSocket_setClient, clientBuffer_setClient, Function.update_self]
  · rw [clientSocket, clientBuffer, network.client_setClient_of_ne heq, Function.update_of_ne heq]
    exact hothers other

theorem Sound.withClient (hsound : Sound order network) {id : ℕ} {client : Client.WithBuffer}
    {ear : Ear} (hmoves : ClientMoves order network id client ear)
    (hflowing : (network.withClient id client ear).Flowing) :
    Sound order (network.withClient id client ear) where
  flowing := hflowing
  clients other found hfound := by
    change (network.setClient id client).client other = some found at hfound
    by_cases heq : other = id
    · subst heq
      obtain rfl := Option.some.inj ((network.client_setClient other client).symm.trans hfound)
      exact hmoves.sending
    · exact hsound.clients other found
        ((network.client_setClient_of_ne heq client).symm.trans hfound)
  sessions := hsound.sessions
  upward other := by
    have hupward : Announced ((network.withClient id client ear).clientSocket other) →
        Delivering order ((network.withClient id client ear).clientSocket other)
          (network.upward other) (network.world.bufferOf other) :=
      forall_withClient (fun other socket _ _ ↦ Announced socket →
          Delivering order socket (network.upward other) (network.world.bufferOf other))
        (fun other _ ↦ hsound.upward other)
        (fun hannounced ↦ (hsound.upward id).send hmoves.outgoing hannounced) other
    exact hupward (hflowing other).1.announced
  downward := forall_withClient
    (fun other _ buffer ear ↦ Delivering order (network.world.standing other) ear buffer)
    hsound.downward hmoves.delivering

theorem Sound.withWorld (hsound : Sound order network) {world : Server.World U V H}
    {ears : ℕ → Ear} (hmoves : ServerMoves order network world ears)
    (hflowing : ({ network with world := world, upward := ears } : Network U V H).Flowing) :
    Sound order { network with world := world, upward := ears } where
  flowing := hflowing
  clients := hsound.clients
  sessions := hmoves.sending
  upward := hmoves.delivering
  downward id := (hsound.downward id).send (hmoves.outgoing id) (hflowing id).2.announced

theorem Sound.upMailbox_inOrder (hsound : Sound order network) (id : ℕ) :
    (network.upMailbox (.wide order) id).InOrder :=
  (hsound.upward id).inOrder

theorem Sound.downMailbox_inOrder (hsound : Sound order network) (id : ℕ) :
    (network.downMailbox (.wide order) id).InOrder :=
  (hsound.downward id).inOrder

/-- Both mailboxes of every connection have gone some steps. -/
structure Advances (host : Host) (network next : Network U V H) : Prop where
  upward : ∀ id, (network.upMailbox host id).Reaches (next.upMailbox host id)
  downward : ∀ id, (network.downMailbox host id).Reaches (next.downMailbox host id)

namespace Advances

theorem refl (host : Host) (network : Network U V H) : Advances host network network :=
  ⟨fun _ ↦ .refl _, fun _ ↦ .refl _⟩

theorem trans {host : Host} {last : Network U V H} (hfirst : Advances host network next)
    (hsecond : Advances host next last) : Advances host network last :=
  ⟨fun id ↦ (hfirst.upward id).trans (hsecond.upward id),
    fun id ↦ (hfirst.downward id).trans (hsecond.downward id)⟩

/-- It is enough that more was posted and more was heard. -/
theorem of_sound (hsound : Sound order network) (hnext : Sound order next)
    (hupward : ∀ id, posted (.wide order) (network.clientSocket id) <+:
        posted (.wide order) (next.clientSocket id) ∧
      (network.upward id).heard <+: (next.upward id).heard)
    (hdownward : ∀ id, posted (.wide order) (network.world.standing id) <+:
        posted (.wide order) (next.world.standing id) ∧
      (network.downward id).heard <+: (next.downward id).heard) :
    Advances (.wide order) network next where
  upward id := (Mailbox.reaches_iff (hsound.upMailbox_inOrder id)).mpr
    ⟨(hupward id).1, (hupward id).2, hnext.upMailbox_inOrder id⟩
  downward id := (Mailbox.reaches_iff (hsound.downMailbox_inOrder id)).mpr
    ⟨(hdownward id).1, (hdownward id).2, hnext.downMailbox_inOrder id⟩

end Advances

/-- A network that goes on flowing stays sound and advances. -/
theorem Sound.moves (hsound : Sound order network) (hmoves : Moves order network next)
    (hflowing : next.Flowing) : Sound order next ∧ Advances (.wide order) network next := by
  rcases hmoves with ⟨id, client, ear, rfl, hmoves⟩ | ⟨world, ears, rfl, hmoves⟩
  · have hnext := hsound.withClient hmoves hflowing
    refine ⟨hnext, .of_sound hsound hnext (fun other ↦ ⟨?_, List.prefix_rfl⟩)
      fun other ↦ ⟨List.prefix_rfl, ?_⟩⟩
    · exact forall_withClient
        (fun other socket _ _ ↦ posted (.wide order) (network.clientSocket other) <+:
          posted (.wide order) socket)
        (fun _ ↦ List.prefix_rfl) (posted_isPrefix hmoves.outgoing.accepted) other
    · exact forall_withClient (fun other _ _ ear ↦ (network.downward other).heard <+: ear.heard)
        (fun _ ↦ List.prefix_rfl) hmoves.heard other
  · have hnext := hsound.withWorld hmoves hflowing
    exact ⟨hnext, .of_sound hsound hnext (fun id ↦ ⟨List.prefix_rfl, hmoves.heard id⟩)
      fun id ↦ ⟨posted_isPrefix (hmoves.outgoing id).accepted, List.prefix_rfl⟩⟩

theorem Sound.step (hsound : Sound order network) {app : Server.Application U V H}
    (hhost : app.host = .wide order) {event : Event V H}
    (hstep : Network.step app network event = some next) (hflowing : next.Flowing) :
    Sound order next ∧ Advances (.wide order) network next :=
  hsound.moves (step_moves hsound hhost hstep) hflowing

/-- The network flows after the step. -/
def FlowsOn (_ : Network U V H) (_ : Event V H) (next : Network U V H) : Prop :=
  next.Flowing

theorem Sound.run {app : Server.Application U V H} (hhost : app.host = .wide order)
    {events : List (Event V H)} (hsound : Sound order network)
    (halong : Along (Network.step app) FlowsOn events network)
    (hrun : runFrom (Network.step app) events network = some next) :
    Sound order next ∧ Advances (.wide order) network next := by
  have hstep {middle after : Network U V H} {event : Event V H}
      (hmiddle : Sound order middle ∧ Advances (.wide order) network middle)
      (hstep : Network.step app middle event = some after) (hflows : FlowsOn middle event after) :
      Sound order after ∧ Advances (.wide order) network after := by
    obtain ⟨hafter, hadvances⟩ := hmiddle.1.step hhost hstep hflows
    exact ⟨hafter, hmiddle.2.trans hadvances⟩
  exact halong.invariant hstep ⟨hsound, .refl _ network⟩ hrun

end Network

namespace Network

/-! ## A conversation -/

/-- Only few clients have joined, and only their connections were accepted. -/
theorem Flowing.of_few {U V H : Type*} {network : Network U V H} {count : ℕ}
    (hcreated : network.world.created ≤ count) (hclient : ∀ id, network.client (id + count) = none)
    (hflows : ∀ id < count,
      Flows (network.clientSocket id) ∧ Flows (network.world.standing id)) :
    network.Flowing := by
  intro id
  by_cases hid : id < count
  · exact hflows id hid
  · obtain ⟨more, rfl⟩ := Nat.exists_eq_add_of_le' (Nat.le_of_not_lt hid)
    rw [clientSocket, hclient, Server.World.standing, if_neg (by omega)]
    exact ⟨.of_idle rfl rfl, .of_idle rfl rfl⟩

/-- Only one client has joined. -/
theorem Flowing.of_one {U V H : Type*} {network : Network U V H}
    (hcreated : network.world.created ≤ 1) (hclient : ∀ id, network.client (id + 1) = none)
    (hflows : Flows (network.clientSocket 0) ∧ Flows (network.world.standing 0)) :
    network.Flowing :=
  .of_few hcreated hclient fun _ hid ↦ Nat.lt_one_iff.mp hid ▸ hflows

/-- The server of `server_test.cpp`, whose answers the transport takes whole. -/
def answering : Server.Application Unit Unit TestServer.Handler :=
  TestServer.application (.wide .little) fun _ packet _ ↦
    ⟨0, ⟨0, 0⟩, 0, sizeofPacketHeader + (TestServer.responsePacket packet).data.length⟩

/-- The server sets its handlers, a client joins and sends a text packet, which the server reads in
two chunks, and the client reads the answer. -/
def conversation : List (Event Unit TestServer.Handler) :=
  TestServer.setUp.map (fun call ↦ .server (.call call)) ++
    [.server (.onConnection 0 0), .join 0 ⟨.arrived (), []⟩,
      .client 0 (.call (.send ⟨.text, [104], 0⟩ ⟨0, ⟨0, 0⟩, 0, 13⟩)),
      .server (.onRead 0 5 (Server.textFrame.take 5)),
      .server (.onRead 0 8 (Server.textFrame.drop 5)),
      .client 0 (.onRead 40 ((TestServer.responsePacket ⟨.text, [104], 0⟩).serialize
        (.wide .little) ⟨0, 0⟩))]

theorem conversation_flows :
    Along (step answering) FlowsOn conversation (.initial ()) := by
  refine ⟨_, rfl, .of_one (by decide) (fun _ ↦ rfl) (by decide), ?_⟩
  refine ⟨_, rfl, .of_one (by decide) (fun _ ↦ rfl) (by decide), ?_⟩
  refine ⟨_, rfl, .of_one (by decide) (fun _ ↦ rfl) (by decide), ?_⟩
  refine ⟨_, rfl, .of_one (by decide) (fun _ ↦ rfl) (by decide), ?_⟩
  refine ⟨_, rfl, .of_one (by decide) (fun _ ↦ rfl) (by decide), ?_⟩
  refine ⟨_, rfl, .of_one (by decide) (fun _ ↦ rfl) (by decide), ?_⟩
  refine ⟨_, rfl, .of_one (by decide) (fun _ ↦ rfl) (by decide), ?_⟩
  refine ⟨_, rfl, .of_one (by decide) (fun _ ↦ rfl) (by decide), ?_⟩
  refine ⟨_, rfl, .of_one (by decide) (fun _ ↦ rfl) (by decide), ?_⟩
  exact ⟨_, rfl, .of_one (by decide) (fun _ ↦ rfl) (by decide), trivial⟩

end Network

/-- **Refinement.** In a run that flows throughout, whatever the application, its clients and the
transports do, every step of the network is a number of steps of the two mailboxes of each
connection. -/
theorem network_refines_mailboxes {U V H : Type*} (app : Server.Application U V H)
    (order : ByteOrder) (hhost : app.host = .wide order) (memory : U)
    (events : List (Network.Event V H))
    (hflows : Along (Network.step app) Network.FlowsOn events (.initial memory)) :
    Along (Network.step app) (fun before _ after ↦ Network.Advances (.wide order) before after)
      events (.initial memory) :=
  hflows.imp (fun hsound hstep hflowing ↦ hsound.step hhost hstep hflowing)
    (Network.Sound.initial order memory)

theorem network_refines_mailboxes_conversation :
    Along (Network.step Network.answering)
      (fun before _ after ↦ Network.Advances (.wide .little) before after)
      Network.conversation (.initial ()) :=
  network_refines_mailboxes Network.answering .little rfl () _ Network.conversation_flows

/-- **Delivery.** In every state of such a run and on every connection, the frames that `uv_write`
accepted at one end are those of the packets posted there, and the packets taken out of the buffer
at the other end are the first of these, in order; they are all of them, and the buffer is empty,
as soon as every byte has been received.  So it is in both directions. -/
theorem network_delivers {U V H : Type*} (app : Server.Application U V H) (order : ByteOrder)
    (hhost : app.host = .wide order) (memory : U) (events : List (Network.Event V H))
    (hflows : Along (Network.step app) Network.FlowsOn events (.initial memory))
    (network : Network U V H)
    (hrun : runFrom (Network.step app) events (.initial memory) = some network) (id : ℕ) :
    (Carries (.wide order) (network.clientSocket id) (network.upMailbox (.wide order) id).posted ∧
        (network.upMailbox (.wide order) id).InOrder ∧
        ((network.upward id).received =
            (network.clientSocket id).writer.accepted.flatten.length →
          (network.upMailbox (.wide order) id).Cleared ∧ network.world.bufferOf id = [])) ∧
      Carries (.wide order) (network.world.standing id)
          (network.downMailbox (.wide order) id).posted ∧
        (network.downMailbox (.wide order) id).InOrder ∧
        ((network.downward id).received =
            (network.world.standing id).writer.accepted.flatten.length →
          (network.downMailbox (.wide order) id).Cleared ∧ network.clientBuffer id = []) := by
  obtain ⟨hsound, -⟩ := (Network.Sound.initial order memory).run hhost hflows hrun
  exact ⟨⟨(hsound.upward id).carries, hsound.upMailbox_inOrder id, (hsound.upward id).cleared⟩,
    (hsound.downward id).carries, hsound.downMailbox_inOrder id, (hsound.downward id).cleared⟩

theorem network_delivers_conversation :
    ∃ network, runFrom (Network.step Network.answering) Network.conversation (.initial ()) =
        some network ∧
      (network.downMailbox (.wide .little) 0).InOrder := by
  obtain ⟨network, hrun⟩ := Network.conversation_flows.exists_last
  exact ⟨network, hrun, (network_delivers Network.answering .little rfl () _
    Network.conversation_flows network hrun 0).2.2.1⟩

end LibuvNet
