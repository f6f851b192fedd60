import LibuvNet.Client.TestClient
import LibuvNet.Network.Answering

/-!
# A server and client programs

In a network the calls that the handlers of a client make are events.  Here every client runs an
application: a step is a whole event with the handlers in it, and the packets of a chunk are handled
one after the other.  Seen without what the programs remember and what they were called with, each
such step moves one client of a network, or the server; so what is delivered in a network is
delivered to programs, and the handlers at either end are called with nothing else.
-/

namespace LibuvNet

open Foundation

/-- A server, the client program of each connection, and both directions of it. -/
structure Fleet (U V H W K : Type*) where
  world : Server.World U V H
  client : ℕ → Option (Receiver (Client.Core W) K)
  upward : ℕ → Ear
  downward : ℕ → Ear

namespace Fleet

variable {U V H W X K : Type*}

/-- The client with its buffer, without what its program remembers and has seen. -/
def bare (client : Receiver (Client.Core W) K) : Client.WithBuffer :=
  ⟨client.state.forget, client.buffer⟩

/-- The network the programs run in. -/
def network (fleet : Fleet U V H W K) : Network U V H where
  world := fleet.world
  client id := (fleet.client id).map bare
  upward := fleet.upward
  downward := fleet.downward

/-- A program joins, something happens to it, or to the server. -/
inductive Event (V H W : Type*) where
  | join (id : ℕ) (core : Client.Core W)
  | client (id : ℕ) (event : Client.Event)
  | server (event : Server.Event V H)

/-- A server that has accepted no connection, and no client. -/
def initial (memory : U) : Fleet U V H W K where
  world := .initial memory
  client _ := none
  upward _ := .silent
  downward _ := .silent

variable (fleet : Fleet U V H W K)

def setClient (id : ℕ) (client : Receiver (Client.Core W) K) : Fleet U V H W K :=
  { fleet with client := Function.update fleet.client id (some client) }

/-- A program whose socket belongs to the connection takes a step. -/
def stepClient (app : Client.Application W X K) (id : ℕ) (event : Client.Event)
    (client : Receiver (Client.Core W) K) : Option (Fleet U V H W K) :=
  if event.Restarts client.state then none
  else
    match event.received? with
    | none => (Client.step app client event).map (fleet.setClient id)
    | some chunk =>
      if (fleet.downward id).Arrives (fleet.world.standing id) chunk then
        (Client.step app client event).map fun next ↦
          { fleet.setClient id next with
            downward := Function.update fleet.downward id
              ((fleet.downward id).hear app.host client.buffer chunk) }
      else none

/-- One step of a fleet.  A client that joins has seen nothing on this connection. -/
def step (app : Server.Application U V H) (apps : ℕ → Client.Application W X K)
    (fleet : Fleet U V H W K) : Event V H W → Option (Fleet U V H W K)
  | .join id core =>
    if (fleet.client id).isNone ∧ (bare (.start core : Receiver (Client.Core W) K)).Joining then
      some (fleet.setClient id (.start core))
    else none
  | .client id event => (fleet.client id).bind (fleet.stepClient (apps id) id event)
  | .server event => (fleet.network.stepServer app event).map fun network ↦
      { fleet with world := network.world, upward := network.upward }

/-- The network flows after the step. -/
def FlowsOn (_ : Fleet U V H W K) (_ : Event V H W) (next : Fleet U V H W K) : Prop :=
  next.network.Flowing

/-- The packet handlers of every client were called for what it has heard, packet by packet; where
no client has joined nothing was heard. -/
structure Heeds (apps : ℕ → Client.Application W X K) (fleet : Fleet U V H W K) : Prop where
  handled : ∀ id client, fleet.client id = some client →
    Obs.invocations client.trace = (apps id).invocations (fleet.downward id).heard
  silent : ∀ id, fleet.client id = none → (fleet.downward id).heard = []

variable {fleet} {next : Fleet U V H W K} {apps : ℕ → Client.Application W X K}
  {app : Server.Application U V H} {order : ByteOrder}

/-! ## What a step can do -/

theorem network_client {id : ℕ} {client : Receiver (Client.Core W) K}
    (hclient : fleet.client id = some client) : fleet.network.client id = some (bare client) := by
  change (fleet.client id).map bare = some (bare client)
  rw [hclient, Option.map_some]

theorem network_setClient (id : ℕ) (client : Receiver (Client.Core W) K) :
    (fleet.setClient id client).network = fleet.network.setClient id (bare client) := by
  have hclient : (fleet.setClient id client).network.client =
      Function.update fleet.network.client id (some (bare client)) := by
    funext other
    change (Function.update fleet.client id (some client) other).map bare = _
    by_cases heq : other = id
    · subst heq
      rw [Function.update_self, Function.update_self, Option.map_some]
    · rw [Function.update_of_ne heq, Function.update_of_ne heq]
      rfl
  rw [Network.setClient, ← hclient]
  rfl

/-- What the client of a connection has become, and what has been heard at its end. -/
theorem network_withClient (id : ℕ) (client : Receiver (Client.Core W) K) (ear : Ear) :
    ({ fleet.setClient id client with
        downward := Function.update fleet.downward id ear } : Fleet U V H W K).network =
      fleet.network.withClient id (bare client) ear := by
  rw [Network.withClient, ← network_setClient]
  rfl

/-- A program takes a step: the handlers are called for what it hears, and what is written and
heard goes on. -/
theorem stepClient_cases {id : ℕ} {event : Client.Event} {client : Receiver (Client.Core W) K}
    (hstep : fleet.stepClient (apps id) id event client = some next) :
    ¬ event.Restarts client.state ∧ ∃ after ear,
      Client.step (apps id) client event = some after ∧
      next = { fleet.setClient id after with
        downward := Function.update fleet.downward id ear } ∧
      (after.buffer = client.buffer ∧ ear = fleet.downward id ∧
          Obs.invocations after.trace = Obs.invocations client.trace ∨
        ∃ chunk, (fleet.downward id).Arrives (fleet.world.standing id) chunk ∧
          after.buffer = (wireDecoder (apps id).host).kept (client.buffer ++ chunk) ∧
          ear = (fleet.downward id).hear (apps id).host client.buffer chunk ∧
          Obs.invocations after.trace = Obs.invocations client.trace ++ (apps id).invocations
            ((wireDecoder (apps id).host).parse (client.buffer ++ chunk)).values) := by
  unfold stepClient at hstep
  split at hstep
  · cases hstep
  rename_i hrestarts
  refine ⟨hrestarts, ?_⟩
  cases hreceived : event.received? with
  | none =>
    rw [hreceived] at hstep
    obtain ⟨after, hafter, rfl⟩ := Option.map_eq_some_iff.mp hstep
    obtain ⟨hbuffer, htrace⟩ := Client.step_of_received?_none hreceived hafter
    refine ⟨after, fleet.downward id, hafter, ?_, .inl ⟨hbuffer, rfl, htrace⟩⟩
    rw [Function.update_eq_self]
    rfl
  | some chunk =>
    rw [hreceived] at hstep
    simp only at hstep
    split at hstep
    · rename_i harrives
      obtain ⟨after, hafter, rfl⟩ := Option.map_eq_some_iff.mp hstep
      obtain ⟨hbuffer, htrace⟩ := Client.step_of_received?_some hreceived hafter
      exact ⟨after, _, hafter, rfl, .inr ⟨chunk, harrives, hbuffer, rfl, htrace⟩⟩
    · cases hstep

/-- A program writes on and reads on like a client of the network. -/
theorem stepClient_moves (hsound : fleet.network.Sound order) {id : ℕ}
    (hhost : (apps id).host = .wide order) (hstays : (apps id).Stays) {event : Client.Event}
    {client : Receiver (Client.Core W) K} (hclient : fleet.client id = some client)
    (hstep : fleet.stepClient (apps id) id event client = some next) :
    fleet.network.Moves order next.network := by
  have hbare := network_client hclient
  have hsocket : fleet.network.clientSocket id = client.state.socket :=
    Network.clientSocket_of_some _ hbare
  have hbuffer : fleet.network.clientBuffer id = client.buffer :=
    Network.clientBuffer_of_some _ hbare
  have hqueue := (hsound.flowing id).1.queue
  have hdelivering := hsound.downward id
  have hstart := hsound.clients id (bare client) hbare
  rw [hsocket] at hqueue
  rw [hbuffer] at hdelivering
  obtain ⟨hrestarts, after, ear, hafter, rfl, heard⟩ := stepClient_cases hstep
  have hbegin : Client.Sending (apps id).host client.state.socket client.state := by
    rw [hhost]
    exact ⟨hstart.outgoing, hstart.isOpen⟩
  have hsending := hbegin.step hstays hrestarts hqueue hafter
  rw [hhost] at hsending
  refine .inl ⟨id, bare after, ear, network_withClient id after ear, ?_⟩
  refine ⟨hsocket ▸ hsending.outgoing, ⟨hsending.outgoing.here, hsending.isOpen⟩, ?_, ?_⟩
  · change Delivering order (fleet.world.standing id) ear after.buffer
    rcases heard with ⟨hsame, rfl, -⟩ | ⟨chunk, harrives, hkept, rfl, -⟩
    · rw [hsame]
      exact hdelivering
    · rw [hkept, hhost]
      exact hdelivering.hear harrives
  · rcases heard with ⟨-, rfl, -⟩ | ⟨chunk, -, -, rfl, -⟩
    · exact List.prefix_rfl
    · exact List.prefix_append _ _

/-- **Simulation.** A step of a fleet moves one client of the network, or the server. -/
theorem step_moves (hsound : fleet.network.Sound order) (hhost : app.host = .wide order)
    (hhosts : ∀ id, (apps id).host = .wide order) (hstays : ∀ id, (apps id).Stays)
    {event : Event V H W} (hstep : step app apps fleet event = some next) :
    fleet.network.Moves order next.network := by
  cases event with
  | join id core =>
    simp only [step] at hstep
    split at hstep
    · rename_i hjoins
      cases hstep
      have hnone : fleet.network.client id = none := by
        change (fleet.client id).map bare = none
        rw [Option.isNone_iff_eq_none.mp hjoins.1, Option.map_none]
      refine .inl ⟨id, _, fleet.downward id, ?_, Network.join_moves hsound hnone hjoins.2⟩
      rw [network_setClient]
      exact (fleet.network.withClient_same id _).symm
    · cases hstep
  | client id event =>
    obtain ⟨client, hclient, hstep⟩ := Option.bind_eq_some_iff.mp hstep
    exact stepClient_moves hsound (hhosts id) (hstays id) hclient hstep
  | server event =>
    obtain ⟨network, hnetwork, rfl⟩ := Option.map_eq_some_iff.mp hstep
    obtain ⟨world, ears, rfl, hmoves⟩ := Network.stepServer_moves hsound hhost hnetwork
    exact .inr ⟨world, ears, rfl, hmoves⟩

/-! ## What the handlers see -/

namespace Heeds

theorem initial (apps : ℕ → Client.Application W X K) (memory : U) :
    Heeds apps (Fleet.initial memory : Fleet U V H W K) where
  handled _ _ hclient := by cases hclient
  silent _ _ := rfl

/-- One client has gone on. -/
theorem withClient (hheeds : Heeds apps fleet) {id : ℕ} {client : Receiver (Client.Core W) K}
    {ear : Ear} (hclient : Obs.invocations client.trace = (apps id).invocations ear.heard) :
    Heeds apps { fleet.setClient id client with
      downward := Function.update fleet.downward id ear } where
  handled other found hfound := by
    change Function.update fleet.client id (some client) other = some found at hfound
    change _ = (apps other).invocations (Function.update fleet.downward id ear other).heard
    by_cases heq : other = id
    · subst heq
      rw [Function.update_self] at hfound
      rw [Function.update_self, ← Option.some.inj hfound]
      exact hclient
    · rw [Function.update_of_ne heq] at hfound
      rw [Function.update_of_ne heq]
      exact hheeds.handled other found hfound
  silent other hnone := by
    change Function.update fleet.client id (some client) other = none at hnone
    change (Function.update fleet.downward id ear other).heard = []
    by_cases heq : other = id
    · subst heq
      rw [Function.update_self] at hnone
      cases hnone
    · rw [Function.update_of_ne heq] at hnone
      rw [Function.update_of_ne heq]
      exact hheeds.silent other hnone

/-- The handlers of every client go on being called for what is heard. -/
theorem step (hheeds : Heeds apps fleet) {event : Event V H W}
    (hstep : Fleet.step app apps fleet event = some next) : Heeds apps next := by
  cases event with
  | join id core =>
    simp only [Fleet.step] at hstep
    split at hstep
    · rename_i hjoins
      cases hstep
      have hsilent := hheeds.silent id (Option.isNone_iff_eq_none.mp hjoins.1)
      have hnew : Obs.invocations (.start core : Receiver (Client.Core W) K).trace =
          (apps id).invocations (fleet.downward id).heard := by
        rw [hsilent]
        rfl
      have hjoined := hheeds.withClient hnew
      rwa [Function.update_eq_self] at hjoined
    · cases hstep
  | client id event =>
    obtain ⟨client, hclient, hstep⟩ := Option.bind_eq_some_iff.mp hstep
    obtain ⟨-, after, ear, -, rfl, hcase⟩ := stepClient_cases hstep
    apply hheeds.withClient
    rcases hcase with ⟨-, rfl, htrace⟩ | ⟨chunk, -, -, rfl, htrace⟩
    · rw [htrace]
      exact hheeds.handled id client hclient
    · rw [htrace, hheeds.handled id client hclient]
      exact ((apps id).invocations_append _ _).symm
  | server event =>
    obtain ⟨network, -, rfl⟩ := Option.map_eq_some_iff.mp hstep
    exact ⟨hheeds.handled, hheeds.silent⟩

end Heeds

/-- An invariant about what the sessions have heard is kept by every step of a fleet. -/
theorem heard_step {Admits : Server.Event V H → Prop}
    {Holds : (ℕ → List Packet) → Server.World U V H → Prop}
    (hinvariant : Server.HeardInvariant app Admits Holds) {event : Event V H W}
    (hadmits : ∀ happening, event = .server happening → Admits happening)
    (hholds : Holds fleet.network.heard fleet.world)
    (hstep : step app apps fleet event = some next) : Holds next.network.heard next.world := by
  cases event with
  | join id core =>
    simp only [step] at hstep
    split at hstep
    · cases hstep
      exact hholds
    · cases hstep
  | client id event =>
    obtain ⟨client, -, hstep⟩ := Option.bind_eq_some_iff.mp hstep
    obtain ⟨-, after, ear, -, rfl, -⟩ := stepClient_cases hstep
    exact hholds
  | server event =>
    obtain ⟨network, hnetwork, rfl⟩ := Option.map_eq_some_iff.mp hstep
    obtain ⟨hworld, hheard⟩ := Network.stepServer_heard hnetwork
    have hnext : Holds (event.hear app.host fleet.network.world fleet.network.heard)
        network.world := hinvariant.step (hadmits event rfl) hholds hworld
    rw [← hheard] at hnext
    exact hnext

theorem heard_run {Admits : Server.Event V H → Prop}
    {Holds : (ℕ → List Packet) → Server.World U V H → Prop}
    (hinvariant : Server.HeardInvariant app Admits Holds) {events : List (Event V H W)}
    (hadmits : ∀ happening, .server happening ∈ events → Admits happening)
    (hholds : Holds fleet.network.heard fleet.world)
    (hrun : runFrom (step app apps) events fleet = some next) :
    Holds next.network.heard next.world := by
  refine runFrom_invariant_of_mem (fun fleet ↦ Holds fleet.network.heard fleet.world)
    (fun event hevent _ _ hholds hstep ↦ ?_) hholds hrun
  exact heard_step hinvariant (fun happening heq ↦ hadmits happening (heq ▸ hevent)) hholds hstep

/-- Calls that the server program makes before anything else. -/
def ofCalls (calls : List (Server.Call V H)) : List (Event V H W) :=
  calls.map fun call ↦ .server (.call call)

theorem runFrom_ofCalls (calls : List (Server.Call V H)) (fleet : Fleet U V H W K) :
    runFrom (step app apps) (ofCalls calls) fleet =
      some { fleet with world := calls.foldl (Server.Call.run app.host) fleet.world } := by
  induction calls generalizing fleet with
  | nil => rfl
  | cons call calls ih =>
    exact (ih { fleet with world := call.run app.host fleet.world })

/-- The network the programs run in is sound. -/
def Sound (order : ByteOrder) (fleet : Fleet U V H W K) : Prop :=
  fleet.network.Sound order

theorem sound_initial (order : ByteOrder) (memory : U) :
    Sound order (Fleet.initial memory : Fleet U V H W K) :=
  Network.Sound.initial order memory

/-- A step of a fleet that goes on flowing. -/
theorem Sound.step (hsound : Sound order fleet) (hhost : app.host = .wide order)
    (hhosts : ∀ id, (apps id).host = .wide order) (hstays : ∀ id, (apps id).Stays)
    {event : Event V H W} (hstep : Fleet.step app apps fleet event = some next)
    (hflows : FlowsOn fleet event next) :
    Sound order next ∧ Network.Advances (.wide order) fleet.network next.network :=
  Network.Sound.moves hsound (step_moves hsound hhost hhosts hstays hstep) hflows

/-- A flowing run is sound throughout. -/
theorem run_sound (hhost : app.host = .wide order) (hhosts : ∀ id, (apps id).host = .wide order)
    (hstays : ∀ id, (apps id).Stays) {memory : U} {events : List (Event V H W)}
    (hflows : Along (step app apps) FlowsOn events (.initial memory))
    (hrun : runFrom (step app apps) events (.initial memory) = some fleet) :
    Sound order fleet :=
  hflows.invariant (fun hsound hstep hflowing ↦
    (Sound.step hsound hhost hhosts hstays hstep hflowing).1) (sound_initial order memory) hrun

/-! ## The two test programs -/

/-- The client program of every connection, with some libraries. -/
def testing : ℕ → Client.Application TestClient.Flags (Payload Bool Bool) TestClient.Handler :=
  fun _ ↦ TestClient.application (.wide .little) .booleans .flags

theorem testing_stays (id : ℕ) : (testing id).Stays :=
  TestClient.stays (.wide .little) .booleans .flags

/-- The conversation of a network, with the client program in place of the client. -/
def conversation : List (Event Unit TestServer.Handler TestClient.Flags) :=
  ofCalls TestServer.setUp ++
    [.server (.onConnection 0 0), .join 0 (.arrived ⟨false, false⟩),
      .client 0 (.call (.send ⟨.text, [104], 0⟩ ⟨0, ⟨0, 0⟩, 0, 13⟩)),
      .server (.onRead 0 5 (Server.textFrame.take 5)),
      .server (.onRead 0 8 (Server.textFrame.drop 5)),
      .client 0 (.onRead 40 ((TestServer.responsePacket ⟨.text, [104], 0⟩).serialize
        (.wide .little) ⟨0, 0⟩))]

theorem conversation_flows :
    Along (step Network.answering testing) FlowsOn conversation (.initial ()) := by
  refine ⟨_, rfl, .of_one (by decide) (fun _ ↦ rfl) (by decide), ?_⟩
  refine ⟨_, rfl, .of_one (by decide) (fun _ ↦ rfl) (by decide), ?_⟩
  refine ⟨_, rfl, .of_one (by decide) (fun _ ↦ rfl) (by decide), ?_⟩
  refine ⟨_, rfl, .of_one (by decide) (fun _ ↦ rfl) (by decide), ?_⟩
  refine ⟨_, rfl, .of_one (by decide) (fun _ ↦ rfl) (by decide), ?_⟩
  refine ⟨_, rfl, .of_one (by decide) (fun _ ↦ rfl) (by decide), ?_⟩
  refine ⟨_, rfl, .of_one (by decide) (fun _ ↦ rfl) (by decide), ?_⟩
  refine ⟨_, rfl, .of_one (by decide) (fun _ ↦ rfl) (by decide), ?_⟩
  refine ⟨_, rfl, .of_one (by decide) (fun _ ↦ rfl) (by decide), ?_⟩
  exact ⟨_, rfl, .of_one (by decide) (fun _ ↦ rfl) (by decide), trivial⟩

end Fleet

/-- **Refinement by programs.** Whatever the program of the server and those of the clients do, as
long as no handler of a client asks for another connection: every step of a fleet that flows
throughout is a number of steps of the two mailboxes of each connection. -/
theorem programs_refine_mailboxes {U V H W X K : Type*} (app : Server.Application U V H)
    (apps : ℕ → Client.Application W X K) (order : ByteOrder) (hhost : app.host = .wide order)
    (hhosts : ∀ id, (apps id).host = .wide order) (hstays : ∀ id, (apps id).Stays) (memory : U)
    (events : List (Fleet.Event V H W))
    (hflows : Along (Fleet.step app apps) Fleet.FlowsOn events (.initial memory)) :
    Along (Fleet.step app apps)
      (fun before _ after ↦ Network.Advances (.wide order) before.network after.network)
      events (.initial memory) :=
  hflows.imp (fun hsound hstep hflowing ↦
    Fleet.Sound.step hsound hhost hhosts hstays hstep hflowing) (Fleet.sound_initial order memory)

theorem programs_refine_mailboxes_conversation :
    Along (Fleet.step Network.answering Fleet.testing)
      (fun before _ after ↦ Network.Advances (.wide .little) before.network after.network)
      Fleet.conversation (.initial ()) :=
  programs_refine_mailboxes Network.answering Fleet.testing .little rfl (fun _ ↦ rfl)
    Fleet.testing_stays () _ Fleet.conversation_flows

/-- **Handlers at both ends.** In such a run the packets that the handlers of a client were called
with are among those its session posted, and the packets that the handlers of the server were
called with for a connection are among those its client posted: in the same order, none of them
twice, and none that came from elsewhere. -/
theorem programs_handle {U V H W X K : Type*} (app : Server.Application U V H)
    (apps : ℕ → Client.Application W X K) (order : ByteOrder) (hhost : app.host = .wide order)
    (hhosts : ∀ id, (apps id).host = .wide order) (hstays : ∀ id, (apps id).Stays) (memory : U)
    (events : List (Fleet.Event V H W))
    (hflows : Along (Fleet.step app apps) Fleet.FlowsOn events (.initial memory))
    (fleet : Fleet U V H W K)
    (hrun : runFrom (Fleet.step app apps) events (.initial memory) = some fleet) (id : ℕ) :
    (∀ client, fleet.client id = some client →
        ((Obs.invocations client.trace).map Prod.snd).Sublist
          (posted (.wide order) (fleet.world.standing id))) ∧
      (fleet.world.handled id).Sublist
        (posted (.wide order) (fleet.network.clientSocket id)) := by
  have hsound : fleet.network.Sound order := Fleet.run_sound hhost hhosts hstays hflows hrun
  constructor
  · intro client hclient
    have hheeds : fleet.Heeds apps :=
      runFrom_invariant (fun hheeds hstep ↦ hheeds.step hstep) (Fleet.Heeds.initial apps memory)
        hrun
    rw [hheeds.handled id client hclient]
    exact ((apps id).invocations_sublist _).trans (hsound.downMailbox_inOrder id).sublist
  · let start : Fleet U V H W K := .initial memory
    have hstart : start.world.HandlesHeard start.network.heard := fun _ ↦ List.Sublist.refl []
    have hhandles : fleet.world.HandlesHeard fleet.network.heard :=
      Fleet.heard_run (Server.handlesHeard_invariant app) (fun _ _ ↦ trivial) hstart hrun
    exact (hhandles id).trans (hsound.upMailbox_inOrder id).sublist

theorem programs_handle_conversation :
    ∃ fleet, runFrom (Fleet.step Network.answering Fleet.testing) Fleet.conversation
        (.initial ()) = some fleet ∧
      (fleet.world.handled 0).Sublist
        (posted (.wide .little) (fleet.network.clientSocket 0)) := by
  obtain ⟨fleet, hrun⟩ := Fleet.conversation_flows.exists_last
  exact ⟨fleet, hrun, (programs_handle Network.answering Fleet.testing .little rfl
    (fun _ ↦ rfl) Fleet.testing_stays () _ Fleet.conversation_flows fleet hrun 0).2⟩

/-- **The two test programs.** In a run that flows throughout, of the server of `server_test.cpp`
and any number of clients of `client_test.cpp`, whatever their users type, the text handler of a
client is called exactly for the text packets that it hears, and these are answers to text packets
which this client has posted, in order and at most one each.  If `uv_write` accepts every answer,
the session is not closing and every byte has been received at both ends, each text packet that
the client has posted was answered and shown. -/
theorem test_programs_converse {V J M D : Type*} (order : ByteOrder) (json : JsonLibrary J)
    (protobuf : ProtobufLibrary M D)
    (write : ℕ → Packet → Server.World Unit V TestServer.Handler → WriteCall)
    (events : List (Fleet.Event V TestServer.Handler TestClient.Flags))
    (hevents : ∀ call, .server (.call call) ∉ events)
    (hflows : Along (Fleet.step (TestServer.application (.wide order) write)
        fun _ ↦ TestClient.application (.wide order) json protobuf) Fleet.FlowsOn
      (Fleet.ofCalls TestServer.setUp ++ events) (.initial ()))
    (fleet : Fleet Unit V TestServer.Handler TestClient.Flags TestClient.Handler)
    (hrun : runFrom (Fleet.step (TestServer.application (.wide order) write)
        fun _ ↦ TestClient.application (.wide order) json protobuf)
      (Fleet.ofCalls TestServer.setUp ++ events) (.initial ()) = some fleet)
    (id : ℕ) (client : Receiver (Client.Core TestClient.Flags) TestClient.Handler)
    (hclient : fleet.client id = some client) :
    TestClient.shown (Obs.invocations client.trace) = texts (fleet.downward id).heard ∧
      (TestClient.shown (Obs.invocations client.trace)).Sublist
        ((texts (posted (.wide order) client.state.socket)).map TestServer.responsePacket) ∧
      (TestServer.Accepts write → (fleet.world.slot id).core.isClosing = false →
        (fleet.upward id).received = client.state.socket.writer.accepted.flatten.length →
        (fleet.downward id).received =
          (fleet.world.standing id).writer.accepted.flatten.length →
        TestClient.shown (Obs.invocations client.trace) =
          (texts (posted (.wide order) client.state.socket)).map TestServer.responsePacket) := by
  have hsound : fleet.network.Sound order := Fleet.run_sound rfl (fun _ ↦ rfl)
    (fun _ ↦ TestClient.stays (.wide order) json protobuf) hflows hrun
  have hsocket : fleet.network.clientSocket id = client.state.socket :=
    Network.clientSocket_of_some _ (Fleet.network_client hclient)
  have hheeds : fleet.Heeds fun _ ↦ TestClient.application (.wide order) json protobuf :=
    runFrom_invariant (fun hheeds hstep ↦ hheeds.step hstep) (Fleet.Heeds.initial _ ()) hrun
  rw [runFrom_append, Fleet.runFrom_ofCalls, Option.bind_some] at hrun
  let start : Fleet Unit V TestServer.Handler TestClient.Flags TestClient.Handler := .initial ()
  have hstart : TestServer.AnswersAll (.wide order) write start.network.heard
      (TestServer.setUp.foldl (Server.Call.run (.wide order)) start.world) :=
    TestServer.answersAll_setUp ()
  have hanswers : TestServer.AnswersAll (.wide order) write fleet.network.heard fleet.world :=
    Fleet.heard_run TestServer.answersAll_invariant
      (fun happening hmem call hcall ↦ hevents call (hcall ▸ hmem)) hstart hrun
  have hshown : TestClient.shown (Obs.invocations client.trace) =
      texts (fleet.downward id).heard := by
    rw [hheeds.handled id client hclient]
    exact TestClient.shown_invocations (.wide order) json protobuf _
  obtain ⟨hanswered, -, hcomplete⟩ := TestServer.AnswersAll.converse hsound hanswers id
  rw [hsocket] at hanswered hcomplete
  rw [hshown]
  exact ⟨rfl, hanswered, hcomplete⟩

theorem test_programs_converse_conversation :
    ∃ fleet client, runFrom (Fleet.step Network.answering Fleet.testing) Fleet.conversation
        (.initial ()) = some fleet ∧ fleet.client 0 = some client ∧
      TestClient.shown (Obs.invocations client.trace) =
        [TestServer.responsePacket ⟨.text, [104], 0⟩] ∧
      TestClient.shown (Obs.invocations client.trace) = texts (fleet.downward 0).heard :=
  ⟨_, _, rfl, rfl, by decide, (test_programs_converse .little .booleans .flags _ _ (by simp)
    Fleet.conversation_flows _ rfl 0 _ rfl).1⟩

end LibuvNet
