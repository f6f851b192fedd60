import LibuvNet.Network.Delivery

/-!
# What a network hands to the handlers of the server

Between the client that sends a packet and the handler of the server that is called with it lie
two buffers, the transport and two tables.  An invariant about what the sessions of a server have
heard is one of the network, so what is known of the server alone and what is known of the delivery
go together: the handlers are called with packets the client of the connection has posted, in
order, at most once for each; and exactly once for each that is no heartbeat, if a default handler
is there from the start.
-/

namespace LibuvNet

open Foundation

namespace Network

variable {U V H : Type*}

/-- The packets the sessions have taken out of their buffers. -/
def heard (network : Network U V H) (id : ℕ) : List Packet :=
  (network.upward id).heard

variable {app : Server.Application U V H} {Admits : Server.Event V H → Prop}
  {Holds : (ℕ → List Packet) → Server.World U V H → Prop} {network next : Network U V H}

/-- What happens to a client concerns neither the server nor what its sessions have heard. -/
theorem stepClient_world {host : Host} {id : ℕ} {event : Client.Event}
    {client : Client.WithBuffer} (hstep : network.stepClient host id event client = some next) :
    next.world = network.world ∧ next.upward = network.upward := by
  unfold stepClient at hstep
  split at hstep
  · cases hstep
  split at hstep
  · obtain ⟨core, -, rfl⟩ := Option.map_eq_some_iff.mp hstep
    exact ⟨rfl, rfl⟩
  · split at hstep
    · obtain ⟨core, -, rfl⟩ := Option.map_eq_some_iff.mp hstep
      exact ⟨rfl, rfl⟩
    · cases hstep

/-- A step of the server is one in the network, and the sessions hear what it brings. -/
theorem stepServer_heard {event : Server.Event V H}
    (hstep : network.stepServer app event = some next) :
    Server.step app network.world event = some next.world ∧
      next.heard = event.hear app.host network.world network.heard := by
  unfold stepServer at hstep
  unfold Server.Event.hear
  cases hreceived : event.received? with
  | none =>
    rw [hreceived] at hstep
    obtain ⟨world, hworld, rfl⟩ := Option.map_eq_some_iff.mp hstep
    exact ⟨hworld, rfl⟩
  | some received =>
    obtain ⟨id, chunk⟩ := received
    rw [hreceived] at hstep
    simp only at hstep
    split at hstep
    · obtain ⟨world, hworld, rfl⟩ := Option.map_eq_some_iff.mp hstep
      refine ⟨hworld, ?_⟩
      obtain ⟨nread, -, rfl⟩ := Server.received?_eq_some hreceived
      have hid : id < network.world.created := by
        unfold Server.step at hworld
        split at hworld
        · rename_i hdue
          exact hdue.1
        · cases hworld
      funext other
      change (Function.update network.upward id _ other).heard = Function.update network.heard id
        (network.heard id ++ network.world.decoded app.host id chunk) other
      by_cases heq : other = id
      · subst heq
        rw [Function.update_self, Function.update_self, Server.World.bufferOf, if_pos hid]
        rfl
      · rw [Function.update_of_ne heq, Function.update_of_ne heq]
        rfl
    · cases hstep

/-- A step of the network is none of the server, or one. -/
theorem step_world {event : Event V H} (hstep : step app network event = some next) :
    (next.world = network.world ∧ next.heard = network.heard) ∨
      ∃ happening, event = .server happening ∧
        Server.step app network.world happening = some next.world ∧
        next.heard = happening.hear app.host network.world network.heard := by
  cases event with
  | join id client =>
    simp only [step] at hstep
    split at hstep
    · cases hstep
      exact .inl ⟨rfl, rfl⟩
    · cases hstep
  | client id event =>
    obtain ⟨client, -, hstep⟩ := Option.bind_eq_some_iff.mp hstep
    obtain ⟨hworld, hupward⟩ := stepClient_world hstep
    exact .inl ⟨hworld, funext fun id ↦ by rw [heard, heard, hupward]⟩
  | server event => exact .inr ⟨event, rfl, stepServer_heard hstep⟩

/-- An invariant about what the sessions have heard is kept by every step of the network. -/
theorem heard_step (hinvariant : Server.HeardInvariant app Admits Holds) {event : Event V H}
    (hadmits : ∀ happening, event = .server happening → Admits happening)
    (hholds : Holds network.heard network.world)
    (hstep : step app network event = some next) : Holds next.heard next.world := by
  rcases step_world hstep with ⟨hworld, hheard⟩ | ⟨happening, rfl, hworld, hheard⟩
  · rwa [hworld, hheard]
  · rw [hheard]
    exact hinvariant.step (hadmits happening rfl) hholds hworld

theorem heard_run (hinvariant : Server.HeardInvariant app Admits Holds)
    {events : List (Event V H)}
    (hadmits : ∀ happening, .server happening ∈ events → Admits happening)
    (hholds : Holds network.heard network.world)
    (hrun : runFrom (step app) events network = some next) : Holds next.heard next.world := by
  refine runFrom_invariant_of_mem (fun network ↦ Holds network.heard network.world)
    (fun event hevent _ _ hholds hstep ↦ ?_) hholds hrun
  exact heard_step hinvariant (fun happening heq ↦ hadmits happening (heq ▸ hevent)) hholds hstep

/-- Calls that the application makes before anything else. -/
def ofCalls (calls : List (Server.Call V H)) : List (Event V H) :=
  calls.map fun call ↦ .server (.call call)

theorem runFrom_ofCalls (calls : List (Server.Call V H)) (network : Network U V H) :
    runFrom (step app) (ofCalls calls) network =
      some { network with world := calls.foldl (Server.Call.run app.host) network.world } := by
  induction calls generalizing network with
  | nil => rfl
  | cons call calls ih =>
    exact (ih { network with world := call.run app.host network.world })

end Network

/-- **At most once, and in order.** In a run that flows throughout, whatever the application does,
the packets that handlers of the server were called with for a connection are among those its
client posted: in the same order, none of them twice, and none that came from elsewhere. -/
theorem network_handles {U V H : Type*} (app : Server.Application U V H) (order : ByteOrder)
    (hhost : app.host = .wide order) (memory : U) (events : List (Network.Event V H))
    (hflows : Along (Network.step app) Network.FlowsOn events (.initial memory))
    (network : Network U V H)
    (hrun : runFrom (Network.step app) events (.initial memory) = some network) (id : ℕ) :
    (network.world.handled id).Sublist (posted (.wide order) (network.clientSocket id)) := by
  let start : Network U V H := .initial memory
  have hstart : start.world.HandlesHeard start.heard := fun _ ↦ List.Sublist.refl []
  have hhandles : network.world.HandlesHeard network.heard :=
    Network.heard_run (Server.handlesHeard_invariant app) (fun _ _ ↦ trivial) hstart hrun
  obtain ⟨hsound, -⟩ := (Network.Sound.initial order memory).run hhost hflows hrun
  exact (hhandles id).trans (hsound.upMailbox_inOrder id).sublist

theorem network_handles_conversation :
    ∃ network, runFrom (Network.step Network.answering) Network.conversation (.initial ()) =
        some network ∧
      (network.world.handled 0).Sublist (posted (.wide .little) (network.clientSocket 0)) := by
  obtain ⟨network, hrun⟩ := Network.conversation_flows.exists_last
  exact ⟨network, hrun, network_handles Network.answering .little rfl () _
    Network.conversation_flows network hrun 0⟩

namespace Server

variable {U V H : Type*} {app : Application U V H}

/-- A default handler that is set before the first connection will be called for all but the
heartbeats. -/
theorem handlesAll_setUp (host : Host) {calls : List (Call V H)} {handler : H}
    (hdefault : .setDefaultPacketHandler handler ∈ calls)
    (hcalls : ∀ call ∈ calls, call.LeavesTables) (memory : U) :
    World.HandlesAll (fun _ ↦ []) (calls.foldl (Call.run host) (.initial memory)) where
  tables := by
    have hfold (calls : List (Call V H)) (hcalls : ∀ call ∈ calls, call.LeavesTables)
        {world : World U V H} (htables : world.Tables) :
        (calls.foldl (Call.run host) world).Tables := by
      induction calls generalizing world with
      | nil => exact htables
      | cons call calls ih =>
        obtain ⟨hcall, hlater⟩ := List.forall_mem_cons.mp hcalls
        exact ih hlater (htables.run host hcall)
    exact hfold calls hcalls (.initial memory)
  default := by
    have hset (world : World U V H) :
        (Call.run host world (.setDefaultPacketHandler handler)).HasDefault := rfl
    exact foldl_establishes (fun call hworld ↦ (kept_hasDefault host).run call trivial hworld) hset
      hdefault _
  handled id := by
    have hfold (calls : List (Call V H)) (world : World U V H) :
        (calls.foldl (Call.run host) world).handled = world.handled := by
      induction calls generalizing world with
      | nil => rfl
      | cons call calls ih => exact (ih _).trans (Serves.run 0 world host call).handled_nil
    rw [hfold]
    rfl

end Server

/-- **Exactly once.** If a default handler is set before anything else happens and user code adds
nothing to the tables of the sessions, the handlers of the server were called with exactly the
packets that the session of a connection has heard and that are no heartbeats; once every byte has
been received these are all that the client has posted. -/
theorem network_handles_all {U V H : Type*} (app : Server.Application U V H) (order : ByteOrder)
    (hhost : app.host = .wide order) (hleaves : app.LeavesTables) (memory : U)
    (setUp : List (Server.Call V H)) (handler : H)
    (hdefault : .setDefaultPacketHandler handler ∈ setUp)
    (hsetUp : ∀ call ∈ setUp, call.LeavesTables) (events : List (Network.Event V H))
    (hevents : ∀ call, .server (.call call) ∈ events → call.LeavesTables)
    (hflows : Along (Network.step app) Network.FlowsOn (Network.ofCalls setUp ++ events)
      (.initial memory))
    (network : Network U V H)
    (hrun : runFrom (Network.step app) (Network.ofCalls setUp ++ events) (.initial memory) =
      some network) (id : ℕ) :
    network.world.handled id =
        (network.upward id).heard.filter (fun packet ↦ packet.type ≠ .heartbeat) ∧
      network.world.handled id <+:
        (posted (.wide order) (network.clientSocket id)).filter
          (fun packet ↦ packet.type ≠ .heartbeat) ∧
      ((network.upward id).received =
          (network.clientSocket id).writer.accepted.flatten.length →
        network.world.handled id =
          (posted (.wide order) (network.clientSocket id)).filter
            fun packet ↦ packet.type ≠ .heartbeat) := by
  obtain ⟨hsound, -⟩ := (Network.Sound.initial order memory).run hhost hflows hrun
  rw [runFrom_append, Network.runFrom_ofCalls, Option.bind_some] at hrun
  have hstart : Server.World.HandlesAll (Network.initial memory : Network U V H).heard
      (setUp.foldl (Server.Call.run app.host) (.initial memory)) :=
    Server.handlesAll_setUp app.host hdefault hsetUp memory
  have hhandles : Server.World.HandlesAll network.heard network.world :=
    Network.heard_run (Server.handlesAll_invariant hleaves)
      (fun happening hmem call hcall ↦ hevents call (hcall ▸ hmem)) hstart hrun
  rw [hhandles.handled id]
  refine ⟨rfl, (hsound.upMailbox_inOrder id).filter _, fun hall ↦ ?_⟩
  obtain ⟨hcleared, -⟩ := (hsound.upward id).cleared hall
  exact congrArg (List.filter _) hcleared

theorem network_handles_all_conversation :
    ∃ network, runFrom (Network.step Network.answering) Network.conversation (.initial ()) =
        some network ∧ (network.upward 0).heard = [⟨.text, [104], 0⟩] ∧
      network.world.handled 0 =
        (network.upward 0).heard.filter (fun packet ↦ packet.type ≠ .heartbeat) ∧
      network.world.handled 0 <+: (posted (.wide .little) (network.clientSocket 0)).filter
        fun packet ↦ packet.type ≠ .heartbeat := by
  obtain ⟨network, hrun⟩ := Network.conversation_flows.exists_last
  have hleaves : Network.answering.LeavesTables := by
    refine ⟨fun _ _ ↦ List.forall_mem_nil _, fun _ _ ↦ List.forall_mem_nil _, ?_⟩
    intro handler id packet world
    cases handler with
    | text => exact List.forall_mem_singleton.mpr trivial
    | binary | heartbeat | other => exact List.forall_mem_nil _
  obtain ⟨hheard, hprefix, -⟩ := network_handles_all Network.answering .little rfl hleaves ()
    TestServer.setUp .other (by simp [TestServer.setUp])
    (by simp [TestServer.setUp, Server.Call.LeavesTables]) _ (by simp) Network.conversation_flows
    network hrun 0
  refine ⟨network, hrun, ?_, hheard, hprefix⟩
  cases hrun
  rfl

end LibuvNet
