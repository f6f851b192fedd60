import LibuvNet.Network.Handling
import LibuvNet.Server.Announcing

/-!
# What the clients of a server agree on

If the application sends packets of one kind by `broadcast` only, the clients of a network that
flows hear the packets of this kind in one order: there is a log that only grows, and what a client
has heard lies in it without a gap, from where its session was accepted.
-/

namespace LibuvNet

open Foundation

namespace Network

variable {U V H : Type*} {app : Server.Application U V H} {kind : Packet → Bool}
  {network next : Network U V H}

/-- The sessions of the server agree on a log. -/
structure Logs (host : Host) (kind : Packet → Bool) (log : List Packet)
    (network : Network U V H) : Prop where
  registered : Server.Registered network.world
  agreed : Server.Agreed host kind log network.world

namespace Logs

theorem initial (host : Host) (kind : Packet → Bool) (memory : U) :
    Logs host kind [] (Network.initial memory : Network U V H) where
  registered := Server.registered_initial memory
  agreed := Server.agreed_initial host kind memory

/-- The log goes on with every step. -/
theorem step (hmakes : app.Makes (Server.Call.Announces kind))
    (hkind : kind Session.heartbeatPacket = false) {log : List Packet}
    (hlogs : network.Logs app.host kind log) {event : Event V H}
    (hcalls : ∀ call, event = .server (.call call) → call.Announces kind)
    (hstep : Network.step app network event = some next) :
    ∃ after, log <+: after ∧ next.Logs app.host kind after := by
  rcases step_world hstep with ⟨hworld, -⟩ | ⟨happening, rfl, hhappens, -⟩
  · refine ⟨log, List.prefix_rfl, ?_, ?_⟩
    · exact hworld ▸ hlogs.registered
    · exact hworld ▸ hlogs.agreed
  · have hannounces (call : Server.Call V H) (hcall : happening = .call call) :
        call.Announces kind := hcalls call (congrArg Event.server hcall)
    obtain ⟨after, hafter, hagreed⟩ :=
      Server.agrees_step hmakes hkind hlogs.registered hlogs.agreed hannounces hhappens
    exact ⟨after, hafter, hlogs.registered.step hhappens, hagreed⟩

/-- What a client has heard lies in the log; if its session is not closing, it is the beginning of
an end of the log, and this whole end once every byte has been received. -/
theorem hears {order : ByteOrder} {log : List Packet} (hlogs : network.Logs (.wide order) kind log)
    (hsound : network.Sound order) (id : ℕ) :
    (network.downward id).heard.filter kind <:+: log ∧
      (network.world.Live id → ∃ told, told <:+ log ∧
        (network.downward id).heard.filter kind <+: told ∧
        ((network.downward id).received =
            (network.world.standing id).writer.accepted.flatten.length →
          (network.downward id).heard.filter kind = told)) := by
  have hdown := hsound.downMailbox_inOrder id
  by_cases hid : id < network.world.created
  · obtain ⟨packets, hcarries, hpart, hend⟩ := hlogs.agreed.told id hid
    have hstanding : network.world.standing id = (network.world.slot id).core.socket := if_pos hid
    rw [← hstanding] at hcarries
    have hposted := hcarries.posted_eq (hsound.flowing id).2.announced
    have hheard : (network.downward id).heard <+: packets := hposted ▸ hdown
    refine ⟨(hheard.filter kind).isInfix.trans hpart, fun hlive ↦ ?_⟩
    refine ⟨packets.filter kind, hend hlive, hheard.filter kind, fun hall ↦ ?_⟩
    obtain ⟨hcleared, -⟩ := (hsound.downward id).cleared hall
    exact congrArg (List.filter kind) (hcleared.trans hposted)
  · have hstanding : network.world.standing id = Session.Core.accept.socket := if_neg hid
    have hposted : posted (.wide order) (network.world.standing id) = [] := by
      rw [hstanding]
      rfl
    have hnone : (network.downward id).heard = [] := List.prefix_nil.mp (hposted ▸ hdown)
    rw [hnone]
    exact ⟨List.nil_infix, fun hlive ↦ absurd hlive.1 hid⟩

end Logs

/-! ## A relay -/

/-- A server that broadcasts every packet it is sent. -/
def relay : Server.Application Unit Unit Unit where
  host := .wide .little
  connectHandler _ _ := ⟨[], (), none⟩
  closeHandler _ _ := ⟨[], (), none⟩
  onPacket _ _ packet _ :=
    ⟨[.broadcast packet fun _ ↦
      ⟨0, ⟨0, 0⟩, 0, sizeofPacketHeader + packet.data.length⟩], (), none⟩
  onSessionPacket _ _ _ _ := ⟨[], (), none⟩

/-- Two clients, of which the first sends a packet, and both read what the server relays. -/
def relayed : List (Event Unit Unit) :=
  [.server (.call (.setDefaultPacketHandler ())), .server (.onConnection 0 0),
    .server (.onConnection 0 0), .join 0 ⟨.arrived (), []⟩, .join 1 ⟨.arrived (), []⟩,
    .client 0 (.call (.send ⟨.text, [104], 0⟩ ⟨0, ⟨0, 0⟩, 0, 13⟩)),
    .server (.onRead 0 13 Server.textFrame), .client 0 (.onRead 13 Server.textFrame),
    .client 1 (.onRead 13 Server.textFrame)]

theorem relayed_flows : Along (step relay) FlowsOn relayed (.initial ()) := by
  have hfew {network : Network Unit Unit Unit} (hcreated : network.world.created ≤ 2)
      (hclient : ∀ id, network.client (id + 2) = none)
      (hflows : ∀ id < 2, Flows (network.clientSocket id) ∧ Flows (network.world.standing id)) :
      network.Flowing := Flowing.of_few hcreated hclient hflows
  refine ⟨_, rfl, hfew (by decide) (fun _ ↦ rfl) (by decide), ?_⟩
  refine ⟨_, rfl, hfew (by decide) (fun _ ↦ rfl) (by decide), ?_⟩
  refine ⟨_, rfl, hfew (by decide) (fun _ ↦ rfl) (by decide), ?_⟩
  refine ⟨_, rfl, hfew (by decide) (fun _ ↦ rfl) (by decide), ?_⟩
  refine ⟨_, rfl, hfew (by decide) (fun _ ↦ rfl) (by decide), ?_⟩
  refine ⟨_, rfl, hfew (by decide) (fun _ ↦ rfl) (by decide), ?_⟩
  refine ⟨_, rfl, hfew (by decide) (fun _ ↦ rfl) (by decide), ?_⟩
  refine ⟨_, rfl, hfew (by decide) (fun _ ↦ rfl) (by decide), ?_⟩
  exact ⟨_, rfl, hfew (by decide) (fun _ ↦ rfl) (by decide), trivial⟩

end Network

/-- **Agreement.** In a run that flows throughout, whose server sends packets of one kind by
broadcasts only and has each of them accepted, there is a log, growing from step to step, such that
after every step what each client has heard of this kind lies in the log without a gap.  For a
session that is not closing it is the beginning of an end of the log, and this whole end once every
byte has been received: any two such clients have heard the same packets in the same order, but for
those of before the later one was accepted. -/
theorem network_agrees {U V H : Type*} (app : Server.Application U V H) (order : ByteOrder)
    (hhost : app.host = .wide order) (kind : Packet → Bool)
    (hkind : kind Session.heartbeatPacket = false)
    (hmakes : app.Makes (Server.Call.Announces kind)) (memory : U)
    (events : List (Network.Event V H))
    (hevents : ∀ call, .server (.call call) ∈ events → call.Announces kind)
    (hflows : Along (Network.step app) Network.FlowsOn events (.initial memory)) :
    ∃ log : ℕ → List Packet, log 0 = [] ∧ (∀ n, log n <+: log (n + 1)) ∧
      ∀ n network, runFrom (Network.step app) (events.take n) (.initial memory) = some network →
        ∀ id, (network.downward id).heard.filter kind <:+: log n ∧
          (network.world.Live id → ∃ told, told <:+ log n ∧
            (network.downward id).heard.filter kind <+: told ∧
            ((network.downward id).received =
                (network.world.standing id).writer.accepted.flatten.length →
              (network.downward id).heard.filter kind = told)) := by
  have hstep (event : Network.Event V H) (hevent : event ∈ events) {log : List Packet}
      {network next : Network U V H} (hlogs : network.Logs app.host kind log)
      (hstep : Network.step app network event = some next) :
      ∃ after, log <+: after ∧ next.Logs app.host kind after :=
    hlogs.step hmakes hkind (fun call hcall ↦ hevents call (hcall ▸ hevent)) hstep
  obtain ⟨log, hlog, hgrows, hlogs⟩ := exists_trace (fun log ↦ List.prefix_refl log)
    (fun log (network : Network U V H) ↦ network.Logs app.host kind log) hstep
    (.initial app.host kind memory)
  refine ⟨log, hlog, hgrows, fun n network hrun id ↦ ?_⟩
  obtain ⟨hsound, -⟩ := (Network.Sound.initial order memory).run hhost (hflows.take n) hrun
  exact (hhost ▸ hlogs n network hrun).hears hsound id

theorem network_agrees_relayed :
    ∃ network, runFrom (Network.step Network.relay) (Network.relayed.take 9) (.initial ()) =
        some network ∧
      (network.downward 0).heard = [⟨.text, [104], 0⟩] ∧
      (network.downward 1).heard = [⟨.text, [104], 0⟩] ∧
      ∃ log, (network.downward 1).heard.filter (fun packet ↦ packet.type = .text) <:+: log := by
  obtain ⟨log, -, -, hlog⟩ := network_agrees Network.relay .little rfl
    (fun packet ↦ packet.type = .text) (by decide)
    ⟨fun _ _ ↦ List.forall_mem_nil _, fun _ _ ↦ List.forall_mem_nil _,
      fun _ _ packet _ ↦ List.forall_mem_singleton.mpr fun _ _ ↦ rfl,
      fun _ _ _ _ ↦ List.forall_mem_nil _⟩ () Network.relayed (by simp [Network.relayed,
        Server.Call.Announces]) Network.relayed_flows
  exact ⟨_, rfl, by decide, by decide, log 9, (hlog 9 _ rfl 1).1⟩

end LibuvNet
