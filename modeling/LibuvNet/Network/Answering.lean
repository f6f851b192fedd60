import LibuvNet.Network.Handling

/-!
# The test server and its clients

What the server of `server_test.cpp` has posted on a session answers what it has heard there, and
a network that flows carries both ways.  So the text packets a client hears are answers to text
packets it has sent itself, in their order; and once all bytes have arrived they answer all of them.
-/

namespace LibuvNet

open Foundation

namespace TestServer

variable {V : Type*} {host : Host} {write : ℕ → Packet → Server.World Unit V Handler → WriteCall}
  {heard : ℕ → List Packet} {world : Server.World Unit V Handler}

/-- What was posted towards a client answers what was heard from it. -/
theorem AnswersAll.answers_standing (hanswers : AnswersAll host write heard world) (id : ℕ) :
    ∃ packets, Carries host (world.standing id) packets ∧
      (∀ packet ∈ packets, packet.type ≠ .text → packet = Session.heartbeatPacket) ∧
      (texts packets).Sublist ((texts (heard id)).map responsePacket) ∧
      (Accepts write → (world.slot id).core.isClosing = false →
        texts packets = (texts (heard id)).map responsePacket) := by
  unfold Server.World.standing
  by_cases hid : id < world.created
  · rw [if_pos hid]
    obtain ⟨packets, hpackets⟩ := hanswers.answered id
    exact ⟨packets, hpackets.carries, hpackets.known, hpackets.answered, hpackets.complete⟩
  · rw [if_neg hid, hanswers.unheard id (Nat.le_of_not_lt hid)]
    exact ⟨[], .of_idle rfl, List.forall_mem_nil _, List.Sublist.refl _, fun _ _ ↦ rfl⟩

/-- What the clients of a sound network hear answers what they have posted. -/
theorem AnswersAll.converse {order : ByteOrder} {network : Network Unit V Handler}
    (hsound : network.Sound order)
    (hanswers : AnswersAll (.wide order) write network.heard network.world) (id : ℕ) :
    (texts (network.downward id).heard).Sublist
        ((texts (posted (.wide order) (network.clientSocket id))).map responsePacket) ∧
      (∀ packet ∈ (network.downward id).heard, packet.type ≠ .text →
        packet = Session.heartbeatPacket) ∧
      (Accepts write → (network.world.slot id).core.isClosing = false →
        (network.upward id).received = (network.clientSocket id).writer.accepted.flatten.length →
        (network.downward id).received =
          (network.world.standing id).writer.accepted.flatten.length →
        texts (network.downward id).heard =
          (texts (posted (.wide order) (network.clientSocket id))).map responsePacket) := by
  have hup := hsound.upMailbox_inOrder id
  have hdown := hsound.downMailbox_inOrder id
  obtain ⟨packets, hcarries, hknown, hanswered, hcomplete⟩ := hanswers.answers_standing id
  have hposted := hcarries.posted_eq (hsound.flowing id).2.announced
  have hheard : (network.downward id).heard <+: packets := hposted ▸ hdown
  refine ⟨?_, fun packet hpacket ↦ hknown packet (hheard.subset hpacket),
    fun haccepts hopen hallUp hallDown ↦ ?_⟩
  · have hfirst : (texts (network.downward id).heard).Sublist
        (texts packets) := (hheard.filter _).sublist
    have hlast : ((texts (network.heard id)).map responsePacket).Sublist
        ((texts (posted (.wide order) (network.clientSocket id))).map
          responsePacket) := ((hup.filter _).map _).sublist
    exact hfirst.trans (hanswered.trans hlast)
  · obtain ⟨hclearedUp, -⟩ := (hsound.upward id).cleared hallUp
    obtain ⟨hclearedDown, -⟩ := (hsound.downward id).cleared hallDown
    have hdownward : (network.downward id).heard = packets := hclearedDown.trans hposted
    have hupward : network.heard id = posted (.wide order) (network.clientSocket id) := hclearedUp
    rw [hdownward, hcomplete haccepts hopen, hupward]

/-- Once `main` has set the handlers, the sessions answer what they hear. -/
theorem answersAll_run (order : ByteOrder) {events : List (Network.Event V Handler)}
    (hevents : ∀ call, .server (.call call) ∉ events) {network : Network Unit V Handler}
    (hrun : runFrom (Network.step (application (.wide order) write))
      (Network.ofCalls setUp ++ events) (.initial ()) = some network) :
    AnswersAll (.wide order) write network.heard network.world := by
  rw [runFrom_append, Network.runFrom_ofCalls, Option.bind_some] at hrun
  let start : Network Unit V Handler := .initial ()
  have hstart : AnswersAll (.wide order) write start.heard
      (setUp.foldl (Server.Call.run (.wide order)) start.world) := answersAll_setUp ()
  exact Network.heard_run answersAll_invariant
    (fun happening hmem call hcall ↦ hevents call (hcall ▸ hmem)) hstart hrun

end TestServer

/-- **The test server answers.** In a run that flows throughout, whatever the transports, the
timers and the clients do, the text packets that a client hears are answers to text packets that
it posted itself, in the same order and at most one each, and whatever else it hears is a heartbeat.
If `uv_write` accepts every answer, the session is not closing and every byte has been received at
both ends, each text packet of the client has been answered. -/
theorem test_server_answers {V : Type*} (order : ByteOrder)
    (write : ℕ → Packet → Server.World Unit V TestServer.Handler → WriteCall)
    (events : List (Network.Event V TestServer.Handler))
    (hevents : ∀ call, .server (.call call) ∉ events)
    (hflows : Along (Network.step (TestServer.application (.wide order) write)) Network.FlowsOn
      (Network.ofCalls TestServer.setUp ++ events) (.initial ()))
    (network : Network Unit V TestServer.Handler)
    (hrun : runFrom (Network.step (TestServer.application (.wide order) write))
      (Network.ofCalls TestServer.setUp ++ events) (.initial ()) = some network) (id : ℕ) :
    (texts (network.downward id).heard).Sublist
        ((texts (posted (.wide order) (network.clientSocket id))).map
          TestServer.responsePacket) ∧
      (∀ packet ∈ (network.downward id).heard, packet.type ≠ .text →
        packet = Session.heartbeatPacket) ∧
      (TestServer.Accepts write → (network.world.slot id).core.isClosing = false →
        (network.upward id).received = (network.clientSocket id).writer.accepted.flatten.length →
        (network.downward id).received =
          (network.world.standing id).writer.accepted.flatten.length →
        texts (network.downward id).heard =
          (texts (posted (.wide order) (network.clientSocket id))).map
            TestServer.responsePacket) := by
  obtain ⟨hsound, -⟩ := (Network.Sound.initial order ()).run rfl hflows hrun
  exact (TestServer.answersAll_run order hevents hrun).converse hsound id

theorem test_server_answers_conversation :
    ∃ network, runFrom (Network.step Network.answering) Network.conversation (.initial ()) =
        some network ∧
      texts (network.downward 0).heard = [TestServer.responsePacket ⟨.text, [104], 0⟩] ∧
      (texts (network.downward 0).heard).Sublist
        ((texts (posted (.wide .little) (network.clientSocket 0))).map
          TestServer.responsePacket) :=
  ⟨_, rfl, by decide, (test_server_answers .little _ _ (by simp) Network.conversation_flows _ rfl
    0).1⟩

end LibuvNet
