import LibuvNet.Server.Handling
import LibuvNet.Server.TestServer
import Mathlib.Algebra.BigOperators.Group.Finset.Basic
import Mathlib.Algebra.Order.BigOperators.Group.Finset

/-!
# How much a server writes

What a handler writes is up to the application.  If it is never more than some factor of the packet
that it was called with, which may depend on the number of sessions, as it does when packets are
relayed to all of them, then what a server writes when it reads a chunk is bounded by what leaves
the receive buffer.  Such handlers return, too, so the chunk is always read to its end.
-/

namespace LibuvNet

open Foundation

/-- No write makes the transport take more than the frame. -/
theorem Session.Core.send_emitted_le (core : Core) (host : Host) (packet : Packet)
    (write : WriteCall) (heap : Memory UInt8) :
    (core.send host packet write heap).2.socket.writer.emitted.length ≤
      core.socket.writer.emitted.length + packet.frameLength := by
  unfold send
  split
  · exact Nat.le_add_right _ _
  · change (writeLocal host packet write heap core.socket).2.writer.emitted.length ≤ _
    by_cases hresult : write.result = 0
    · have hcell := heap.cell_allocate write.address (packet.serialize host write.padding)
      rw [writeLocal_accepted host packet heap core.socket hresult]
      by_cases hempty : core.socket.writer.queue = []
      · have hinside := uvBufInit_length_le (packet.serialize host write.padding)
        rw [Writer.submit_emitted hempty hcell hinside, take_uvBufInit_length, List.length_append]
        have htaken : ((uvBufInit (packet.serialize host write.padding)).take write.taken).length ≤
            packet.frameLength :=
          calc ((uvBufInit (packet.serialize host write.padding)).take write.taken).length
              ≤ (uvBufInit (packet.serialize host write.padding)).length :=
                List.length_take_le' _ _
            _ ≤ (packet.serialize host write.padding).length := hinside
            _ = packet.frameLength := Packet.serialize_length ..
        exact Nat.add_le_add_left htaken _
      · rw [(Writer.submit_waits hempty _ write.taken).1]
        exact Nat.le_add_right _ _
    · rw [writeLocal_rejected host packet heap core.socket hresult]
      exact Nat.le_add_right _ _

/-- Sums that differ in one summand only. -/
theorem sum_add_le_sum_add {ι : Type*} [DecidableEq ι] {s : Finset ι} {f g : ι → ℕ} {i : ι}
    {a b : ℕ} (hi : i ∈ s) (hone : f i + a ≤ g i + b) (hothers : ∀ j ∈ s, j ≠ i → f j = g j) :
    ∑ j ∈ s, f j + a ≤ ∑ j ∈ s, g j + b := by
  have hrest : ∑ j ∈ s.erase i, f j = ∑ j ∈ s.erase i, g j :=
    Finset.sum_congr rfl fun j hj ↦
      hothers j (Finset.mem_of_mem_erase hj) (Finset.ne_of_mem_erase hj)
  rw [← Finset.add_sum_erase s f hi, ← Finset.add_sum_erase s g hi, hrest]
  omega

namespace Server

variable {U V H : Type*} {app : Application U V H} {world next last : World U V H}

/-! ## The output of a server -/

namespace World

/-- The bytes that the transports have taken from the sessions. -/
def output (world : World U V H) : ℕ :=
  ∑ id ∈ Finset.range world.created, (world.slot id).core.socket.writer.emitted.length

theorem output_setSlot_le (world : World U V H) {id more : ℕ} {slot : Slot V H}
    (hslot : slot.core.socket.writer.emitted.length ≤
      (world.slot id).core.socket.writer.emitted.length + more) :
    (world.setSlot id slot).output ≤ world.output + more := by
  have hother (other : ℕ) (hne : other ≠ id) : (world.setSlot id slot).slot other =
      world.slot other := Function.update_of_ne hne ..
  have hself : (world.setSlot id slot).slot id = slot := Function.update_self ..
  unfold output
  by_cases hid : id ∈ Finset.range world.created
  · change ∑ other ∈ Finset.range world.created, _ + 0 ≤ _
    refine sum_add_le_sum_add hid ?_ fun other _ hne ↦ by rw [hother other hne]
    rw [hself]
    exact hslot
  · refine le_trans (le_of_eq (Finset.sum_congr rfl fun other hmem ↦ ?_)) (Nat.le_add_right _ _)
    rw [hother other fun heq ↦ hid (heq ▸ hmem)]

theorem output_send_le (world : World U V H) (host : Host) (id : ℕ) (packet : Packet)
    (write : WriteCall) : (world.send host id packet write).output ≤
      world.output + packet.frameLength :=
  world.output_setSlot_le ((world.slot id).core.send_emitted_le host packet write world.heap)

theorem output_broadcast_le (world : World U V H) (host : Host) (packet : Packet)
    (writes : ℕ → WriteCall) : (world.broadcast host packet writes).output ≤
      world.output + world.sessions.length * packet.frameLength := by
  unfold broadcast
  generalize world.sessions = sessions
  induction sessions generalizing world with
  | nil => exact Nat.le_add_right _ _
  | cons id sessions ih =>
    calc (sessions.foldl (fun world id ↦ world.send host id packet (writes id))
          (world.send host id packet (writes id))).output
        ≤ (world.send host id packet (writes id)).output +
            sessions.length * packet.frameLength := ih _
      _ ≤ world.output + packet.frameLength + sessions.length * packet.frameLength :=
          Nat.add_le_add_right (world.output_send_le host id packet _) _
      _ = world.output + (id :: sessions).length * packet.frameLength := by
          rw [List.length_cons, Nat.succ_mul]
          omega

end World

/-! ## Applications that answer -/

/-- The packet handlers return, leave the tables of the sessions alone and write no more than some
factor of the packet they are called with. -/
structure Application.Answers (app : Application U V H) (factor : ℕ → ℕ) : Prop where
  leaves : app.LeavesTables
  returns : ∀ handler id packet world, (app.onPacket handler id packet world).throws = none
  within : ∀ handler id packet world, id < world.created →
    world.sessions.length ≤ world.created →
    ((app.onPacket handler id packet world).calls.foldl (Call.run app.host) world).output ≤
      world.output + factor world.created * packet.frameLength

/-- From one world to the other the sessions stay the same ones, and no more was written than some
factor of the load. -/
structure Bears (factor : ℕ → ℕ) (load : ℕ) (world next : World U V H) : Prop where
  tables : next.Tables
  created : next.created = world.created
  sessions : next.sessions = world.sessions
  output : next.output ≤ world.output + factor world.created * load

namespace Bears

variable {factor : ℕ → ℕ} {load more : ℕ}

theorem of_same (htables : next.Tables) (hcreated : next.created = world.created)
    (hsessions : next.sessions = world.sessions) (houtput : next.output ≤ world.output) :
    Bears factor load world next :=
  ⟨htables, hcreated, hsessions, houtput.trans (Nat.le_add_right _ _)⟩

theorem trans (hfirst : Bears factor load world next) (hsecond : Bears factor more next last) :
    Bears factor (load + more) world last where
  tables := hsecond.tables
  created := hsecond.created.trans hfirst.created
  sessions := hsecond.sessions.trans hfirst.sessions
  output := by
    have houtput := hsecond.output
    rw [hfirst.created] at houtput
    calc last.output
        ≤ next.output + factor world.created * more := houtput
      _ ≤ world.output + factor world.created * load + factor world.created * more :=
          Nat.add_le_add_right hfirst.output _
      _ = world.output + factor world.created * (load + more) := by rw [Nat.mul_add, Nat.add_assoc]

end Bears

namespace Application.Answers

variable {factor : ℕ → ℕ} {id : ℕ}

/-- A packet is handled to its end. -/
theorem dispatch (hanswers : app.Answers factor) (htables : world.Tables)
    (hid : id < world.created) (hsessions : world.sessions.length ≤ world.created)
    (packet : Packet) : ∃ next, app.dispatch id packet world = .returned next ∧
      Bears factor packet.frameLength world next := by
  by_cases htype : packet.type = .heartbeat
  · rw [dispatch_of_heartbeat id htype]
    let heard := { (world.slot id).core with lastHeartbeatTime := world.now }
    have houtput : (world.setCore id heard).output ≤ world.output + 0 :=
      world.output_setSlot_le (Nat.le_refl (world.slot id).core.socket.writer.emitted.length)
    exact ⟨world.setCore id heard, rfl, .of_same (htables.setCore id heard) rfl rfl houtput⟩
  rw [dispatch_of_ne htables id htype, serverTables_eq]
  cases hhandler : world.findHandler packet.type with
  | none => exact ⟨world, rfl, .of_same htables rfl rfl le_rfl⟩
  | some handler =>
    let recorded := world.record id (.packet handler packet)
    let reaction := app.onPacket handler id packet recorded
    have hreact : app.callPacketHandler handler id packet world = .returned
        { reaction.calls.foldl (Call.run app.host) recorded with memory := reaction.memory } :=
      react_eq_returned.mpr ⟨hanswers.returns handler id packet recorded, rfl⟩
    have hrecorded : recorded.Tables := htables
    have hserves : Serves 0 [] recorded _ := .react 0 hreact
    exact ⟨_, hreact, hrecorded.react (hanswers.leaves.packet handler id packet recorded) hreact,
      hserves.created, hserves.sessions, hanswers.within handler id packet recorded hid hsessions⟩

/-- A chunk is read to its end, and no more is written than some factor of what leaves the
buffer. -/
theorem onRead (hanswers : app.Answers factor) (htables : world.Tables) (hid : id < world.created)
    (hsessions : world.sessions.length ≤ world.created) {nread : ℤ} (hnread : 0 < nread)
    (base : Bytes) : ∃ next, Server.onRead app id nread base world = .returned next ∧
      Bears factor ((world.decoded app.host id base).map Packet.frameLength).sum world next := by
  let weigh (packet : Packet) (load : ℕ) : Outcome Exn ℕ := .returned (load + packet.frameLength)
  have hweigh (packets : List Packet) (load : ℕ) : Outcome.forEach weigh packets load =
      .returned (load + (packets.map Packet.frameLength).sum) := by
    induction packets generalizing load with
    | nil => rfl
    | cons packet packets ih =>
      rw [List.map_cons, List.sum_cons, ← Nat.add_assoc]
      exact ih (load + packet.frameLength)
  let Carried (load : ℕ) (endpoint : Endpoint (World U V H) (SessionHandler H)) : Prop :=
    Bears factor load world endpoint.state
  have hcarried : Carried 0 ⟨world, []⟩ := .of_same htables rfl rfl le_rfl
  have hhandle {packet : Packet} {load more : ℕ}
      {endpoint : Endpoint (World U V H) (SessionHandler H)} (hload : Carried load endpoint)
      (hmore : weigh packet load = .returned more) :
      ∃ after, app.handlePacket id packet endpoint = .returned after ∧ Carried more after := by
    cases hmore
    obtain ⟨handled, hdispatch, hbears⟩ := hanswers.dispatch hload.tables (hload.created ▸ hid)
      (hload.created ▸ hload.sessions ▸ hsessions) packet
    rw [handlePacket_state_eq] at hdispatch
    obtain ⟨after, hafter, rfl⟩ := Outcome.map_eq_returned hdispatch
    exact ⟨after, hafter, hload.trans hbears⟩
  -- The loop that only weighs the packets returns, and the loop that handles them follows it.
  obtain ⟨⟨rest, load⟩, hload⟩ := (wireDecoder app.host).drain_returns weigh
    ((world.slot id).buffer ++ base) 0 fun _ _ _ ↦ ⟨_, rfl⟩
  obtain ⟨after, hdrain, hafter⟩ :=
    (wireDecoder app.host).drain_follows weigh hhandle hcarried hload
  have hsum : load = ((world.decoded app.host id base).map Packet.frameLength).sum := by
    have hpackets := ((wireDecoder app.host).drain_returned weigh hload).2
    rw [hweigh, Nat.zero_add] at hpackets
    exact (Outcome.returned.inj hpackets).symm
  have hreceiver : Session.appendToBufferBy app.host (app.handlePacket id) base
      ⟨⟨world, []⟩, (world.slot id).buffer⟩ = .returned ⟨after, rest⟩ :=
    (Session.appendToBufferBy_eq_append app.host (app.handlePacket id) base
      ((world.slot id).buffer, ⟨world, []⟩)).trans (congrArg (Outcome.map Receiver.ofPair) hdrain)
  refine ⟨after.state.setSlot id { after.state.slot id with buffer := rest }, ?_, ?_⟩
  · rw [Server.onRead, if_neg (by omega), if_neg (by omega), hreceiver]
    rfl
  · have hbuffer : (after.state.setSlot id { after.state.slot id with buffer := rest }).output ≤
        after.state.output + 0 :=
      after.state.output_setSlot_le
        (Nat.le_refl (after.state.slot id).core.socket.writer.emitted.length)
    rw [← hsum]
    exact ⟨hafter.tables.setSlot id (hafter.tables id).1 (hafter.tables id).2, hafter.created,
      hafter.sessions, hbuffer.trans hafter.output⟩

end Application.Answers

end Server

/-- The server of `server_test.cpp` writes at most four times the packet: the prefix of an answer is
hardly longer than two headers. -/
theorem TestServer.answers {V : Type*} (host : Host)
    (write : ℕ → Packet → Server.World Unit V Handler → WriteCall) :
    (application host write).Answers fun _ ↦ 4 where
  leaves := {
    connect := fun _ _ ↦ List.forall_mem_nil _
    close := fun _ _ ↦ List.forall_mem_nil _
    packet := fun handler id packet world ↦ by
      cases handler with
      | text => exact List.forall_mem_singleton.mpr trivial
      | binary | heartbeat | other => exact List.forall_mem_nil _ }
  returns handler _ _ _ := by
    cases handler with
    | text | binary | heartbeat | other => rfl
  within handler id packet world hid _ := by
    cases handler with
    | text =>
      have hrun (call : WriteCall) : Server.Call.run host world (.send id (responsePacket packet)
          call) = world.send host id (responsePacket packet) call := if_pos hid
      have hlength : (responsePacket packet).frameLength = packet.frameLength + 27 := by
        simp [Packet.frameLength, responsePacket, responsePrefix]
        omega
      change (Server.Call.run host world (.send id (responsePacket packet) _)).output ≤ _
      rw [hrun]
      have houtput := world.output_send_le host id (responsePacket packet) (write id packet world)
      have hheader : 12 ≤ packet.frameLength := Nat.le_add_right _ _
      omega
    | binary | heartbeat | other => exact Nat.le_add_right _ _

end LibuvNet
