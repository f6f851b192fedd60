import LibuvNet.Foundation.Numeral
import LibuvNet.Server.Registry
import Mathlib.Data.List.Nodup

/-!
# Sending to one session

`Server::send_to` takes the first session whose id is the one it is given.  The id of a session is
its address in hexadecimal, at least eight digits wide; since the digits determine the address,
whatever its size, and two sessions are never at one address, no other session can have that id.
-/

namespace LibuvNet

open Foundation

/-- `Session::id` of the session at an address. -/
def Session.sessionId (address : ℕ) : String :=
  String.ofList (Numeral.padded 16 8 address)

theorem Session.sessionId_injective : Function.Injective Session.sessionId := by
  intro first second heq
  exact Numeral.padded_injective (by decide) (by decide) 8 (String.ofList_injective heq)

example : Session.sessionId 0x5A1 = "000005a1" := by decide

namespace Server

variable {U V H : Type*}

namespace World

variable (world : World U V H)

/-- `Server::send_to`, where every session has an address. -/
def sendTo (host : Host) (address : ℕ → ℕ) (sessionId : String) (packet : Packet)
    (write : WriteCall) : World U V H :=
  match world.sessions.find? fun id ↦ Session.sessionId (address id) = sessionId with
  | some id => world.send host id packet write
  | none => world

/-- One call of `uv_write` on the socket of a session, with a packet that is serialized for it. -/
def uvWrite (host : Host) (packet : Packet) (write : WriteCall) (id : ℕ) : World U V H :=
  let core := (world.slot id).core
  let written := writeLocal host packet write world.heap core.socket
  { world.setCore id { core with socket := written.2 } with heap := written.1 }

/-- `uv_write` is called on the sockets of these sessions, one after the other. -/
def uvWrites (host : Host) (packet : Packet) (write : WriteCall) (ids : List ℕ) : World U V H :=
  ids.foldl (fun world id ↦ world.uvWrite host packet write id) world

/-- The sessions on which `uv_write` is called when a session is asked to send. -/
def writtenTo (id : ℕ) : List ℕ :=
  if (world.slot id).core.isClosing then [] else [id]

variable {world}

theorem setCore_self (id : ℕ) : world.setCore id (world.slot id).core = world := by
  change { world with slot := Function.update world.slot id (world.slot id) } = world
  rw [Function.update_eq_self]

/-- A session sends by one call of `uv_write` on its own socket, unless it is closing. -/
theorem send_eq_uvWrites (host : Host) (id : ℕ) (packet : Packet) (write : WriteCall) :
    world.send host id packet write = world.uvWrites host packet write (world.writtenTo id) := by
  unfold World.send Session.Core.send uvWrites writtenTo
  by_cases hclosing : (world.slot id).core.isClosing
  · rw [if_pos hclosing, if_pos hclosing]
    simp only [setCore_self, List.foldl_nil]
  · rw [if_neg hclosing, if_neg hclosing]
    rfl

theorem uvWrite_slot_of_ne (host : Host) (packet : Packet) (write : WriteCall) {id other : ℕ}
    (hne : other ≠ id) : (world.uvWrite host packet write id).slot other = world.slot other :=
  Function.update_of_ne hne ..

theorem send_slot_of_ne (host : Host) (packet : Packet) (write : WriteCall) {id other : ℕ}
    (hne : other ≠ id) : (world.send host id packet write).slot other = world.slot other := by
  rw [send_eq_uvWrites, uvWrites, writtenTo]
  split
  · rfl
  · exact uvWrite_slot_of_ne host packet write hne

/-- No session of the registry shares its address with another one. -/
def DistinctAddresses (world : World U V H) (address : ℕ → ℕ) : Prop :=
  ∀ first ∈ world.sessions, ∀ second ∈ world.sessions, address first = address second →
    first = second

variable {address : ℕ → ℕ}

/-- The first session with an id is the only one. -/
theorem find?_sessionId (hdistinct : world.DistinctAddresses address) {id : ℕ}
    (hid : id ∈ world.sessions) :
    world.sessions.find? (fun other ↦
      Session.sessionId (address other) = Session.sessionId (address id)) = some id := by
  obtain ⟨other, hother⟩ : ∃ other, world.sessions.find? (fun other ↦
      Session.sessionId (address other) = Session.sessionId (address id)) = some other := by
    rw [← Option.isSome_iff_exists, List.find?_isSome]
    exact ⟨id, hid, by simp⟩
  have hmem : other ∈ world.sessions := List.mem_of_find?_eq_some hother
  have hsame : Session.sessionId (address other) = Session.sessionId (address id) := by
    simpa using List.find?_some hother
  rw [hother, hdistinct other hmem id hid (Session.sessionId_injective hsame)]

theorem sendTo_of_mem (hdistinct : world.DistinctAddresses address) {id : ℕ}
    (hid : id ∈ world.sessions) (host : Host) (packet : Packet) (write : WriteCall) :
    world.sendTo host address (Session.sessionId (address id)) packet write =
      world.send host id packet write := by
  rw [sendTo, find?_sessionId hdistinct hid]

theorem sendTo_of_unknown {sessionId : String}
    (hunknown : ∀ id ∈ world.sessions, Session.sessionId (address id) ≠ sessionId) (host : Host)
    (packet : Packet) (write : WriteCall) :
    world.sendTo host address sessionId packet write = world := by
  have hnone : world.sessions.find? (fun id ↦ Session.sessionId (address id) = sessionId) =
      none := by
    rw [List.find?_eq_none]
    intro id hid
    simpa using hunknown id hid
  rw [sendTo, hnone]

end World

/-- **`send_to` addresses one session.** In every state a server reaches, the ids of its sessions
are pairwise distinct; a packet sent to one of them is handed to `uv_write` once, on the socket of
that session, if the session is not closing, and otherwise not at all; and a packet sent to any
other id is handed to nobody. -/
theorem send_to_addresses_one (app : Application U V H) (memory : U) (events : List (Event V H))
    (world : World U V H) (hrun : runFrom (step app) events (.initial memory) = some world)
    (address : ℕ → ℕ) (hdistinct : world.DistinctAddresses address) (packet : Packet)
    (write : WriteCall) :
    (∀ id ∈ world.sessions,
      let next := world.sendTo app.host address (Session.sessionId (address id)) packet write
      next = world.uvWrites app.host packet write
          (if (world.slot id).core.isClosing then [] else [id]) ∧
        ∀ other, other ≠ id → next.slot other = world.slot other) ∧
      (∀ sessionId : String,
        (∀ id ∈ world.sessions, Session.sessionId (address id) ≠ sessionId) →
          world.sendTo app.host address sessionId packet write = world) ∧
      (world.sessions.map fun id ↦ Session.sessionId (address id)).Nodup ∧
      Function.Injective Session.sessionId := by
  have hregistered := runFrom_invariant Registered.step (registered_initial memory) hrun
  refine ⟨fun id hid ↦ ?_, fun sessionId hunknown ↦ ?_, ?_, Session.sessionId_injective⟩
  · rw [World.sendTo_of_mem hdistinct hid]
    exact ⟨World.send_eq_uvWrites app.host id packet write,
      fun other hne ↦ World.send_slot_of_ne app.host packet write hne⟩
  · exact World.sendTo_of_unknown hunknown app.host packet write
  · refine List.Nodup.map_on (fun first hfirst second hsecond hsame ↦ ?_) hregistered.nodup
    exact hdistinct first hfirst second hsecond (Session.sessionId_injective hsame)

/-- Of two sessions at addresses of nine and of two digits the second is addressed, and it alone is
sent the packet. -/
theorem send_to_addresses_one_second :
    let address := fun id ↦ if id = 0 then 0x100000010 else 0x10
    ∃ world, runFrom (step hangingUp) [.onConnection 0 0, .onConnection 0 0] (.initial ()) =
        some world ∧
      let next := world.sendTo (.wide .little) address (Session.sessionId 0x10) ⟨.text, [104], 0⟩
        ⟨0, ⟨0, 0⟩, 0, 0⟩
      next = world.uvWrites (.wide .little) ⟨.text, [104], 0⟩ ⟨0, ⟨0, 0⟩, 0, 0⟩ [1] ∧
        next.slot 0 = world.slot 0 := by
  obtain ⟨hsent, -⟩ := send_to_addresses_one hangingUp ()
    [.onConnection 0 0, .onConnection 0 0] _ rfl (fun id ↦ if id = 0 then 0x100000010 else 0x10)
    (by unfold World.DistinctAddresses; decide) ⟨.text, [104], 0⟩ ⟨0, ⟨0, 0⟩, 0, 0⟩
  obtain ⟨hnext, hother⟩ := hsent 1 (by decide)
  exact ⟨_, rfl, hnext, hother 0 (by decide)⟩

end Server

end LibuvNet
