import LibuvNet.Endpoint.Outgoing
import Mathlib.Data.List.Forall2

/-!
# Which packets an endpoint posts

The frames that `uv_write` accepts on a handle are those of some packets, in the order in which
they were sent, and as long as every header tells the length of its frame the packets can be read
off the frames.  A session adds to them by `send` only, and by the heartbeat, and only while it is
not closing.
-/

namespace LibuvNet

open Foundation

/-- The bytes are the frame of the packet, whatever the padding holds. -/
def Frames (host : Host) (frame : Bytes) (packet : Packet) : Prop :=
  ∃ padding, frame = Packet.serialize host padding packet

/-- The packets whose frames `uv_write` has accepted on a socket. -/
def posted (host : Host) (socket : UvTcp) : List Packet :=
  ((wireDecoder host).parse socket.writer.accepted.flatten).values

/-- The frames that were accepted are those of the packets, one each, in order. -/
def Carries (host : Host) (socket : UvTcp) (packets : List Packet) : Prop :=
  List.Forall₂ (Frames host) socket.writer.accepted packets

/-- The text packets of a list. -/
def texts (packets : List Packet) : List Packet :=
  packets.filter fun packet ↦ packet.type = .text

theorem texts_append (first second : List Packet) :
    texts (first ++ second) = texts first ++ texts second :=
  List.filter_append ..

/-- Frames of messages are parsed to their packets. -/
theorem posted_of_messages {order : ByteOrder} {socket : UvTcp} {messages : List WirePacket}
    (hmessages : socket.writer.accepted = messages.map (wireCodec order).encode) :
    posted (.wide order) socket = messages.map (wireCodec order).value := by
  have hparse := (wireCodec order).parse_stream_append messages (wireCodec order).scan_nil
  rw [List.append_nil] at hparse
  rw [posted, hmessages, ← List.flatMap_def]
  exact congrArg Parse.values hparse

theorem carries_of_messages {order : ByteOrder} {socket : UvTcp} {messages : List WirePacket}
    (hmessages : socket.writer.accepted = messages.map (wireCodec order).encode) :
    Carries (.wide order) socket (messages.map (wireCodec order).value) := by
  rw [Carries, hmessages, List.forall₂_map_left_iff, List.forall₂_map_right_iff]
  exact List.forall₂_same.mpr fun message _ ↦ ⟨message.padding, rfl⟩

/-- More frames make more packets. -/
theorem posted_isPrefix {host : Host} {socket next : UvTcp}
    (haccepted : socket.writer.accepted <+: next.writer.accepted) :
    posted host socket <+: posted host next := by
  obtain ⟨rest, hrest⟩ := haccepted
  unfold posted
  rw [← hrest, List.flatten_append, FrameDecoder.parse_append]
  exact List.prefix_append _ _

namespace Carries

variable {host : Host} {socket next : UvTcp} {packets more : List Packet}

theorem of_idle (haccepted : socket.writer.accepted = []) : Carries host socket [] := by
  rw [Carries, haccepted]
  exact .nil

theorem congr (hcarries : Carries host socket packets)
    (haccepted : next.writer.accepted = socket.writer.accepted) : Carries host next packets := by
  rwa [Carries, haccepted]

/-- Frames whose headers announce them can be read back. -/
theorem posted_eq {order : ByteOrder} (hcarries : Carries (.wide order) socket packets)
    (hannounced : Announced socket) : posted (.wide order) socket = packets := by
  have hmessages {frames : List Bytes} {packets : List Packet}
      (hframes : List.Forall₂ (Frames (.wide order)) frames packets)
      (hshort : ∀ frame ∈ frames, frame.length < 2 ^ 32) :
      ∃ messages : List WirePacket, frames = messages.map (wireCodec order).encode ∧
        packets = messages.map (wireCodec order).value := by
    induction hframes with
    | nil => exact ⟨[], rfl, rfl⟩
    | @cons frame packet frames packets hframe hlater ih =>
      obtain ⟨hfirst, hrest⟩ := List.forall_mem_cons.mp hshort
      obtain ⟨messages, rfl, rfl⟩ := ih hrest
      obtain ⟨padding, rfl⟩ := hframe
      rw [Packet.serialize_length] at hfirst
      exact ⟨⟨packet, padding, (Nat.le_add_left _ _).trans_lt hfirst⟩ :: messages, rfl, rfl⟩
  obtain ⟨messages, haccepted, rfl⟩ := hmessages hcarries hannounced
  exact posted_of_messages haccepted

end Carries

namespace Session

/-- The packet that `Session::send_heartbeat` sends. -/
def heartbeatPacket : Packet := ⟨.heartbeat, [], 0⟩

/-- From one session to the next `uv_write` accepts the frames of these packets. -/
structure Posts (host : Host) (packets : List Packet) (core next : Core) : Prop where
  accepted : ∃ frames, next.socket.writer.accepted = core.socket.writer.accepted ++ frames ∧
    List.Forall₂ (Frames host) frames packets
  isClosing : core.isClosing → next.isClosing

namespace Posts

variable {host : Host} {packets more : List Packet} {core next last : Core}

/-- Nothing was posted. -/
theorem none (haccepted : next.socket.writer.accepted = core.socket.writer.accepted)
    (hclosing : core.isClosing → next.isClosing) : Posts host [] core next :=
  ⟨⟨[], by rw [haccepted, List.append_nil], .nil⟩, hclosing⟩

theorem refl (host : Host) (core : Core) : Posts host [] core core := .none rfl id

theorem trans (hfirst : Posts host packets core next) (hsecond : Posts host more next last) :
    Posts host (packets ++ more) core last := by
  obtain ⟨frames, haccepted, hframes⟩ := hfirst.accepted
  obtain ⟨later, hlater, hmore⟩ := hsecond.accepted
  constructor
  · refine ⟨frames ++ later, ?_, List.rel_append hframes hmore⟩
    rw [hlater, haccepted, List.append_assoc]
  · exact fun hclosing ↦ hsecond.isClosing (hfirst.isClosing hclosing)

theorem carries {held : List Packet} (hposts : Posts host packets core next)
    (hcarries : Carries host core.socket held) : Carries host next.socket (held ++ packets) := by
  obtain ⟨frames, haccepted, hframes⟩ := hposts.accepted
  rw [Carries, haccepted]
  exact List.rel_append hcarries hframes

theorem start (host : Host) (core : Core) (now : ℕ) (readResult : ℤ) :
    Posts host [] core (core.start now readResult) := by
  unfold Core.start Core.startRead
  split_ifs
  · exact .none rfl id
  · exact .none rfl id
  · exact .none rfl id

theorem stop (host : Host) (core : Core) : Posts host [] core core.stop := .none rfl id

theorem close (host : Host) (core : Core) : Posts host [] core core.close := by
  unfold Core.close
  split
  · exact .none rfl fun _ ↦ rfl
  · exact .refl host core

/-- A packet is posted if the session is not closing and `uv_write` accepts it. -/
theorem send (host : Host) (core : Core) (packet : Packet) (write : WriteCall)
    (heap : Memory UInt8) :
    Posts host (if core.isClosing ∨ write.result ≠ 0 then [] else [packet]) core
      (core.send host packet write heap).2 := by
  unfold Core.send
  by_cases hclosing : core.isClosing = true
  · rw [if_pos hclosing, if_pos (.inl hclosing)]
    exact .refl host core
  rw [if_neg hclosing]
  by_cases hresult : write.result = 0
  · rw [if_neg (not_or.mpr ⟨hclosing, not_not.mpr hresult⟩)]
    simp only [writeLocal_accepted host packet heap core.socket hresult]
    refine ⟨⟨[packet.serialize host write.padding], Writer.submit_accepted .., ?_⟩, id⟩
    exact .cons ⟨write.padding, rfl⟩ .nil
  · rw [if_pos (.inr hresult)]
    simp only [writeLocal_rejected host packet heap core.socket hresult]
    exact .none rfl id

/-- The timer posts a heartbeat or nothing. -/
theorem tick (host : Host) (core : Core) (write : WriteCall) (now : ℕ) (heap : Memory UInt8) :
    ∃ beats, (∀ beat ∈ beats, beat = heartbeatPacket) ∧
      Posts host beats core (core.tick host write now heap).2 := by
  have hagain : Posts host [] core
      { core with heartbeatTimer := core.heartbeatTimer.again now } := .none rfl id
  unfold Core.tick Core.onHeartbeatTimer
  split
  · exact ⟨[], List.forall_mem_nil _, hagain.trans (.close host _)⟩
  · refine ⟨_, ?_, hagain.trans (.send host _ heartbeatPacket write heap)⟩
    split
    · exact List.forall_mem_nil _
    · exact List.forall_mem_singleton.mpr rfl

theorem reportWrite_accepted (socket : UvTcp) (status : ℤ) :
    (socket.reportWrite status).writer.accepted = socket.writer.accepted := by
  unfold UvTcp.reportWrite
  split_ifs <;> rfl

theorem onWrite (host : Host) (core : Core) (status : ℤ) :
    Posts host [] core (core.onWrite status) := by
  have hreported : Posts host [] core
      { core with socket := core.socket.reportWrite status } :=
    .none (reportWrite_accepted core.socket status) id
  unfold Core.onWrite
  split
  · exact hreported.trans (.close host _)
  · exact hreported

theorem transmit (host : Host) (core : Core) (heap : Memory UInt8) (count : ℕ) :
    Posts host [] core { core with socket := core.socket.transmit heap count } :=
  .none (Writer.take_accepted heap _ count) id

end Posts

end Session

end LibuvNet
