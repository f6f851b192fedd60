import LibuvNet.Foundation.ObjectLayout
import LibuvNet.Wire.Framing

/-!
# The padding of a frame

`Packet::serialize` builds a `PacketHeader` on the stack and copies it byte by byte.  The members
of the header cover ten of its twelve bytes; the other two are sent as the stack held them.  So
two calls for one packet give the same frame exactly if the stack held the same two bytes.
-/

namespace LibuvNet

open Foundation

namespace PacketHeader

def members (order : ByteOrder) (header : PacketHeader) : List (Member UInt8) :=
  [⟨0, [header.version]⟩, ⟨1, [header.type.code]⟩, ⟨4, order.encodeWord header.length⟩,
    ⟨8, order.encodeWord header.sequence⟩]

/-- What lies under the padding of a header that is built on this part of the stack. -/
def paddingOf (stack : ℕ → UInt8) : Padding := ⟨stack 2, stack 3⟩

theorem copyOut_members (order : ByteOrder) (header : PacketHeader) (stack : ℕ → UInt8) :
    copyOut sizeofPacketHeader (initialise (header.members order) stack) =
      header.bytes order (paddingOf stack) := by
  have hlength : (order.encodeWord header.length).length = 4 := by simp
  have hsequence : (order.encodeWord header.sequence).length = 4 := by simp
  obtain ⟨l₀, l₁, l₂, l₃, hl⟩ := List.length_eq_four.mp hlength
  obtain ⟨s₀, s₁, s₂, s₃, hs⟩ := List.length_eq_four.mp hsequence
  rw [members, bytes, hl, hs]
  rfl

/-- No member covers the bytes at offsets 2 and 3, and all others are covered. -/
theorem uncovered_members_iff (order : ByteOrder) (header : PacketHeader) {place : ℕ}
    (hplace : place < sizeofPacketHeader) :
    Uncovered (header.members order) place ↔ place = 2 ∨ place = 3 := by
  unfold sizeofPacketHeader at hplace
  simp only [Uncovered, members, Member.Covers, List.forall_mem_cons, List.length_singleton,
    ByteOrder.encodeWord_length, List.not_mem_nil, false_imp_iff, implies_true, and_true]
  omega

end PacketHeader

namespace Packet

/-- `Packet::serialize`, where the header is built on this part of the stack. -/
def serializeOn (host : Host) (stack : ℕ → UInt8) (packet : Packet) : Bytes :=
  copyOut sizeofPacketHeader (initialise (packet.header.members host.order) stack) ++ packet.data

theorem serializeOn_eq_serialize (host : Host) (stack : ℕ → UInt8) (packet : Packet) :
    packet.serializeOn host stack =
      packet.serialize host (PacketHeader.paddingOf stack) := by
  rw [serializeOn, serialize, PacketHeader.copyOut_members]

end Packet

/-- **The bytes of a frame.** Two calls of `serialize` for packets with the same members, on stacks
with arbitrary contents, give the same bytes if and only if the stacks agree on the two bytes under
the padding of the header. -/
theorem frame_bytes_equal_iff (host : Host) (packet : Packet) (first second : ℕ → UInt8) :
    packet.serializeOn host first = packet.serializeOn host second ↔
      first 2 = second 2 ∧ first 3 = second 3 := by
  unfold Packet.serializeOn
  rw [List.append_cancel_right_eq, copyOut_initialise_eq_iff]
  constructor
  · intro hsame
    have hat {place : ℕ} (hplace : place < sizeofPacketHeader) (hpadding : place = 2 ∨ place = 3) :
        first place = second place :=
      hsame place hplace ((PacketHeader.uncovered_members_iff _ _ hplace).mpr hpadding)
    exact ⟨hat (by decide) (.inl rfl), hat (by decide) (.inr rfl)⟩
  · rintro ⟨htwo, hthree⟩ place hplace huncovered
    rcases (PacketHeader.uncovered_members_iff _ _ hplace).mp huncovered with rfl | rfl
    · exact htwo
    · exact hthree

/-- A heartbeat built where the stack held a secret, and where it held zeros. -/
theorem frame_shows_stack :
    ¬ ∀ (host : Host) (packet : Packet) (first second : ℕ → UInt8),
      packet.serializeOn host first = packet.serializeOn host second := by
  intro hequal
  have hsame := hequal (.wide .little) ⟨.heartbeat, [], 0⟩ (fun _ ↦ 42) fun _ ↦ 0
  revert hsame
  decide

end LibuvNet
