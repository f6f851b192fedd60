import Mathlib.Data.List.Basic
import Mathlib.Data.List.TakeDrop

/-!
# Writes from borrowed memory

A writer that does not copy is given the address of the data and a length, and reads the data when
the transport has room, which may be long after the call.  Memory is a set of cells with an owner
each; a cell that its owner releases may be reused by a later allocation.  As long as no write
waits, a writer that is told the whole length of each cell emits what it was given, in order; of a
cell that it is told less of it emits less, and says nothing of the rest.
-/

namespace LibuvNet.Foundation

/-- Cells of memory, and the addresses that have an owner. -/
structure Memory (α : Type*) where
  cell : ℕ → List α
  live : List ℕ

namespace Memory

variable {α : Type*} (memory : Memory α)

/-- An address beyond all that have an owner. -/
def top : ℕ := memory.live.foldr max 0 + 1

/-- Where the allocator puts the next cell: at the wished address if it is free. -/
def place (wish : ℕ) : ℕ := if wish ∈ memory.live then memory.top else wish

/-- A new cell with the given content. -/
def allocate (wish : ℕ) (content : List α) : Memory α where
  cell := Function.update memory.cell (memory.place wish) content
  live := memory.place wish :: memory.live

/-- The owner gives the cell back; its content stays until the cell is reused. -/
def release (address : ℕ) : Memory α :=
  { memory with live := memory.live.erase address }

/-- Read some symbols of a cell; behind its end lies memory of no interest. -/
def load [Inhabited α] (address offset count : ℕ) : List α :=
  ((memory.cell address).drop offset).takeD count default

theorem le_foldr_max {addresses : List ℕ} {address : ℕ} (hmem : address ∈ addresses) :
    address ≤ addresses.foldr max 0 := by
  induction addresses with
  | nil => cases hmem
  | cons first addresses ih =>
    rcases List.mem_cons.mp hmem with rfl | hlater
    · exact Nat.le_max_left _ _
    · exact Nat.le_trans (ih hlater) (Nat.le_max_right _ _)

/-- The allocator never hands out a cell that has an owner. -/
theorem place_not_mem (wish : ℕ) : memory.place wish ∉ memory.live := by
  unfold place
  split
  · intro htop
    have hle := le_foldr_max htop
    unfold top at hle
    omega
  · assumption

@[simp]
theorem cell_allocate (wish : ℕ) (content : List α) :
    (memory.allocate wish content).cell (memory.place wish) = content :=
  Function.update_self ..

@[simp]
theorem release_allocate_live (wish : ℕ) (content : List α) :
    ((memory.allocate wish content).release (memory.place wish)).live = memory.live :=
  List.erase_cons_head ..

/-- A load that stays inside its cell reads the content. -/
theorem load_eq [Inhabited α] {address : ℕ} {content : List α}
    (hcell : memory.cell address = content) {count : ℕ} (hinside : count ≤ content.length) :
    memory.load address 0 count = content.take count := by
  rw [load, hcell, List.drop_zero, List.takeD_eq_take _ hinside]

end Memory

/-- A write the transport has not finished: where its data lies, what the data was when the write
was accepted, how much of it is to be taken, and how much has been. -/
structure BorrowedWrite (α : Type*) where
  address : ℕ
  content : List α
  length : ℕ
  taken : ℕ
  deriving DecidableEq, Repr

/-- A writer: its unfinished writes, oldest first, the number of finished writes it has not
reported, what it was given and what it has emitted. -/
structure Writer (α : Type*) where
  queue : List (BorrowedWrite α)
  completed : ℕ
  accepted : List (List α)
  emitted : List α
  deriving DecidableEq, Repr

namespace Writer

variable {α : Type*}

/-- A writer that has been given nothing. -/
def idle : Writer α := ⟨[], 0, [], []⟩

variable [Inhabited α] (memory : Memory α) (writer : Writer α)

/-- The transport takes at most `count` symbols from the oldest unfinished write. -/
def take (count : ℕ) : Writer α :=
  match writer.queue with
  | [] => writer
  | write :: queue =>
    let emitted := writer.emitted ++
      memory.load write.address write.taken (min count (write.length - write.taken))
    if write.length ≤ write.taken + count then
      { writer with queue := queue, completed := writer.completed + 1, emitted := emitted }
    else
      { writer with
        queue := { write with taken := write.taken + count } :: queue
        emitted := emitted }

/-- Accept a write of the first `length` symbols of a cell with this content.  The transport is
tried at once if no other write waits. -/
def submit (address : ℕ) (content : List α) (length count : ℕ) : Writer α :=
  let accepted := { writer with
    queue := writer.queue ++ [⟨address, content, length, 0⟩]
    accepted := writer.accepted ++ [content] }
  if writer.queue = [] then accepted.take memory count else accepted

theorem take_accepted (count : ℕ) : (writer.take memory count).accepted = writer.accepted := by
  unfold take
  split
  · rfl
  · split <;> rfl

theorem submit_accepted (address : ℕ) (content : List α) (length count : ℕ) :
    (writer.submit memory address content length count).accepted =
      writer.accepted ++ [content] := by
  unfold submit
  simp only
  split
  · exact take_accepted memory _ count
  · rfl

/-- Every unfinished write still finds its data in a cell that has an owner. -/
def Intact : Prop :=
  ∀ write ∈ writer.queue, write.address ∈ memory.live ∧ memory.cell write.address = write.content

variable {memory writer}

/-- A write that the transport takes whole at once leaves an empty queue empty. -/
theorem submit_whole (memory : Memory α) (hempty : writer.queue = []) (address : ℕ)
    (content : List α) {length count : ℕ} (hwhole : length ≤ count) :
    (writer.submit memory address content length count).queue = [] := by
  simp [submit, take, hempty, hwhole]

/-- A write that is not taken whole at once is unfinished when the call returns. -/
theorem submit_not_whole {address : ℕ} {content : List α} {length count : ℕ}
    (hwhole : ¬ (writer.queue = [] ∧ length ≤ count)) :
    ∃ write ∈ (writer.submit memory address content length count).queue,
      write.address = address := by
  unfold submit
  split
  · rename_i hempty
    have hcount : ¬ length ≤ count := fun hcount ↦ hwhole ⟨hempty, hcount⟩
    simp [take, hempty, hcount]
  · simp

omit [Inhabited α] in
/-- What was emitted is a front of what was given, and all of it if no write waits. -/
structure Ordered (writer : Writer α) : Prop where
  front : writer.emitted <+: writer.accepted.flatten
  whole : writer.queue = [] → writer.emitted = writer.accepted.flatten

omit [Inhabited α] in
/-- Nothing is in order. -/
theorem Ordered.of_idle (hemitted : writer.emitted = []) (haccepted : writer.accepted = []) :
    writer.Ordered := by
  have hwhole : writer.emitted = writer.accepted.flatten := by
    rw [hemitted, haccepted, List.flatten_nil]
  exact ⟨hwhole ▸ List.prefix_rfl, fun _ ↦ hwhole⟩

/-- Of a write that finds no other one waiting as much is emitted as the transport takes. -/
theorem submit_emitted {address : ℕ} {content : List α} {length : ℕ} (hempty : writer.queue = [])
    (hcell : memory.cell address = content) (hinside : length ≤ content.length) (count : ℕ) :
    (writer.submit memory address content length count).emitted =
      writer.emitted ++ (content.take length).take count := by
  have hload := memory.load_eq hcell (Nat.le_trans (Nat.min_le_right count length) hinside)
  rw [← List.take_take] at hload
  unfold submit
  rw [if_pos hempty]
  simp only [take, hempty, List.nil_append, Nat.sub_zero, hload]
  split <;> rfl

/-- Of the memory a write concerns the cell of its data only. -/
theorem submit_congr {memory' : Memory α} {address : ℕ}
    (hcell : memory.cell address = memory'.cell address) (content : List α) (length count : ℕ) :
    writer.submit memory address content length count =
      writer.submit memory' address content length count := by
  unfold submit
  split
  · rename_i hempty
    simp only [take, hempty, List.nil_append, Memory.load, hcell]
  · rfl

/-- A write that finds others waiting waits as well. -/
theorem submit_waits {address : ℕ} {content : List α} (hbusy : writer.queue ≠ [])
    (length count : ℕ) :
    (writer.submit memory address content length count).emitted = writer.emitted ∧
      (writer.submit memory address content length count).queue ≠ [] := by
  unfold submit
  rw [if_neg hbusy]
  exact ⟨rfl, by simp⟩

/-- More is emitted by a write, never less. -/
theorem emitted_submit {address : ℕ} {content : List α} {length : ℕ}
    (hcell : memory.cell address = content) (hinside : length ≤ content.length) (count : ℕ) :
    writer.emitted <+: (writer.submit memory address content length count).emitted := by
  by_cases hempty : writer.queue = []
  · rw [submit_emitted hempty hcell hinside count]
    exact List.prefix_append _ _
  · exact (submit_waits hempty length count).1.symm ▸ List.prefix_rfl

/-- Writing whole cells keeps the order, however much of the data the transport takes. -/
theorem Ordered.submit (hordered : writer.Ordered) {address : ℕ} {content : List α} {length : ℕ}
    (hcell : memory.cell address = content) (hlength : length = content.length) (count : ℕ) :
    (writer.submit memory address content length count).Ordered := by
  have haccepted : (writer.submit memory address content length count).accepted.flatten =
      writer.accepted.flatten ++ content := by
    rw [submit_accepted, List.flatten_append, List.flatten_singleton]
  by_cases hempty : writer.queue = []
  · have hemitted := submit_emitted hempty hcell (Nat.le_of_eq hlength) count
    rw [hlength, List.take_length, ← hlength] at hemitted
    constructor
    · rw [hemitted, haccepted, hordered.whole hempty]
      exact (List.prefix_append_right_inj _).mpr (List.take_prefix count content)
    · intro hqueue
      have hwhole : length ≤ count := by
        by_contra hpart
        have hnot : ¬ (writer.queue = [] ∧ length ≤ count) := fun hwhole ↦ hpart hwhole.2
        obtain ⟨waiting, hwaiting, -⟩ :
            ∃ write ∈ (writer.submit memory address content length count).queue,
              write.address = address := submit_not_whole hnot
        rw [hqueue] at hwaiting
        cases hwaiting
      rw [hemitted, haccepted, hordered.whole hempty, List.take_of_length_le (hlength ▸ hwhole)]
  · obtain ⟨hemitted, hqueue⟩ :
        (writer.submit memory address content length count).emitted = writer.emitted ∧
          (writer.submit memory address content length count).queue ≠ [] :=
      submit_waits hempty length count
    constructor
    · rw [hemitted, haccepted]
      exact hordered.front.trans (List.prefix_append _ _)
    · exact fun hnil ↦ absurd hnil hqueue

end Writer

end LibuvNet.Foundation
