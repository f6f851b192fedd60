import Mathlib.Data.List.GetD
import Mathlib.Order.Basic

/-!
# Objects written over memory

An object lies over memory that held something before.  Its members are written one after the
other, each at its offset; what no member covers stays what it was.  A copy of the whole object
therefore depends on the earlier contents exactly as far as there are places no member covers.
-/

namespace LibuvNet.Foundation

/-- A member of an object: where it starts, and its contents. -/
structure Member (α : Type*) where
  offset : ℕ
  contents : List α

namespace Member

variable {α : Type*} (member : Member α)

/-- The member has contents at this place. -/
def Covers (place : ℕ) : Prop :=
  member.offset ≤ place ∧ place < member.offset + member.contents.length

instance (place : ℕ) : Decidable (member.Covers place) := by
  unfold Covers
  infer_instance

/-- Memory once the member has been written. -/
def write (memory : ℕ → α) (place : ℕ) : α :=
  if member.offset ≤ place then
    member.contents.getD (place - member.offset) (memory place)
  else memory place

variable {member} {place : ℕ}

theorem write_of_not_covers (hplace : ¬ member.Covers place) (memory : ℕ → α) :
    member.write memory place = memory place := by
  unfold write
  split
  · rename_i hoffset
    apply List.getD_eq_default
    by_contra hinside
    exact hplace ⟨hoffset, by omega⟩
  · rfl

/-- A place that a member covers does not remember what it held. -/
theorem write_congr_of_covers (hplace : member.Covers place) (first second : ℕ → α) :
    member.write first place = member.write second place := by
  obtain ⟨hoffset, hinside⟩ := hplace
  have hlt : place - member.offset < member.contents.length := by omega
  unfold write
  rw [if_pos hoffset, if_pos hoffset, List.getD_eq_getElem _ _ hlt, List.getD_eq_getElem _ _ hlt]

end Member

variable {α : Type*}

/-- Memory once all members of an object have been written. -/
def initialise (members : List (Member α)) (memory : ℕ → α) : ℕ → α :=
  members.foldl (fun memory member ↦ member.write memory) memory

/-- No member covers the place. -/
def Uncovered (members : List (Member α)) (place : ℕ) : Prop :=
  ∀ member ∈ members, ¬ member.Covers place

instance (members : List (Member α)) (place : ℕ) : Decidable (Uncovered members place) := by
  unfold Uncovered
  infer_instance

/-- A byte-wise copy of the first places. -/
def copyOut (size : ℕ) (memory : ℕ → α) : List α :=
  (List.range size).map memory

@[simp]
theorem copyOut_length (size : ℕ) (memory : ℕ → α) : (copyOut size memory).length = size := by
  rw [copyOut, List.length_map, List.length_range]

theorem copyOut_eq_iff {size : ℕ} {first second : ℕ → α} :
    copyOut size first = copyOut size second ↔ ∀ place < size, first place = second place := by
  simp only [copyOut, List.map_inj_left, List.mem_range]

theorem initialise_of_uncovered {members : List (Member α)} {place : ℕ}
    (hplace : Uncovered members place) (memory : ℕ → α) :
    initialise members memory place = memory place := by
  induction members generalizing memory with
  | nil => rfl
  | cons member members ih =>
    obtain ⟨hfirst, hlater⟩ := List.forall_mem_cons.mp hplace
    calc initialise (member :: members) memory place
        = initialise members (member.write memory) place := rfl
      _ = member.write memory place := ih hlater _
      _ = memory place := Member.write_of_not_covers hfirst memory

/-- Memories that agree at a place agree there after the object has been written. -/
theorem initialise_congr (members : List (Member α)) {place : ℕ} {first second : ℕ → α}
    (hsame : first place = second place) :
    initialise members first place = initialise members second place := by
  induction members generalizing first second with
  | nil => exact hsame
  | cons member members ih =>
    apply ih
    by_cases hcovers : member.Covers place
    · exact Member.write_congr_of_covers hcovers first second
    · change member.write first place = member.write second place
      rw [Member.write_of_not_covers hcovers, Member.write_of_not_covers hcovers, hsame]

/-- Where a member is written, nothing is left of the memory before. -/
theorem initialise_of_covered {members : List (Member α)} {place : ℕ}
    (hplace : ¬ Uncovered members place) (first second : ℕ → α) :
    initialise members first place = initialise members second place := by
  induction members generalizing first second with
  | nil => exact absurd nofun hplace
  | cons member members ih =>
    by_cases hcovers : member.Covers place
    · exact initialise_congr members (Member.write_congr_of_covers hcovers first second)
    · exact ih (fun hlater ↦ hplace (List.forall_mem_cons.mpr ⟨hcovers, hlater⟩)) _ _

/-- **Copies of an object.** Written over two memories, an object is copied alike exactly if the
memories agree wherever no member covers the copy. -/
theorem copyOut_initialise_eq_iff (members : List (Member α)) {size : ℕ} {first second : ℕ → α} :
    copyOut size (initialise members first) = copyOut size (initialise members second) ↔
      ∀ place < size, Uncovered members place → first place = second place := by
  rw [copyOut_eq_iff]
  refine forall₂_congr fun place _ ↦ ⟨fun hsame huncovered ↦ ?_, fun hsame ↦ ?_⟩
  · rwa [initialise_of_uncovered huncovered, initialise_of_uncovered huncovered] at hsame
  · by_cases huncovered : Uncovered members place
    · rw [initialise_of_uncovered huncovered, initialise_of_uncovered huncovered, hsame huncovered]
    · exact initialise_of_covered huncovered first second

end LibuvNet.Foundation
