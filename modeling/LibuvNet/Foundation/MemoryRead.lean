import Mathlib.Data.List.Range
import Mathlib.Order.Basic

/-!
# Computations that read a memory

A computation that reads places of a memory one after the other, where a value read may decide
what is read next.  On a memory it has a result and the list of the places it read.
-/

namespace LibuvNet.Foundation

/-- A computation with a result in `ρ` over a memory with values in `α`. -/
inductive MemoryRead (α ρ : Type) where
  | done (result : ρ)
  | read (place : ℕ) (next : α → MemoryRead α ρ)

namespace MemoryRead

variable {α ρ τ : Type}

def andThen (first : MemoryRead α ρ) (next : ρ → MemoryRead α τ) : MemoryRead α τ :=
  match first with
  | .done result => next result
  | .read place rest => .read place fun value ↦ (rest value).andThen next

instance : Monad (MemoryRead α) where
  pure := .done
  bind := andThen

/-- Read one place. -/
def readAt (place : ℕ) : MemoryRead α α := .read place .done

/-- Read `count` places from `start` on, in order. -/
def readRange : (start count : ℕ) → MemoryRead α (List α)
  | _, 0 => pure []
  | start, count + 1 => do
    let value ← readAt start
    let values ← readRange (start + 1) count
    pure (value :: values)

/-- The result on a memory. -/
def result (memory : ℕ → α) : MemoryRead α ρ → ρ
  | .done result => result
  | .read place next => (next (memory place)).result memory

/-- The places read on a memory, in order. -/
def places (memory : ℕ → α) : MemoryRead α ρ → List ℕ
  | .done _ => []
  | .read place next => place :: (next (memory place)).places memory

/-- Nothing is read at or above `limit`. -/
def Within (limit : ℕ) (memory : ℕ → α) (computation : MemoryRead α ρ) : Prop :=
  ∀ place ∈ computation.places memory, place < limit

instance (limit : ℕ) (memory : ℕ → α) (computation : MemoryRead α ρ) :
    Decidable (computation.Within limit memory) := by
  unfold Within
  infer_instance

variable (memory : ℕ → α)

@[simp]
theorem result_pure (value : ρ) : (pure value : MemoryRead α ρ).result memory = value := rfl

@[simp]
theorem places_pure (value : ρ) : (pure value : MemoryRead α ρ).places memory = [] := rfl

@[simp]
theorem result_readAt (place : ℕ) : (readAt place).result memory = memory place := rfl

@[simp]
theorem places_readAt (place : ℕ) : (readAt place).places memory = [place] := rfl

@[simp]
theorem result_bind (first : MemoryRead α ρ) (next : ρ → MemoryRead α τ) :
    (first >>= next).result memory = (next (first.result memory)).result memory := by
  induction first with
  | done value => rfl
  | read place rest ih => exact ih (memory place)

@[simp]
theorem places_bind (first : MemoryRead α ρ) (next : ρ → MemoryRead α τ) :
    (first >>= next).places memory =
      first.places memory ++ (next (first.result memory)).places memory := by
  induction first with
  | done value => rfl
  | read place rest ih => exact congrArg (place :: ·) (ih (memory place))

@[simp]
theorem result_readRange (start count : ℕ) :
    (readRange start count).result memory = (List.range' start count).map memory := by
  induction count generalizing start with
  | zero => rfl
  | succ count ih =>
    rw [readRange, result_bind, result_bind, ih (start + 1), List.range'_succ]
    rfl

@[simp]
theorem places_readRange (start count : ℕ) :
    (readRange start count).places memory = List.range' start count := by
  induction count generalizing start with
  | zero => rfl
  | succ count ih =>
    rw [readRange, places_bind, places_bind, ih (start + 1), List.range'_succ]
    simp

section Within

variable {memory} {limit : ℕ}

@[simp]
theorem within_pure (value : ρ) : (pure value : MemoryRead α ρ).Within limit memory := by
  simp [Within]

@[simp]
theorem within_readAt {place : ℕ} : (readAt place).Within limit memory ↔ place < limit := by
  simp [Within]

@[simp]
theorem within_bind {first : MemoryRead α ρ} {next : ρ → MemoryRead α τ} :
    (first >>= next).Within limit memory ↔
      first.Within limit memory ∧ (next (first.result memory)).Within limit memory := by
  simp only [Within, places_bind, List.forall_mem_append]

/-- A range is read below the limit if and only if it ends there or is empty. -/
@[simp]
theorem within_readRange {start count : ℕ} :
    (readRange start count).Within limit memory ↔ count = 0 ∨ start + count ≤ limit := by
  simp only [Within, places_readRange, List.mem_range'_1]
  constructor
  · intro hplaces
    by_contra! hrange
    have hlast := hplaces (start + (count - 1)) (by omega)
    omega
  · intro hrange place hplace
    omega

end Within

end MemoryRead

/-- A range of a memory, as a part of what lies below `limit`. -/
theorem map_range'_eq_take_drop {α : Type*} (memory : ℕ → α) {start count limit : ℕ}
    (hrange : start + count ≤ limit) :
    (List.range' start count).map memory =
      (((List.range limit).map memory).drop start).take count := by
  apply List.ext_getElem?
  intro index
  rw [List.getElem?_take, List.getElem?_drop, List.getElem?_map, List.getElem?_map]
  split
  · rw [List.getElem?_range' ‹_›, List.getElem?_range (by omega), Nat.one_mul]
  · rw [List.getElem?_eq_none (by rw [List.length_range']; omega)]
    rfl

end LibuvNet.Foundation
