import Mathlib.Data.List.Basic

/-!
# Timed logs

A log is a list of notes, each with the time at which it was made.  What matters to a watchdog is
when the last note of some kind was made.
-/

namespace LibuvNet.Foundation

variable {ν : Type*}

/-- The time of the last note of a kind, and 0 if there is none. -/
def lastTime (kind : ν → Prop) [DecidablePred kind] (log : List (ℕ × ν)) : ℕ :=
  log.foldl (fun last entry ↦ if kind entry.2 then entry.1 else last) 0

section LastTime

variable {kind : ν → Prop} [DecidablePred kind]

@[simp]
theorem lastTime_nil : lastTime kind [] = 0 := rfl

theorem lastTime_snoc (log : List (ℕ × ν)) (time : ℕ) (note : ν) :
    lastTime kind (log ++ [(time, note)]) = if kind note then time else lastTime kind log := by
  rw [lastTime, List.foldl_append]
  rfl

/-- A note of the kind counts. -/
theorem lastTime_snoc_of {note : ν} (hkind : kind note) (log : List (ℕ × ν)) (time : ℕ) :
    lastTime kind (log ++ [(time, note)]) = time := by
  rw [lastTime_snoc, if_pos hkind]

/-- Notes of other kinds do not. -/
theorem lastTime_append_of_not {later : List (ℕ × ν)} (hlater : ∀ entry ∈ later, ¬ kind entry.2)
    (log : List (ℕ × ν)) : lastTime kind (log ++ later) = lastTime kind log := by
  induction later generalizing log with
  | nil => rw [List.append_nil]
  | cons entry later ih =>
    obtain ⟨hentry, hrest⟩ := List.forall_mem_cons.mp hlater
    calc lastTime kind (log ++ entry :: later)
        = lastTime kind (log ++ [entry] ++ later) := by
          rw [List.append_assoc, List.singleton_append]
      _ = lastTime kind (log ++ [entry]) := ih hrest _
      _ = lastTime kind log := by rw [lastTime_snoc, if_neg hentry]

theorem lastTime_snoc_of_not {note : ν} (hkind : ¬ kind note) (log : List (ℕ × ν)) (time : ℕ) :
    lastTime kind (log ++ [(time, note)]) = lastTime kind log := by
  rw [lastTime_snoc, if_neg hkind]

end LastTime

end LibuvNet.Foundation
