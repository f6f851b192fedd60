import LibuvNet.ThreadPool.Conservation

/-!
# Shutdown of the thread pool

A worker returns only when `stop_` is set and the queue is empty, and from then on the queue stays
empty.  So once the destructor has joined a worker, nothing is left to do.  A pool without workers,
which the constructor also accepts, has nobody to join and leaves its queue as it is.
-/

namespace LibuvNet

open Foundation

namespace ThreadPool

variable {n : ℕ} {τ : Type*} {pool next : Pool n τ}

/-- A worker that has returned stays so. -/
theorem exited_of_move (hmove : Move pool next) {j : Fin n} (hexited : pool.workers j = .exited) :
    next.workers j = .exited := by
  have hkeep {i : Fin n} {worker : Worker τ} (hi : pool.workers i ≠ .exited) :
      (pool.setWorker i worker).workers j = .exited := by
    have hij : j ≠ i := by
      rintro rfl
      exact hi hexited
    rw [Pool.setWorker_of_ne hij]
    exact hexited
  cases hmove with
  | notify i _ hblocked => exact hkeep (by rw [hblocked]; exact nofun)
  | block i hready => exact hkeep (by rw [hready]; exact nofun)
  | exit i hready => exact hkeep (by rw [hready]; exact nofun)
  | take i task tasks hready => exact hkeep (by rw [hready]; exact nofun)
  | finish i task hrunning => exact hkeep (by rw [hrunning]; exact nofun)
  | wakeUp i hblocked => exact hkeep (by rw [hblocked]; exact nofun)
  | notifyAll =>
    change (pool.workers j).wake = .exited
    rw [hexited]
    rfl
  | reject | emplace | notifyNobody | setStop | join => exact hexited

/-- A worker returns only from a stopped pool with an empty queue. -/
theorem exited_cases (hmove : Move pool next) {j : Fin n} (hexited : next.workers j = .exited) :
    pool.workers j = .exited ∨ pool.stop ∧ pool.tasks = [] := by
  have hback {i : Fin n} {worker : Worker τ} (hworker : worker ≠ .exited)
      (hexited : (pool.setWorker i worker).workers j = .exited) : pool.workers j = .exited := by
    by_cases hij : j = i
    · subst hij
      rw [Pool.setWorker_self] at hexited
      exact absurd hexited hworker
    · rwa [Pool.setWorker_of_ne hij] at hexited
  cases hmove with
  | notify i => exact .inl (hback (by simp) hexited)
  | block i => exact .inl (hback (by simp) hexited)
  | exit i hready htasks hstop => exact .inr ⟨hstop, htasks⟩
  | take i task tasks => exact .inl (hback (by simp) hexited)
  | finish i task => exact .inl (hback (by simp) hexited)
  | wakeUp i => exact .inl (hback (by simp) hexited)
  | notifyAll =>
    left
    change (pool.workers j).wake = .exited at hexited
    cases hworker : pool.workers j with
    | exited => rfl
    | ready | blocked | running => rw [hworker] at hexited; cases hexited
  | reject | emplace | notifyNobody | setStop | join => exact .inl hexited

/-- Where a worker has returned there is nothing left to do, and those joined have returned. -/
structure Drained (pool : Pool n τ) : Prop where
  exited : ∀ i, pool.workers i = .exited → pool.stop ∧ pool.tasks = []
  joined : ∀ count, pool.destructor = .joining count →
    ∀ i : Fin n, i < count → pool.workers i = .exited

namespace Drained

theorem initial (n : ℕ) : Drained (.initial n : Pool n τ) where
  exited := nofun
  joined := nofun

/-- A stopped pool with an empty queue stays as it is. -/
theorem stop_move (hmove : Move pool next) (hstop : pool.stop) (htasks : pool.tasks = []) :
    next.stop ∧ next.tasks = [] := by
  cases hmove with
  | emplace task hnot => exact absurd hstop hnot
  | take i task tasks _ hqueued => exact nomatch htasks.symm.trans hqueued
  | setStop => exact ⟨rfl, htasks⟩
  | reject | notify | notifyNobody | block | exit | finish | wakeUp | notifyAll | join =>
    exact ⟨hstop, htasks⟩

theorem move (hdrained : Drained pool) (hmove : Move pool next) : Drained next where
  exited j hexited := by
    rcases exited_cases hmove hexited with hbefore | ⟨hstop, htasks⟩
    · obtain ⟨hstop, htasks⟩ := hdrained.exited j hbefore
      exact stop_move hmove hstop htasks
    · exact stop_move hmove hstop htasks
  joined count hjoining j hj := by
    have hkeep (hbefore : pool.destructor = .joining count) : next.workers j = .exited :=
      exited_of_move hmove (hdrained.joined count hbefore j hj)
    cases hmove with
    | setStop => cases hjoining
    | notifyAll =>
      cases hjoining
      exact absurd hj (Nat.not_lt_zero j)
    | join before hbefore hwas hexited =>
      cases hjoining
      rcases Nat.lt_succ_iff_lt_or_eq.mp hj with hlt | heq
      · exact hdrained.joined before hwas j hlt
      · have hj' : j = ⟨before, hbefore⟩ := Fin.ext heq
        rw [hj']
        exact hexited
    | reject | emplace | notify | notifyNobody | block | exit | take | finish | wakeUp =>
      exact hkeep hjoining

theorem run {events : List (Event n τ)} (hdrained : Drained pool)
    (hrun : runFrom step events pool = some next) : Drained next := by
  have hstep {pool next : Pool n τ} {event : Event n τ} (hdrained : Drained pool)
      (hstep : step pool event = some next) : Drained next :=
    hdrained.move (move_of_step hstep)
  exact runFrom_invariant hstep hdrained hrun

/-- When all workers are joined, nothing is queued or running. -/
theorem of_joined (hdrained : Drained pool) (hjoined : pool.destructor = .joining n) (hn : 0 < n) :
    pool.tasks = [] ∧ pool.running = 0 := by
  have hexited (i : Fin n) : pool.workers i = .exited := hdrained.joined n hjoined i i.isLt
  constructor
  · exact (hdrained.exited ⟨0, hn⟩ (hexited ⟨0, hn⟩)).2
  · apply Finset.sum_eq_zero
    intro i _
    rw [hexited i]
    rfl

end Drained

/-- Without workers no task is ever finished. -/
theorem finished_of_no_workers {pool next : Pool 0 τ} {events : List (Event 0 τ)}
    (hfinished : pool.finished = []) (hrun : runFrom step events pool = some next) :
    next.finished = [] := by
  have hstep {pool next : Pool 0 τ} {event : Event 0 τ} (hfinished : pool.finished = [])
      (hstep : step pool event = some next) : next.finished = [] := by
    cases move_of_step hstep with
    | finish i => exact i.elim0
    | _ => exact hfinished
  exact runFrom_invariant hstep hfinished hrun

/-- **Shutdown.** When the destructor has joined all its workers, the queue is empty and every
accepted task has been run exactly once, if and only if there is a worker or no task was
accepted. -/
theorem shutdown_drains_iff (events : List (Event n τ)) (pool : Pool n τ)
    (hrun : runFrom step events (.initial n) = some pool)
    (hjoined : pool.destructor = .joining n) :
    pool.tasks = [] ∧ pool.finished.Perm pool.accepted ↔ 0 < n ∨ pool.accepted = [] := by
  have hconserved : Conserved pool := (Conserved.initial n).run hrun
  have hbalance := hconserved.balance
  constructor
  · rintro ⟨-, hperm⟩
    rcases Nat.eq_zero_or_pos n with rfl | hn
    · right
      rw [finished_of_no_workers rfl hrun] at hperm
      exact List.nil_perm.mp hperm
    · exact .inl hn
  · rintro (hn | hnone)
    · have hdrained : Drained pool := (Drained.initial n).run hrun
      obtain ⟨htasks, hrunning⟩ := hdrained.of_joined hjoined hn
      rw [htasks, hrunning, add_zero, Multiset.coe_nil, zero_add] at hbalance
      exact ⟨htasks, Multiset.coe_eq_coe.mp hbalance.symm⟩
    · have horder := hconserved.order
      rw [hnone] at horder
      obtain ⟨-, htasks⟩ := List.append_eq_nil_iff.mp horder.symm
      have hfinished : (pool.finished : Multiset τ) ≤ 0 := by
        calc (pool.finished : Multiset τ)
            ≤ pool.tasks + pool.running + pool.finished := Multiset.le_add_left _ _
          _ = (pool.accepted : Multiset τ) := hbalance.symm
          _ = 0 := by rw [hnone, Multiset.coe_nil]
      rw [Multiset.le_zero, Multiset.coe_eq_zero] at hfinished
      rw [hnone, hfinished]
      exact ⟨htasks, List.Perm.refl []⟩

/-- One worker, which finishes its task and the queued one before it returns. -/
def drainEvents : List (Event 1 ℕ) :=
  [.enqueue 7, .enqueue 8, .work 0, .setStop, .notifyAll, .finish 0, .work 0, .finish 0, .work 0,
    .join]

theorem shutdown_drains_iff_one :
    ∃ pool, runFrom step drainEvents (.initial 1) = some pool ∧
      (pool.tasks = [] ∧ pool.finished.Perm pool.accepted ↔ 0 < 1 ∨ pool.accepted = []) :=
  ⟨_, rfl, shutdown_drains_iff drainEvents _ rfl rfl⟩

/-- A pool without workers is shut down with its task in the queue. -/
theorem task_never_run :
    ∃ pool, runFrom step [.enqueue 7, .setStop, .notifyAll] (.initial 0 : Pool 0 ℕ) = some pool ∧
      pool.destructor = .joining 0 ∧ ¬ (pool.tasks = [] ∧ pool.finished.Perm pool.accepted) :=
  ⟨_, rfl, rfl, nofun⟩

end ThreadPool

end LibuvNet
