import LibuvNet.ThreadPool.Pool
import Mathlib.Tactic.Abel

/-!
# Conservation of tasks

Every task the pool has accepted is in the queue, being run by one worker, or finished, and the
workers take the tasks in the order in which they were accepted.  Once `stop_` is set no task is
accepted any more.
-/

namespace LibuvNet

open Foundation

namespace ThreadPool

variable {n : ℕ} {τ : Type*}

/-- Changing one of the values whose images are summed. -/
theorem sum_apply_update_add {ι α M : Type*} [Fintype ι] [DecidableEq ι] [AddCommMonoid M]
    (f : α → M) (values : ι → α) (i : ι) (value : α) :
    ∑ j, f (Function.update values i value j) + f (values i) = ∑ j, f (values j) + f value := by
  have hupdate : (fun j ↦ f (Function.update values i value j)) =
      Function.update (fun j ↦ f (values j)) i (f value) := by
    funext j
    exact Function.apply_update (fun _ ↦ f) values i value j
  calc ∑ j, f (Function.update values i value j) + f (values i)
      = f value + ∑ j ∈ Finset.univ.erase i, f (values j) + f (values i) := by
        rw [hupdate, Finset.sum_update_of_mem (Finset.mem_univ i),
          Finset.sdiff_singleton_eq_erase]
    _ = f value + ∑ j, f (values j) := by
        rw [add_assoc, Finset.sum_erase_add _ _ (Finset.mem_univ i)]
    _ = ∑ j, f (values j) + f value := add_comm _ _

namespace Pool

variable (pool : Pool n τ) {i : Fin n} {worker : Worker τ}

theorem running_setWorker (i : Fin n) (worker : Worker τ) :
    (pool.setWorker i worker).running + (pool.workers i).tasks = pool.running + worker.tasks :=
  sum_apply_update_add Worker.tasks pool.workers i worker

/-- A worker that takes up and puts down no task. -/
theorem running_setWorker_of_eq (htasks : (pool.workers i).tasks = worker.tasks) :
    (pool.setWorker i worker).running = pool.running := by
  have hrunning := pool.running_setWorker i worker
  rw [htasks] at hrunning
  exact add_right_cancel hrunning

/-- A worker takes up a task. -/
theorem running_setWorker_running (htasks : (pool.workers i).tasks = 0) (task : τ) :
    (pool.setWorker i (.running task)).running = pool.running + {task} := by
  have hrunning := pool.running_setWorker i (.running task)
  rwa [htasks, add_zero] at hrunning

/-- A worker puts down its task. -/
theorem running_setWorker_ready {task : τ} (htasks : pool.workers i = .running task) :
    (pool.setWorker i .ready).running + {task} = pool.running := by
  have hrunning := pool.running_setWorker i .ready
  rwa [htasks, show (Worker.ready : Worker τ).tasks = 0 from rfl, add_zero] at hrunning

end Pool

/-- Accepted tasks are queued, running or finished, and are taken in order. -/
structure Conserved (pool : Pool n τ) : Prop where
  balance : (pool.accepted : Multiset τ) = pool.tasks + pool.running + pool.finished
  order : pool.accepted = pool.taken ++ pool.tasks

namespace Conserved

variable {pool next : Pool n τ}

theorem initial (n : ℕ) : Conserved (.initial n : Pool n τ) where
  balance := by
    have hrunning : (Pool.initial n : Pool n τ).running = 0 := Finset.sum_const_zero
    rw [hrunning]
    rfl
  order := rfl

/-- The tasks are all that matters. -/
theorem congr (hconserved : Conserved pool) (htasks : next.tasks = pool.tasks)
    (hrunning : next.running = pool.running) (haccepted : next.accepted = pool.accepted)
    (htaken : next.taken = pool.taken) (hfinished : next.finished = pool.finished) :
    Conserved next := by
  constructor
  · rw [haccepted, htasks, hrunning, hfinished]
    exact hconserved.balance
  · rw [haccepted, htaken, htasks]
    exact hconserved.order

theorem emplace (hconserved : Conserved pool) (task : τ) : Conserved (pool.emplace task) where
  balance := by
    calc ((pool.accepted ++ [task] : List τ) : Multiset τ)
        = pool.accepted + {task} := rfl
      _ = pool.tasks + pool.running + pool.finished + {task} := by rw [hconserved.balance]
      _ = pool.tasks + {task} + pool.running + pool.finished := by abel
      _ = ((pool.tasks ++ [task] : List τ) : Multiset τ) + pool.running + pool.finished := rfl
  order := by
    calc pool.accepted ++ [task]
        = pool.taken ++ pool.tasks ++ [task] := by rw [hconserved.order]
      _ = pool.taken ++ (pool.tasks ++ [task]) := List.append_assoc ..

theorem take (hconserved : Conserved pool) {i : Fin n} {task : τ} {tasks : List τ}
    (hready : pool.workers i = .ready) (htasks : pool.tasks = task :: tasks) :
    Conserved
      { pool.setWorker i (.running task) with tasks := tasks, taken := pool.taken ++ [task] } where
  balance := by
    have hnone : (pool.workers i).tasks = 0 := by rw [hready]; rfl
    calc (pool.accepted : Multiset τ)
        = (task :: tasks : List τ) + pool.running + pool.finished := by
          rw [hconserved.balance, htasks]
      _ = {task} + tasks + pool.running + pool.finished := rfl
      _ = tasks + (pool.running + {task}) + pool.finished := by abel
      _ = tasks + (pool.setWorker i (.running task)).running + pool.finished := by
          rw [pool.running_setWorker_running hnone task]
  order := by
    calc pool.accepted
        = pool.taken ++ task :: tasks := by rw [hconserved.order, htasks]
      _ = pool.taken ++ [task] ++ tasks := by
          rw [List.append_assoc, List.singleton_append]

theorem finish (hconserved : Conserved pool) {i : Fin n} {task : τ}
    (hrunning : pool.workers i = .running task) :
    Conserved { pool.setWorker i .ready with finished := pool.finished ++ [task] } where
  balance := by
    calc (pool.accepted : Multiset τ)
        = pool.tasks + pool.running + pool.finished := hconserved.balance
      _ = pool.tasks + ((pool.setWorker i .ready).running + {task}) + pool.finished := by
          rw [pool.running_setWorker_ready hrunning]
      _ = pool.tasks + (pool.setWorker i .ready).running + (pool.finished + {task}) := by abel
      _ = pool.tasks + (pool.setWorker i .ready).running +
            ((pool.finished ++ [task] : List τ) : Multiset τ) := rfl
  order := hconserved.order

/-- A worker that takes up and puts down no task. -/
theorem setWorker (hconserved : Conserved pool) {i : Fin n} {worker : Worker τ}
    (hnone : (pool.workers i).tasks = 0) (hnone' : worker.tasks = 0) :
    Conserved (pool.setWorker i worker) := by
  have hrunning : (pool.setWorker i worker).running = pool.running :=
    pool.running_setWorker_of_eq (hnone.trans hnone'.symm)
  exact hconserved.congr rfl hrunning rfl rfl rfl

/-- Every step conserves the tasks. -/
theorem move (hconserved : Conserved pool) (hmove : Move pool next) : Conserved next := by
  cases hmove with
  | reject => exact hconserved
  | emplace task => exact hconserved.emplace task
  | notify i _ hblocked =>
    have hawake : Conserved (pool.setWorker i .ready) :=
      hconserved.setWorker (by rw [hblocked]; rfl) rfl
    exact hawake.congr rfl rfl rfl rfl rfl
  | notifyNobody => exact hconserved.congr rfl rfl rfl rfl rfl
  | block i hready => exact hconserved.setWorker (by rw [hready]; rfl) rfl
  | exit i hready => exact hconserved.setWorker (by rw [hready]; rfl) rfl
  | take i task tasks hready htasks => exact hconserved.take hready htasks
  | finish i task hrunning => exact hconserved.finish hrunning
  | wakeUp i hblocked => exact hconserved.setWorker (by rw [hblocked]; rfl) rfl
  | setStop => exact hconserved.congr rfl rfl rfl rfl rfl
  | notifyAll =>
    have hrunning : ∑ i, (pool.workers i).wake.tasks = ∑ i, (pool.workers i).tasks := by
      apply Finset.sum_congr rfl
      intro i _
      cases pool.workers i <;> rfl
    exact hconserved.congr rfl hrunning rfl rfl rfl
  | join => exact hconserved.congr rfl rfl rfl rfl rfl

theorem run {events : List (Event n τ)} (hconserved : Conserved pool)
    (hrun : runFrom step events pool = some next) : Conserved next := by
  have hstep {pool next : Pool n τ} {event : Event n τ} (hconserved : Conserved pool)
      (hstep : step pool event = some next) : Conserved next :=
    hconserved.move (move_of_step hstep)
  exact runFrom_invariant hstep hconserved hrun

/-- The tasks taken are those that are running or finished. -/
theorem taken_eq (hconserved : Conserved pool) :
    (pool.taken : Multiset τ) = pool.running + pool.finished := by
  have hbalance : (pool.taken : Multiset τ) + pool.tasks =
      pool.running + pool.finished + pool.tasks := by
    calc (pool.taken : Multiset τ) + pool.tasks
        = (pool.taken ++ pool.tasks : List τ) := rfl
      _ = pool.accepted := by rw [hconserved.order]
      _ = pool.tasks + pool.running + pool.finished := hconserved.balance
      _ = pool.running + pool.finished + pool.tasks := by abel
  exact add_right_cancel hbalance

end Conserved

/-- A pool that is stopped and has accepted these tasks. -/
structure StoppedWith (accepted : List τ) (pool : Pool n τ) : Prop where
  stop : pool.stop
  accepted : pool.accepted = accepted

/-- Once `stop_` is set it stays set, and no task is accepted. -/
theorem StoppedWith.move {accepted : List τ} {pool next : Pool n τ}
    (hstopped : StoppedWith accepted pool) (hmove : Move pool next) :
    StoppedWith accepted next := by
  cases hmove with
  | emplace task hstop => exact absurd hstopped.stop hstop
  | setStop => exact ⟨rfl, hstopped.accepted⟩
  | reject | notify | notifyNobody | block | exit | take | finish | wakeUp | notifyAll | join =>
    exact ⟨hstopped.stop, hstopped.accepted⟩

theorem StoppedWith.run {accepted : List τ} {pool next : Pool n τ} {events : List (Event n τ)}
    (hstopped : StoppedWith accepted pool) (hrun : runFrom step events pool = some next) :
    StoppedWith accepted next := by
  have hstep {pool next : Pool n τ} {event : Event n τ} (hstopped : StoppedWith accepted pool)
      (hstep : step pool event = some next) : StoppedWith accepted next :=
    hstopped.move (move_of_step hstep)
  exact runFrom_invariant hstep hstopped hrun

/-- **Conservation and order.** In every reachable state the accepted tasks are exactly the queued,
the running and the finished ones; the tasks taken by workers are the first of those accepted, in
the same order; and if `stop_` is set, no later state has accepted another task. -/
theorem tasks_conserved (events : List (Event n τ)) (pool : Pool n τ)
    (hrun : runFrom step events (.initial n) = some pool) :
    (pool.accepted : Multiset τ) = pool.tasks + pool.running + pool.finished ∧
      (pool.taken : Multiset τ) = pool.running + pool.finished ∧
      pool.accepted = pool.taken ++ pool.tasks ∧
      (pool.stop → ∀ later last, runFrom step later pool = some last →
        last.accepted = pool.accepted) := by
  have hconserved : Conserved pool := (Conserved.initial n).run hrun
  refine ⟨hconserved.balance, hconserved.taken_eq, hconserved.order, ?_⟩
  intro hstop later last hlater
  have hstopped : StoppedWith pool.accepted pool := ⟨hstop, rfl⟩
  exact (hstopped.run hlater).accepted

/-- Two workers, three tasks and a shutdown while the last one is queued. -/
def shutdownEvents : List (Event 2 ℕ) :=
  [.work 0, .enqueue 7, .notifyOne (some 0), .submit 8, .work 1, .work 0, .notifyOne none,
    .enqueue 9, .setStop, .enqueue 10, .notifyOne none, .finish 0, .notifyAll]

theorem tasks_conserved_shutdown :
    ∃ pool, runFrom step shutdownEvents (.initial 2) = some pool ∧
      pool.accepted = [7, 8, 9] ∧ pool.taken = [7, 8] ∧
      (pool.taken : Multiset ℕ) = pool.running + pool.finished :=
  ⟨_, rfl, rfl, rfl, (tasks_conserved shutdownEvents _ rfl).2.1⟩

end ThreadPool

end LibuvNet
