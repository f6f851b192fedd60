import LibuvNet.Foundation.Run
import Mathlib.Data.Fintype.BigOperators

/-!
# The thread pool

`ThreadPool` as the interleaving of any number of producers, of its workers and of the thread that
runs its destructor.  Every section under `queue_mutex_` is one step, and so is every notification,
which is sent after the lock has been released and may be delayed.  `wait` with a predicate tests
it under the lock and blocks in the same step; a blocked worker that is woken, by a notification or
for no reason, tests it again.

Next to its members the pool keeps the history of its tasks: those it accepted, those the workers
have taken and those that have been run to the end, each in order.
-/

namespace LibuvNet

open Foundation

namespace ThreadPool

/-- Where a worker stands: about to take the lock, waiting on the condition, running a task, or
returned. -/
inductive Worker (τ : Type*) where
  | ready
  | blocked
  | running (task : τ)
  | exited
  deriving DecidableEq

namespace Worker

variable {τ : Type*}

def isBlocked : Worker τ → Bool
  | blocked => true
  | _ => false

def tasks : Worker τ → Multiset τ
  | running task => {task}
  | _ => 0

def wake : Worker τ → Worker τ
  | blocked => ready
  | worker => worker

end Worker

/-- Where the destructor stands: not called, `stop_` is set, or so many threads are joined. -/
inductive Destructor where
  | uncalled
  | stopped
  | joining (count : ℕ)
  deriving DecidableEq

/-- A thread pool with `n` workers; `notifies` counts the calls of `notify_one` that are still to
come. -/
structure Pool (n : ℕ) (τ : Type*) where
  tasks : List τ
  stop : Bool
  workers : Fin n → Worker τ
  notifies : ℕ
  destructor : Destructor
  accepted : List τ
  taken : List τ
  finished : List τ

variable {n : ℕ} {τ : Type*}

namespace Pool

/-- The constructor: every thread runs up to its first `wait`. -/
def initial (n : ℕ) : Pool n τ where
  tasks := []
  stop := false
  workers _ := .ready
  notifies := 0
  destructor := .uncalled
  accepted := []
  taken := []
  finished := []

variable (pool : Pool n τ)

def running : Multiset τ := ∑ i, (pool.workers i).tasks

def setWorker (i : Fin n) (worker : Worker τ) : Pool n τ :=
  { pool with workers := Function.update pool.workers i worker }

@[simp]
theorem setWorker_self (i : Fin n) (worker : Worker τ) :
    (pool.setWorker i worker).workers i = worker := by
  simp only [setWorker, Function.update_self]

variable {pool} in
theorem setWorker_of_ne {i j : Fin n} (hij : j ≠ i) {worker : Worker τ} :
    (pool.setWorker i worker).workers j = pool.workers j := by
  simp only [setWorker, Function.update_of_ne hij]

/-- `tasks_.emplace`, after which the producer has a notification to send. -/
def emplace (task : τ) : Pool n τ :=
  { pool with
    tasks := pool.tasks ++ [task]
    accepted := pool.accepted ++ [task]
    notifies := pool.notifies + 1 }

/-- The section of `ThreadPool::enqueue` under the lock. -/
def enqueue (task : τ) : Pool n τ :=
  if pool.stop then pool else pool.emplace task

/-- The section of `ThreadPool::submit` under the lock, or the error it throws. -/
def submit (task : τ) : Except String (Pool n τ) :=
  if pool.stop then .error "线程池已停止，无法提交新任务" else .ok (pool.emplace task)

/-- The section of the worker loop under the lock.  With tasks in the queue the predicate of `wait`
holds and the first of them is taken; without, it holds once `stop_` is set, and the worker
returns. -/
def work (i : Fin n) : Pool n τ :=
  match pool.tasks with
  | [] => pool.setWorker i (if pool.stop then .exited else .blocked)
  | task :: tasks =>
    { pool.setWorker i (.running task) with tasks := tasks, taken := pool.taken ++ [task] }

end Pool

/-- A step of one of the threads.  `notifyOne` wakes a blocked worker if there is one, `wakeUp` is
for no reason, and `join` waits for the next worker to return. -/
inductive Event (n : ℕ) (τ : Type*) where
  | enqueue (task : τ)
  | submit (task : τ)
  | notifyOne (woken : Option (Fin n))
  | work (i : Fin n)
  | finish (i : Fin n)
  | wakeUp (i : Fin n)
  | setStop
  | notifyAll
  | join
  deriving DecidableEq

def step (pool : Pool n τ) : Event n τ → Option (Pool n τ)
  | .enqueue task => some (pool.enqueue task)
  | .submit task =>
    match pool.submit task with
    | .ok pool => some pool
    | .error _ => some pool
  | .notifyOne woken =>
    if pool.notifies = 0 then none
    else
      match woken with
      | some i =>
        if (pool.workers i).isBlocked then
          some { pool.setWorker i .ready with notifies := pool.notifies - 1 }
        else none
      | none =>
        if ∃ i, (pool.workers i).isBlocked then none
        else some { pool with notifies := pool.notifies - 1 }
  | .work i =>
    match pool.workers i with
    | .ready => some (pool.work i)
    | _ => none
  | .finish i =>
    match pool.workers i with
    | .running task =>
      some { pool.setWorker i .ready with finished := pool.finished ++ [task] }
    | _ => none
  | .wakeUp i =>
    if (pool.workers i).isBlocked then some (pool.setWorker i .ready) else none
  | .setStop =>
    if pool.destructor = .uncalled then some { pool with stop := true, destructor := .stopped }
    else none
  | .notifyAll =>
    if pool.destructor = .stopped then
      some { pool with workers := fun i ↦ (pool.workers i).wake, destructor := .joining 0 }
    else none
  | .join =>
    match pool.destructor with
    | .joining count =>
      if h : count < n then
        match pool.workers ⟨count, h⟩ with
        | .exited => some { pool with destructor := .joining (count + 1) }
        | _ => none
      else none
    | _ => none

/-! ## What a step can do -/

/-- What one step can do to a pool, and when. -/
inductive Move (pool : Pool n τ) : Pool n τ → Prop
  | reject (hstop : pool.stop) : Move pool pool
  | emplace (task : τ) (hstop : ¬ pool.stop) : Move pool (pool.emplace task)
  | notify (i : Fin n) (hpending : 0 < pool.notifies) (hblocked : pool.workers i = .blocked) :
      Move pool { pool.setWorker i .ready with notifies := pool.notifies - 1 }
  | notifyNobody (hpending : 0 < pool.notifies) (hnobody : ∀ i, pool.workers i ≠ .blocked) :
      Move pool { pool with notifies := pool.notifies - 1 }
  | block (i : Fin n) (hready : pool.workers i = .ready) (htasks : pool.tasks = [])
      (hstop : ¬ pool.stop) : Move pool (pool.setWorker i .blocked)
  | exit (i : Fin n) (hready : pool.workers i = .ready) (htasks : pool.tasks = [])
      (hstop : pool.stop) : Move pool (pool.setWorker i .exited)
  | take (i : Fin n) (task : τ) (tasks : List τ) (hready : pool.workers i = .ready)
      (htasks : pool.tasks = task :: tasks) :
      Move pool
        { pool.setWorker i (.running task) with tasks := tasks, taken := pool.taken ++ [task] }
  | finish (i : Fin n) (task : τ) (hrunning : pool.workers i = .running task) :
      Move pool { pool.setWorker i .ready with finished := pool.finished ++ [task] }
  | wakeUp (i : Fin n) (hblocked : pool.workers i = .blocked) :
      Move pool (pool.setWorker i .ready)
  | setStop (huncalled : pool.destructor = .uncalled) :
      Move pool { pool with stop := true, destructor := .stopped }
  | notifyAll (hstopped : pool.destructor = .stopped) :
      Move pool
        { pool with workers := fun i ↦ (pool.workers i).wake, destructor := .joining 0 }
  | join (count : ℕ) (hcount : count < n) (hjoining : pool.destructor = .joining count)
      (hexited : pool.workers ⟨count, hcount⟩ = .exited) :
      Move pool { pool with destructor := .joining (count + 1) }

theorem Worker.isBlocked_iff {worker : Worker τ} : worker.isBlocked ↔ worker = .blocked := by
  cases worker <;> simp [isBlocked]

theorem move_of_step {pool next : Pool n τ} {event : Event n τ}
    (hstep : step pool event = some next) : Move pool next := by
  cases event with
  | enqueue task =>
    cases hstep
    unfold Pool.enqueue
    split
    · rename_i hstop
      exact .reject hstop
    · rename_i hstop
      exact .emplace task hstop
  | submit task =>
    simp only [step, Pool.submit] at hstep
    by_cases hstop : pool.stop
    · rw [if_pos hstop] at hstep
      cases hstep
      exact .reject hstop
    · rw [if_neg hstop] at hstep
      cases hstep
      exact .emplace task hstop
  | notifyOne woken =>
    simp only [step] at hstep
    split at hstep
    · cases hstep
    · rename_i hpending
      replace hpending := Nat.pos_of_ne_zero hpending
      cases woken with
      | some i =>
        dsimp only at hstep
        split at hstep <;> cases hstep
        rename_i hblocked
        exact .notify i hpending (Worker.isBlocked_iff.mp hblocked)
      | none =>
        dsimp only at hstep
        split at hstep <;> cases hstep
        rename_i hnobody
        apply Move.notifyNobody hpending
        exact fun i hblocked ↦ hnobody ⟨i, Worker.isBlocked_iff.mpr hblocked⟩
  | work i =>
    simp only [step] at hstep
    split at hstep <;> cases hstep
    rename_i hready
    unfold Pool.work
    split
    · rename_i htasks
      split
      · rename_i hstop
        exact .exit i hready htasks hstop
      · rename_i hstop
        exact .block i hready htasks hstop
    · rename_i task tasks htasks
      exact .take i task tasks hready htasks
  | finish i =>
    simp only [step] at hstep
    split at hstep <;> cases hstep
    rename_i task hrunning
    exact .finish i task hrunning
  | wakeUp i =>
    simp only [step] at hstep
    split at hstep <;> cases hstep
    rename_i hblocked
    exact .wakeUp i (Worker.isBlocked_iff.mp hblocked)
  | setStop =>
    simp only [step] at hstep
    split at hstep <;> cases hstep
    rename_i huncalled
    exact .setStop huncalled
  | notifyAll =>
    simp only [step] at hstep
    split at hstep <;> cases hstep
    rename_i hstopped
    exact .notifyAll hstopped
  | join =>
    simp only [step] at hstep
    split at hstep
    · rename_i count hjoining
      split at hstep
      · rename_i hcount
        split at hstep <;> cases hstep
        rename_i hexited
        exact .join count hcount hjoining hexited
      · cases hstep
    · cases hstep

end ThreadPool

end LibuvNet
