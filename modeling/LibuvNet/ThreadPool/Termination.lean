import LibuvNet.Foundation.Descent
import LibuvNet.ThreadPool.Shutdown
import LibuvNet.ThreadPool.WakeUp
import Mathlib.Algebra.Order.BigOperators.Group.Finset

/-!
# The destructor of the thread pool returns

Once the destructor has been called no task is accepted and no worker blocks any more, so what is
left to do only becomes less: the queued tasks are taken and run, the workers return, the
notifications are sent and the threads are joined.  As long as not all of them are joined some
thread can go on, without waking up by chance.  So `~ThreadPool` returns under every schedule, if
every task that is run comes to its end.
-/

namespace LibuvNet

open Foundation

namespace ThreadPool

variable {n : ℕ} {τ : Type*}

/-- How much a worker has to do until it returns, tasks in the queue aside. -/
def Worker.toDo : Worker τ → ℕ
  | ready => 1
  | blocked | running _ => 2
  | exited => 0

/-- How much the destructor has to do. -/
def Destructor.toDo (n : ℕ) : Destructor → ℕ
  | uncalled => n + 2
  | stopped => n + 1
  | joining count => n - count

namespace Pool

variable (pool : Pool n τ)

/-- How much is left to do until all threads are joined. -/
def toDo : ℕ :=
  2 * pool.tasks.length + ∑ i, (pool.workers i).toDo + pool.notifies + pool.destructor.toDo n

/-- What the workers have to do when one of them moves. -/
theorem sum_toDo_setWorker (i : Fin n) (worker : Worker τ) :
    ∑ j, ((pool.setWorker i worker).workers j).toDo + (pool.workers i).toDo =
      ∑ j, (pool.workers j).toDo + worker.toDo :=
  sum_apply_update_add Worker.toDo pool.workers i worker

variable {pool} {i : Fin n}

theorem toDo_notify (hpending : 0 < pool.notifies) (hblocked : pool.workers i = .blocked) :
    toDo { pool.setWorker i .ready with notifies := pool.notifies - 1 } < pool.toDo := by
  have hsum := pool.sum_toDo_setWorker i .ready
  rw [hblocked] at hsum
  simp only [toDo, Worker.toDo, setWorker] at hsum ⊢
  omega

theorem toDo_wakeUp (hblocked : pool.workers i = .blocked) :
    (pool.setWorker i .ready).toDo < pool.toDo := by
  have hsum := pool.sum_toDo_setWorker i .ready
  rw [hblocked] at hsum
  simp only [toDo, Worker.toDo, setWorker] at hsum ⊢
  omega

theorem toDo_exit (hready : pool.workers i = .ready) :
    (pool.setWorker i .exited).toDo < pool.toDo := by
  have hsum := pool.sum_toDo_setWorker i .exited
  rw [hready] at hsum
  simp only [toDo, Worker.toDo, setWorker] at hsum ⊢
  omega

/-- A task in the queue weighs more than the worker that takes it gains. -/
theorem toDo_take {task : τ} {tasks : List τ} (hready : pool.workers i = .ready)
    (htasks : pool.tasks = task :: tasks) :
    toDo { pool.setWorker i (.running task) with tasks := tasks, taken := pool.taken ++ [task] } <
      pool.toDo := by
  have hsum := pool.sum_toDo_setWorker i (.running task)
  rw [hready] at hsum
  simp only [toDo, Worker.toDo, setWorker, htasks, List.length_cons] at hsum ⊢
  omega

theorem toDo_finish {task : τ} (hrunning : pool.workers i = .running task) :
    toDo { pool.setWorker i .ready with finished := pool.finished ++ [task] } < pool.toDo := by
  have hsum := pool.sum_toDo_setWorker i .ready
  rw [hrunning] at hsum
  simp only [toDo, Worker.toDo, setWorker] at hsum ⊢
  omega

theorem toDo_notifyAll (hstopped : pool.destructor = .stopped) :
    toDo { pool with workers := fun i ↦ (pool.workers i).wake, destructor := .joining 0 } <
      pool.toDo := by
  have hwake : ∑ i, (pool.workers i).wake.toDo ≤ ∑ i, (pool.workers i).toDo := by
    apply Finset.sum_le_sum
    intro i _
    cases pool.workers i <;> simp [Worker.wake, Worker.toDo]
  simp only [toDo, hstopped, Destructor.toDo]
  omega

theorem toDo_join {count : ℕ} (hcount : count < n) (hjoining : pool.destructor = .joining count) :
    toDo { pool with destructor := .joining (count + 1) } < pool.toDo := by
  simp only [toDo, hjoining, Destructor.toDo]
  omega

/-- Once the destructor has been called there is no more to do than this. -/
theorem toDo_le (hcalled : pool.destructor ≠ .uncalled) :
    pool.toDo ≤ 2 * pool.tasks.length + pool.notifies + 3 * n + 1 := by
  have hworkers : ∑ i, (pool.workers i).toDo ≤ n * 2 := by
    have hworker (i : Fin n) (_ : i ∈ Finset.univ) : (pool.workers i).toDo ≤ 2 := by
      cases pool.workers i <;> simp [Worker.toDo]
    simpa using Finset.sum_le_card_nsmul Finset.univ (fun i ↦ (pool.workers i).toDo) 2 hworker
  have hdestructor : pool.destructor.toDo n ≤ n + 1 := by
    cases hdestructor : pool.destructor with
    | uncalled => exact absurd hdestructor hcalled
    | stopped => exact le_rfl
    | joining count => exact (Nat.sub_le n count).trans (Nat.le_succ n)
  unfold toDo
  omega

end Pool

/-- An event that is not up to the user of the pool or to chance. -/
def Event.IsOwed : Event n τ → Prop
  | .enqueue _ | .submit _ | .wakeUp _ => False
  | _ => True

/-- The destructor has been called, joins no thread that does not exist, and wakes the others. -/
structure Ending (pool : Pool n τ) : Prop where
  called : pool.destructor ≠ .uncalled
  attentive : Attentive pool
  joined : ∀ count, pool.destructor = .joining count → count ≤ n

/-- The destructor joins no thread that does not exist. -/
theorem joined_move {pool next : Pool n τ} (hmove : Move pool next)
    (hjoined : ∀ count, pool.destructor = .joining count → count ≤ n) (count : ℕ)
    (hjoining : next.destructor = .joining count) : count ≤ n := by
  cases hmove with
  | setStop => cases hjoining
  | notifyAll =>
    cases hjoining
    exact Nat.zero_le n
  | join before hbefore =>
    cases hjoining
    exact hbefore
  | reject | emplace | notify | notifyNobody | block | exit | take | finish | wakeUp =>
    exact hjoined count hjoining

namespace Ending

variable {pool next : Pool n τ}

theorem of_run {events : List (Event n τ)} (hrun : runFrom step events (.initial n) = some pool)
    (hcalled : pool.destructor ≠ .uncalled) : Ending pool where
  called := hcalled
  attentive := (Attentive.initial n).run hrun
  joined := by
    have hstep {pool next : Pool n τ} {event : Event n τ}
        (hjoined : ∀ count, pool.destructor = .joining count → count ≤ n)
        (hstep : step pool event = some next) :
        ∀ count, next.destructor = .joining count → count ≤ n :=
      joined_move (move_of_step hstep) hjoined
    have hinitial : ∀ count, (Pool.initial n : Pool n τ).destructor = .joining count → count ≤ n :=
      fun _ hjoining ↦ by cases hjoining
    exact runFrom_invariant hstep hinitial hrun

theorem stop (hending : Ending pool) : pool.stop :=
  hending.attentive.stop hending.called

theorem move (hending : Ending pool) (hmove : Move pool next) : Ending next where
  called := by
    cases hmove with
    | setStop huncalled => exact absurd huncalled hending.called
    | notifyAll | join => exact Destructor.noConfusion
    | reject | emplace | notify | notifyNobody | block | exit | take | finish | wakeUp =>
      exact hending.called
  attentive := hending.attentive.move hmove
  joined := joined_move hmove hending.joined

/-- A step changes nothing, or less is left to do. -/
theorem lessen (hending : Ending pool) (hmove : Move pool next) :
    next = pool ∨ next.toDo < pool.toDo := by
  cases hmove with
  | reject => exact .inl rfl
  | emplace task hstop => exact absurd hending.stop hstop
  | notify i hpending hblocked => exact .inr (Pool.toDo_notify hpending hblocked)
  | notifyNobody hpending =>
    right
    simp only [Pool.toDo]
    omega
  | block i hready htasks hstop => exact absurd hending.stop hstop
  | exit i hready => exact .inr (Pool.toDo_exit hready)
  | take i task tasks hready htasks => exact .inr (Pool.toDo_take hready htasks)
  | finish i task hrunning => exact .inr (Pool.toDo_finish hrunning)
  | wakeUp i hblocked => exact .inr (Pool.toDo_wakeUp hblocked)
  | setStop huncalled => exact absurd huncalled hending.called
  | notifyAll hstopped => exact .inr (Pool.toDo_notifyAll hstopped)
  | join count hcount hjoining => exact .inr (Pool.toDo_join hcount hjoining)

/-- The pool of a destructor that has been called descends. -/
theorem descends : Descends (step : Pool n τ → Event n τ → Option (Pool n τ)) Ending Pool.toDo where
  keep hending hstep := hending.move (move_of_step hstep)
  lessen hending hstep := hending.lessen (move_of_step hstep)

/-- The worker the destructor waits for can go on, or is joined. -/
theorem progress (hending : Ending pool) : pool.destructor = .joining n ∨
    ∃ event next, Event.IsOwed event ∧ step pool event = some next ∧ next.toDo < pool.toDo := by
  cases hdestructor : pool.destructor with
  | uncalled => exact absurd hdestructor hending.called
  | stopped =>
    exact .inr ⟨.notifyAll, _, trivial, if_pos hdestructor, Pool.toDo_notifyAll hdestructor⟩
  | joining count =>
    rcases (hending.joined count hdestructor).eq_or_lt with rfl | hcount
    · exact .inl rfl
    right
    cases hworker : pool.workers ⟨count, hcount⟩ with
    | ready =>
      refine ⟨.work ⟨count, hcount⟩, pool.work ⟨count, hcount⟩, trivial, ?_, ?_⟩
      · simp only [step, hworker]
      · unfold Pool.work
        split
        · rw [if_pos hending.stop]
          exact Pool.toDo_exit hworker
        · rename_i task tasks htasks
          exact Pool.toDo_take hworker htasks
    | blocked =>
      have hstopped := hending.attentive.stopping hending.stop _ hworker
      rw [hdestructor] at hstopped
      cases hstopped
    | running task =>
      refine ⟨.finish ⟨count, hcount⟩, _, trivial, ?_, Pool.toDo_finish hworker⟩
      simp only [step, hworker]
    | exited =>
      refine ⟨.join, _, trivial, ?_, Pool.toDo_join hcount hdestructor⟩
      simp only [step, hdestructor, dif_pos hcount, hworker]

end Ending

/-- **The destructor returns.** Whatever has happened before, once `~ThreadPool` has set `stop_` no
run changes the pool more often than the tasks in the queue, the threads and the notifications to
come allow; as long as a thread is not joined, some thread can go on that need not be woken by
chance, also after any further steps; and such steps lead to a state in which all are joined. -/
theorem shutdown_terminates (events : List (Event n τ)) (pool : Pool n τ)
    (hrun : runFrom step events (.initial n) = some pool) (hcalled : pool.destructor ≠ .uncalled) :
    (∀ later, Along step Changes later pool →
      later.length ≤ 2 * pool.tasks.length + pool.notifies + 3 * n + 1) ∧
    (∀ later last, runFrom step later pool = some last → last.destructor = .joining n ∨
      ∃ event next, Event.IsOwed event ∧ step last event = some next ∧ next ≠ last) ∧
    ∃ later last, (∀ event ∈ later, Event.IsOwed event) ∧ runFrom step later pool = some last ∧
      last.destructor = .joining n := by
  have hending : Ending pool := .of_run hrun hcalled
  refine ⟨fun later halong ↦ ?_, fun later last hlater ↦ ?_, ?_⟩
  · exact (Ending.descends.length_le hending halong).trans (Pool.toDo_le hcalled)
  · have hlast : Ending last := runFrom_invariant Ending.descends.keep hending hlater
    rcases hlast.progress with hjoined | ⟨event, next, howed, hstep, hless⟩
    · exact .inl hjoined
    · refine .inr ⟨event, next, howed, hstep, ?_⟩
      rintro rfl
      exact absurd hless (lt_irrefl _)
  · exact Ending.descends.exists_goal (fun hending ↦ hending.progress) hending

/-- Two workers asleep, a task queued and the destructor called. -/
theorem shutdown_terminates_asleep :
    ∃ pool : Pool 2 ℕ, runFrom step [.work 0, .work 1, .enqueue 7, .setStop] (.initial 2) =
        some pool ∧
      ∃ later last, (∀ event ∈ later, Event.IsOwed event) ∧
        runFrom step later pool = some last ∧ last.destructor = .joining 2 :=
  ⟨_, rfl, (shutdown_terminates [.work 0, .work 1, .enqueue 7, .setStop] _ rfl (by decide)).2.2⟩

end ThreadPool

end LibuvNet
