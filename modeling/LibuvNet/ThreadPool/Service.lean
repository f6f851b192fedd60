import LibuvNet.Foundation.Descent
import LibuvNet.ThreadPool.Shutdown
import LibuvNet.ThreadPool.WakeUp
import Mathlib.Algebra.Order.BigOperators.Group.Finset

/-!
# The thread pool serves its tasks

No task is overtaken: each time a worker takes the lock while it is queued, the queue before it
becomes shorter, whatever producers go on to submit.  And a pool with a worker never gets stuck:
if nobody submits a task and no worker wakes up by chance, the workers and the notifications that
are to come run all accepted tasks and then come to rest.
-/

namespace LibuvNet

open Foundation

namespace ThreadPool

variable {n : ℕ} {τ : Type*} {pool next : Pool n τ}

/-! ## No task is overtaken -/

/-- A worker takes the lock. -/
def Event.isWork : Event n τ → Bool
  | .work _ => true
  | _ => false

/-- Tasks that were accepted or taken stay so. -/
theorem accepted_taken_move (hmove : Move pool next) :
    pool.accepted.length ≤ next.accepted.length ∧ pool.taken.length ≤ next.taken.length := by
  cases hmove with
  | emplace task hstop => exact ⟨by simp [Pool.emplace], le_rfl⟩
  | take i task tasks hready htasks => exact ⟨le_rfl, by simp⟩
  | reject | notify | notifyNobody | block | exit | finish | wakeUp | setStop | notifyAll | join =>
    exact ⟨le_rfl, le_rfl⟩

/-- A worker that takes the lock takes a task, if one is queued. -/
theorem taken_work (hconserved : Conserved pool) {i : Fin n}
    (hwork : step pool (.work i) = some next) :
    min pool.accepted.length (pool.taken.length + 1) ≤ next.taken.length := by
  simp only [step] at hwork
  split at hwork <;> cases hwork
  unfold Pool.work
  split
  · rename_i htasks
    have horder := hconserved.order
    rw [htasks, List.append_nil] at horder
    rw [horder]
    exact min_le_left _ _
  · simp

/-- So many tasks have been taken after so many turns of the workers, as far as there are any. -/
theorem taken_run (hconserved : Conserved pool) {events : List (Event n τ)}
    (hrun : runFrom step events pool = some next) :
    min pool.accepted.length (pool.taken.length + events.countP Event.isWork) ≤
      next.taken.length := by
  induction events generalizing pool with
  | nil =>
    rw [← Option.some.inj hrun]
    exact min_le_right _ _
  | cons event events ih =>
    obtain ⟨middle, hmiddle, hlater⟩ := (runFrom_cons step).mp hrun
    have hmove := move_of_step hmiddle
    obtain ⟨haccepted, htaken⟩ := accepted_taken_move hmove
    have hrest := ih (hconserved.move hmove) hlater
    rw [List.countP_cons]
    cases event with
    | work i =>
      have hfirst := taken_work hconserved hmiddle
      simp only [Event.isWork, if_true]
      omega
    | enqueue | submit | notifyOne | finish | wakeUp | setStop | notifyAll | join =>
      simp only [Event.isWork, Bool.false_eq_true, if_false]
      omega

/-! ## The pool comes to rest -/

/-- What the pool does by itself: its workers, and the notifications that are to come. -/
def Event.IsService : Event n τ → Prop
  | .work _ | .finish _ | .notifyOne _ => True
  | _ => False

/-- How far a worker is from rest. -/
def Worker.unrest : Worker τ → ℕ
  | blocked | exited => 0
  | ready => 1
  | running _ => 2

/-- How far the pool is from rest. -/
def Pool.unrest (pool : Pool n τ) : ℕ :=
  2 * pool.tasks.length + ∑ i, (pool.workers i).unrest + 2 * pool.notifies

/-- How far the workers are from rest when one of them moves. -/
theorem Pool.sum_unrest_setWorker (pool : Pool n τ) (i : Fin n) (worker : Worker τ) :
    ∑ j, ((pool.setWorker i worker).workers j).unrest + (pool.workers i).unrest =
      ∑ j, (pool.workers j).unrest + worker.unrest :=
  sum_apply_update_add Worker.unrest pool.workers i worker

namespace Pool

variable {i : Fin n}

theorem unrest_le (pool : Pool n τ) :
    pool.unrest ≤ 2 * pool.tasks.length + 2 * pool.notifies + 2 * n := by
  have hworkers : ∑ i, (pool.workers i).unrest ≤ n * 2 := by
    have hworker (i : Fin n) (_ : i ∈ Finset.univ) : (pool.workers i).unrest ≤ 2 := by
      cases pool.workers i <;> simp [Worker.unrest]
    simpa using Finset.sum_le_card_nsmul Finset.univ (fun i ↦ (pool.workers i).unrest) 2 hworker
  unfold unrest
  omega

/-- A worker that finds no task sleeps; one that takes a task has it instead of the queue. -/
theorem unrest_work (hready : pool.workers i = .ready) (hstop : ¬ pool.stop) :
    (pool.work i).unrest < pool.unrest := by
  unfold work
  split
  · have hsum := pool.sum_unrest_setWorker i .blocked
    rw [hready] at hsum
    rw [if_neg hstop]
    simp only [unrest, Worker.unrest, setWorker] at hsum ⊢
    omega
  · rename_i task tasks htasks
    have hsum := pool.sum_unrest_setWorker i (.running task)
    rw [hready] at hsum
    simp only [unrest, Worker.unrest, setWorker, htasks, List.length_cons] at hsum ⊢
    omega

theorem unrest_finish {task : τ} (hrunning : pool.workers i = .running task) :
    unrest { pool.setWorker i .ready with finished := pool.finished ++ [task] } < pool.unrest := by
  have hsum := pool.sum_unrest_setWorker i .ready
  rw [hrunning] at hsum
  simp only [unrest, Worker.unrest, setWorker] at hsum ⊢
  omega

/-- A notification weighs more than the worker it wakes. -/
theorem unrest_notify (hpending : pool.notifies ≠ 0) (hblocked : pool.workers i = .blocked) :
    unrest { pool.setWorker i .ready with notifies := pool.notifies - 1 } < pool.unrest := by
  have hsum := pool.sum_unrest_setWorker i .ready
  rw [hblocked] at hsum
  simp only [unrest, Worker.unrest, setWorker] at hsum ⊢
  omega

theorem unrest_notifyNobody (hpending : pool.notifies ≠ 0) :
    unrest { pool with notifies := pool.notifies - 1 } < pool.unrest := by
  simp only [unrest]
  omega

end Pool

/-- The pool is not being destroyed, and nothing that is waited for is forgotten. -/
structure Serving (pool : Pool n τ) : Prop where
  stop : ¬ pool.stop
  attentive : Attentive pool
  drained : Drained pool

/-- `stop_` is set by the destructor only. -/
theorem stop_move (hmove : Move pool next) (hstop : pool.stop → pool.destructor ≠ .uncalled) :
    next.stop → next.destructor ≠ .uncalled := by
  cases hmove with
  | setStop | notifyAll | join => exact fun _ ↦ Destructor.noConfusion
  | reject | emplace | notify | notifyNobody | block | exit | take | finish | wakeUp => exact hstop

namespace Serving

theorem of_run {events : List (Event n τ)} (hrun : runFrom step events (.initial n) = some pool)
    (huncalled : pool.destructor = .uncalled) : Serving pool where
  stop hstop := by
    have hstep {pool next : Pool n τ} {event : Event n τ}
        (hstop : pool.stop → pool.destructor ≠ .uncalled) (hstep : step pool event = some next) :
        next.stop → next.destructor ≠ .uncalled := stop_move (move_of_step hstep) hstop
    have hinitial : (Pool.initial n : Pool n τ).stop →
        (Pool.initial n : Pool n τ).destructor ≠ .uncalled := fun hstop ↦ by cases hstop
    exact runFrom_invariant hstep hinitial hrun hstop huncalled
  attentive := (Attentive.initial n).run hrun
  drained := (Drained.initial n).run hrun

theorem not_exited (hserving : Serving pool) (i : Fin n) : pool.workers i ≠ .exited :=
  fun hexited ↦ hserving.stop (hserving.drained.exited i hexited).1

/-- A step of its own brings a pool nearer to rest. -/
theorem lessen (hserving : Serving pool) {event : Event n τ} (hservice : event.IsService)
    (hstep : step pool event = some next) :
    next.stop = pool.stop ∧ next.accepted = pool.accepted ∧ next.unrest < pool.unrest := by
  cases event with
  | work i =>
    simp only [step] at hstep
    split at hstep <;> cases hstep
    rename_i hready
    have hless : (pool.work i).unrest < pool.unrest := Pool.unrest_work hready hserving.stop
    refine ⟨?_, ?_, hless⟩
    · unfold Pool.work
      split <;> rfl
    · unfold Pool.work
      split <;> rfl
  | finish i =>
    simp only [step] at hstep
    split at hstep <;> cases hstep
    rename_i task hrunning
    exact ⟨rfl, rfl, Pool.unrest_finish hrunning⟩
  | notifyOne woken =>
    simp only [step] at hstep
    split at hstep
    · cases hstep
    rename_i hpending
    cases woken with
    | some i =>
      dsimp only at hstep
      split at hstep <;> cases hstep
      rename_i hblocked
      exact ⟨rfl, rfl, Pool.unrest_notify hpending (Worker.isBlocked_iff.mp hblocked)⟩
    | none =>
      dsimp only at hstep
      split at hstep <;> cases hstep
      exact ⟨rfl, rfl, Pool.unrest_notifyNobody hpending⟩
  | enqueue | submit | wakeUp | setStop | notifyAll | join => exact hservice.elim

/-- A pool that nobody uses makes no more steps than it is far from rest. -/
theorem run {events : List (Event n τ)} (hserving : Serving pool)
    (hservice : ∀ event ∈ events, event.IsService) (hrun : runFrom step events pool = some next) :
    Serving next ∧ next.accepted = pool.accepted ∧
      events.length + next.unrest ≤ pool.unrest := by
  have hlessen {state after : Pool n τ} {event : Event n τ}
      (hstate : Serving state ∧ state.accepted = pool.accepted) (hservice : event.IsService)
      (hstep : step state event = some after) :
      (Serving after ∧ after.accepted = pool.accepted) ∧ after.unrest < state.unrest := by
    obtain ⟨hserving, haccepted⟩ := hstate
    obtain ⟨hstop, haccepts, hless⟩ := hserving.lessen hservice hstep
    have hmove := move_of_step hstep
    exact ⟨⟨⟨hstop ▸ hserving.stop, hserving.attentive.move hmove, hserving.drained.move hmove⟩,
      haccepts.trans haccepted⟩, hless⟩
  obtain ⟨⟨hlast, haccepted⟩, hunrest⟩ :=
    runFrom_lessens hlessen ⟨hserving, rfl⟩ hservice hrun
  exact ⟨hlast, haccepted, hunrest⟩

/-- While a task is queued or running, the pool can make a step of its own. -/
theorem progress (hn : 0 < n) (hserving : Serving pool) :
    (pool.tasks = [] ∧ pool.running = 0) ∨
      ∃ event next, Event.IsService event ∧ step pool event = some next := by
  by_cases hruns : ∃ i task, pool.workers i = .running task
  · obtain ⟨i, task, hrunning⟩ := hruns
    exact .inr ⟨.finish i, _, trivial, by simp only [step, hrunning]; rfl⟩
  by_cases htasks : pool.tasks = []
  · refine .inl ⟨htasks, Finset.sum_eq_zero fun i _ ↦ ?_⟩
    cases hworker : pool.workers i with
    | running task => exact absurd ⟨i, task, hworker⟩ hruns
    | ready | blocked | exited => rfl
  right
  rcases hserving.attentive.queued htasks ⟨⟨0, hn⟩, hserving.not_exited _⟩ with
    ⟨i, hexited, hblocked⟩ | hpending
  · cases hworker : pool.workers i with
    | ready => exact ⟨.work i, _, trivial, by simp only [step, hworker]; rfl⟩
    | running task => exact absurd ⟨i, task, hworker⟩ hruns
    | blocked => exact absurd hworker hblocked
    | exited => exact absurd hworker hexited
  · by_cases hsleeps : ∃ i, (pool.workers i).isBlocked
    · obtain ⟨i, hblocked⟩ := hsleeps
      exact ⟨.notifyOne (some i), _, trivial, by
        simp only [step, if_neg hpending.ne', if_pos hblocked]
        rfl⟩
    · exact ⟨.notifyOne none, _, trivial, by
        simp only [step, if_neg hpending.ne', if_neg hsleeps]
        rfl⟩

end Serving

/-- **Service.** Let a pool with workers not be destroyed yet.  In whatever happens next, as many of
the tasks accepted so far are taken, the oldest first, as workers take the lock.  If nobody uses the
pool and no worker wakes up by chance, it makes only so many steps more, and when it can make none
it has run every accepted task to its end. -/
theorem tasks_served (hn : 0 < n) (events : List (Event n τ)) (pool : Pool n τ)
    (hrun : runFrom step events (.initial n) = some pool)
    (huncalled : pool.destructor = .uncalled) (later : List (Event n τ)) (last : Pool n τ)
    (hlater : runFrom step later pool = some last) :
    last.taken <+: last.accepted ∧
    min pool.accepted.length (pool.taken.length + later.countP Event.isWork) ≤ last.taken.length ∧
    ((∀ event ∈ later, event.IsService) →
      later.length ≤ 2 * pool.tasks.length + 2 * pool.notifies + 2 * n ∧
      ((∀ event next, Event.IsService event → step last event ≠ some next) →
        last.finished.Perm pool.accepted)) := by
  have hconserved : Conserved pool := (Conserved.initial n).run hrun
  have hlast : Conserved last := hconserved.run hlater
  refine ⟨⟨last.tasks, hlast.order.symm⟩, taken_run hconserved hlater, fun hservice ↦ ?_⟩
  obtain ⟨hserving, haccepted, hunrest⟩ :=
    (Serving.of_run hrun huncalled).run hservice hlater
  refine ⟨le_trans (Nat.le_add_right _ _) (hunrest.trans pool.unrest_le), fun hrests ↦ ?_⟩
  rcases hserving.progress hn with ⟨htasks, hrunning⟩ | ⟨event, next, hown, hstep⟩
  · have hbalance := hlast.balance
    rw [htasks, hrunning, add_zero, Multiset.coe_nil, zero_add, haccepted] at hbalance
    exact Multiset.coe_eq_coe.mp hbalance.symm
  · exact absurd hstep (hrests event next hown)

/-- One worker asleep and a task queued, which is run before the worker sleeps again. -/
theorem tasks_served_one :
    ∃ pool last : Pool 1 ℕ, runFrom step [.work 0, .enqueue 7] (.initial 1) = some pool ∧
      runFrom step [.notifyOne (some 0), .work 0, .finish 0, .work 0] pool = some last ∧
      last.taken <+: last.accepted ∧ 1 ≤ last.taken.length :=
  have hserved (last : Pool 1 ℕ) hlater := tasks_served (by decide) [.work 0, .enqueue 7] _ rfl rfl
    [.notifyOne (some 0), .work 0, .finish 0, .work 0] last hlater
  ⟨_, _, rfl, rfl, (hserved _ rfl).1, (hserved _ rfl).2.1⟩

end ThreadPool

end LibuvNet
