import LibuvNet.ThreadPool.Pool

/-!
# Wake-ups of the thread pool

Notifications are sent after the lock has been released, and one that meets no blocked worker is
lost.  None of those is missed: while a task is queued some worker is on its way to it or a
notification is still to come, and a worker that sleeps after `stop_` was set is still to be woken
by the destructor.
-/

namespace LibuvNet

open Foundation

namespace ThreadPool

variable {n : ℕ} {τ : Type*} {pool next : Pool n τ}

/-- A worker that is blocked after another one has moved was blocked before. -/
theorem blocked_of_setWorker {i j : Fin n} {worker : Worker τ} (hworker : worker ≠ .blocked)
    (hblocked : (pool.setWorker i worker).workers j = .blocked) : pool.workers j = .blocked := by
  by_cases hij : j = i
  · subst hij
    rw [Pool.setWorker_self] at hblocked
    exact absurd hblocked hworker
  · rwa [Pool.setWorker_of_ne hij] at hblocked

theorem wake_ne_blocked (worker : Worker τ) : worker.wake ≠ .blocked := by
  cases worker <;> simp [Worker.wake]

/-- A worker is neither returned nor waiting on the condition. -/
def Pool.HasAwake (pool : Pool n τ) : Prop :=
  ∃ i, pool.workers i ≠ .exited ∧ pool.workers i ≠ .blocked

/-- Nothing that is waited for is forgotten. -/
structure Attentive (pool : Pool n τ) : Prop where
  queued : pool.tasks ≠ [] → (∃ i, pool.workers i ≠ .exited) →
    pool.HasAwake ∨ 0 < pool.notifies
  stopping : pool.stop → ∀ i, pool.workers i = .blocked → pool.destructor = .stopped
  stop : pool.destructor ≠ .uncalled → pool.stop

namespace Attentive

theorem initial (n : ℕ) : Attentive (.initial n : Pool n τ) where
  queued := fun htasks ↦ absurd rfl htasks
  stopping := nofun
  stop := fun hcalled ↦ absurd rfl hcalled

/-- Worker `i` is awake now and so sees to the queue. -/
theorem of_setWorker (hattentive : Attentive pool) {i : Fin n} {worker : Worker τ}
    (hworkers : next.workers = (pool.setWorker i worker).workers) (hexited : worker ≠ .exited)
    (hawake : worker ≠ .blocked) (hstop : next.stop = pool.stop)
    (hdestructor : next.destructor = pool.destructor) : Attentive next where
  queued _ _ := by
    left
    refine ⟨i, ?_⟩
    rw [hworkers, Pool.setWorker_self]
    exact ⟨hexited, hawake⟩
  stopping hstopped j hblocked := by
    rw [hstop] at hstopped
    rw [hworkers] at hblocked
    rw [hdestructor]
    exact hattentive.stopping hstopped j (blocked_of_setWorker hawake hblocked)
  stop hcalled := by
    rw [hdestructor] at hcalled
    rw [hstop]
    exact hattentive.stop hcalled

/-- Every step sees to it that nothing is forgotten. -/
theorem move (hattentive : Attentive pool) (hmove : Move pool next) : Attentive next := by
  cases hmove with
  | reject => exact hattentive
  | emplace task hstop =>
    constructor
    · exact fun _ _ ↦ .inr (Nat.succ_pos _)
    · exact fun hstopped ↦ absurd hstopped hstop
    · exact hattentive.stop
  | notify i => exact hattentive.of_setWorker rfl nofun nofun rfl rfl
  | notifyNobody hpending hnobody =>
    constructor
    · rintro - ⟨i, hi⟩
      exact .inl ⟨i, hi, hnobody i⟩
    · exact hattentive.stopping
    · exact hattentive.stop
  | block i hready htasks hstop =>
    constructor
    · exact fun hqueued ↦ absurd htasks hqueued
    · exact fun hstopped ↦ absurd hstopped hstop
    · exact hattentive.stop
  | exit i hready htasks hstop =>
    constructor
    · exact fun hqueued ↦ absurd htasks hqueued
    · intro hstopped j hblocked
      have hsleeping : pool.workers j = .blocked := by
        apply blocked_of_setWorker _ hblocked
        exact nofun
      exact hattentive.stopping hstopped j hsleeping
    · exact hattentive.stop
  | take i task tasks => exact hattentive.of_setWorker rfl nofun nofun rfl rfl
  | finish i task => exact hattentive.of_setWorker rfl nofun nofun rfl rfl
  | wakeUp i => exact hattentive.of_setWorker rfl nofun nofun rfl rfl
  | setStop =>
    constructor
    · exact hattentive.queued
    · exact fun _ _ _ ↦ rfl
    · exact fun _ ↦ rfl
  | notifyAll hstopped =>
    constructor
    · rintro - ⟨i, hi⟩
      exact .inl ⟨i, hi, wake_ne_blocked (pool.workers i)⟩
    · exact fun _ i hblocked ↦ absurd hblocked (wake_ne_blocked (pool.workers i))
    · exact fun _ ↦ hattentive.stop (by rw [hstopped]; exact nofun)
  | join count hcount hjoining =>
    constructor
    · exact hattentive.queued
    · intro hstopped i hblocked
      exact nomatch hjoining.symm.trans (hattentive.stopping hstopped i hblocked)
    · exact fun _ ↦ hattentive.stop (by rw [hjoining]; exact nofun)

theorem run {events : List (Event n τ)} (hattentive : Attentive pool)
    (hrun : runFrom step events pool = some next) : Attentive next := by
  have hstep {pool next : Pool n τ} {event : Event n τ} (hattentive : Attentive pool)
      (hstep : step pool event = some next) : Attentive next :=
    hattentive.move (move_of_step hstep)
  exact runFrom_invariant hstep hattentive hrun

end Attentive

/-- **No wake-up is lost.** In every reachable state: with a task in the queue, and unless all
workers have returned, some worker is awake or a notification is pending; a worker that is blocked
after `stop_` was set has the destructor's notification pending.  So a pool with a worker is never
left with a queued task and all its workers asleep, nor with a worker asleep after the destructor's
notification. -/
theorem no_wakeup_lost (events : List (Event n τ)) (pool : Pool n τ)
    (hrun : runFrom step events (.initial n) = some pool) :
    (pool.tasks ≠ [] → (∃ i, pool.workers i ≠ .exited) →
        (∃ i, pool.workers i ≠ .exited ∧ pool.workers i ≠ .blocked) ∨ 0 < pool.notifies) ∧
      (pool.stop → (∃ i, pool.workers i = .blocked) → pool.destructor = .stopped) ∧
      (0 < n → ¬ (pool.tasks ≠ [] ∧ (∀ i, pool.workers i = .blocked) ∧ pool.notifies = 0)) ∧
      ∀ count, pool.destructor = .joining count → ∀ i, pool.workers i ≠ .blocked := by
  have hattentive : Attentive pool := (Attentive.initial n).run hrun
  refine ⟨hattentive.queued, ?_, ?_, ?_⟩
  · rintro hstop ⟨i, hblocked⟩
    exact hattentive.stopping hstop i hblocked
  · rintro hn ⟨hqueued, hasleep, hnotifies⟩
    have hsome : ∃ i, pool.workers i ≠ .exited := ⟨⟨0, hn⟩, by rw [hasleep]; exact nofun⟩
    rcases hattentive.queued hqueued hsome with ⟨i, -, hawake⟩ | hpending
    · exact hawake (hasleep i)
    · exact hpending.ne' hnotifies
  · intro count hjoining i hblocked
    have hstop : pool.stop := hattentive.stop (by rw [hjoining]; exact nofun)
    exact nomatch hjoining.symm.trans (hattentive.stopping hstop i hblocked)

/-- A task is queued behind a sleeping worker, and its notification is on the way. -/
theorem no_wakeup_lost_pending :
    ∃ pool, runFrom step [.work 0, .enqueue 7] (.initial 1) = some pool ∧
      pool.tasks = [7] ∧ pool.workers 0 = .blocked ∧
      ((∃ i, pool.workers i ≠ .exited ∧ pool.workers i ≠ .blocked) ∨ 0 < pool.notifies) :=
  ⟨_, rfl, rfl, rfl, (no_wakeup_lost [.work 0, .enqueue 7] _ rfl).1 nofun ⟨0, nofun⟩⟩

end ThreadPool

end LibuvNet
