import LibuvNet.Uv.Handle

/-!
# The heartbeat timer as a watchdog

Both endpoints start the timer when they take the time of the last sign of life, and at every tick
they either find that time too long ago or let the timer go on.  So the timer is always due within
one interval of the moment at which the timeout will have passed, and if it is never late by more
than some delay, nothing stays unnoticed for longer than all of these together.
-/

namespace LibuvNet

/-- The timer ticks no later than an interval after the timeout. -/
structure Watches (timer : UvTimer) (last : ℕ) : Prop where
  interval : timer.active → timer.interval = heartbeatIntervalMs
  due : timer.active → timer.due ≤ last + heartbeatTimeoutMs + heartbeatIntervalMs

/-- The loop has not let the timer wait for longer than the delay. -/
def Punctual (delay : ℕ) (timer : UvTimer) (now : ℕ) : Prop :=
  timer.active → now ≤ timer.due + delay

instance (delay : ℕ) (timer : UvTimer) (now : ℕ) : Decidable (Punctual delay timer now) :=
  inferInstanceAs (Decidable (timer.active → _))

namespace Watches

variable {timer : UvTimer} {last now : ℕ}

theorem of_inactive (hinactive : timer.active = false) : Watches timer last where
  interval hactive := by
    rw [hinactive] at hactive
    cases hactive
  due hactive := by
    rw [hinactive] at hactive
    cases hactive

theorem stop : Watches timer.stop last := of_inactive rfl

theorem start : Watches (.start now heartbeatIntervalMs heartbeatIntervalMs) now where
  interval _ := rfl
  due _ := by
    change now + heartbeatIntervalMs ≤ now + heartbeatTimeoutMs + heartbeatIntervalMs
    omega

/-- A sign of life comes later. -/
theorem later (hwatches : Watches timer last) {sign : ℕ} (hlast : last ≤ sign) :
    Watches timer sign where
  interval := hwatches.interval
  due hactive := by
    have hdue := hwatches.due hactive
    omega

/-- The timer goes on after a tick before the timeout. -/
theorem again (hwatches : Watches timer last) (hintime : now - last ≤ heartbeatTimeoutMs) :
    Watches (timer.again now) last where
  interval := hwatches.interval
  due hactive := by
    change now + timer.interval ≤ last + heartbeatTimeoutMs + heartbeatIntervalMs
    rw [hwatches.interval hactive]
    omega

/-- While the timer runs on time no more has passed than this. -/
theorem bounded (hwatches : Watches timer last) {delay : ℕ} (hpunctual : Punctual delay timer now)
    (hactive : timer.active) :
    now ≤ last + heartbeatTimeoutMs + heartbeatIntervalMs + delay := by
  have hdue := hwatches.due hactive
  have hnow := hpunctual hactive
  omega

end Watches

end LibuvNet
