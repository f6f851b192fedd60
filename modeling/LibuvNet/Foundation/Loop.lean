import Mathlib.Data.Nat.Init
import Mathlib.Logic.Basic

/-!
# Loops that make progress

One pass of a loop either leaves it with a result or goes on from another state.  A loop whose
state has a size from which every pass that goes on takes at least `step` ends after as many passes
as `step` fits into the size, and one more.
-/

namespace LibuvNet.Foundation

variable {σ ρ : Type*}

/-- The result of a loop, if it is left within so many passes. -/
def loopUpTo (pass : σ → ρ ⊕ σ) : ℕ → σ → Option ρ
  | 0, _ => none
  | passes + 1, state =>
    match pass state with
    | .inl result => some result
    | .inr next => loopUpTo pass passes next

variable {pass : σ → ρ ⊕ σ} {passes : ℕ} {state : σ} {result : ρ}

theorem loopUpTo_of_inl (hpass : pass state = .inl result) :
    loopUpTo pass (passes + 1) state = some result := by
  simp only [loopUpTo, hpass]

theorem loopUpTo_of_inr {next : σ} (hpass : pass state = .inr next) :
    loopUpTo pass (passes + 1) state = loopUpTo pass passes next := by
  simp only [loopUpTo, hpass]

/-- A loop that is left within some passes is left within more of them, with the same result. -/
theorem loopUpTo_mono {more : ℕ} (hpasses : passes ≤ more)
    (hloop : loopUpTo pass passes state = some result) :
    loopUpTo pass more state = some result := by
  induction passes generalizing more state with
  | zero => simp [loopUpTo] at hloop
  | succ passes ih =>
    obtain ⟨more, rfl⟩ := Nat.exists_eq_succ_of_ne_zero (by omega : more ≠ 0)
    cases hpass : pass state with
    | inl left =>
      rw [loopUpTo_of_inl hpass] at hloop ⊢
      exact hloop
    | inr next =>
      rw [loopUpTo_of_inr hpass] at hloop ⊢
      exact ih (by omega) hloop

/-- A loop whose passes take something each time they go on is left in time. -/
theorem loopUpTo_of_progress {step : ℕ} (hstep : 0 < step) (size : σ → ℕ)
    (hprogress : ∀ {state next}, pass state = .inr next → size next + step ≤ size state)
    (state : σ) : ∃ result, loopUpTo pass (size state / step + 1) state = some result := by
  have hends : ∀ (passes : ℕ) (state : σ), size state / step ≤ passes →
      ∃ result, loopUpTo pass (passes + 1) state = some result := by
    intro passes
    induction passes with
    | zero =>
      intro state hpasses
      have hlt : size state < step :=
        (Nat.div_eq_zero_iff_lt hstep).mp (Nat.le_zero.mp hpasses)
      cases hpass : pass state with
      | inl result => exact ⟨result, loopUpTo_of_inl hpass⟩
      | inr next =>
        have hle := hprogress hpass
        omega
    | succ passes ih =>
      intro state hpasses
      cases hpass : pass state with
      | inl result => exact ⟨result, loopUpTo_of_inl hpass⟩
      | inr next =>
        rw [loopUpTo_of_inr hpass]
        apply ih
        have hdiv : (size next + step) / step ≤ size state / step :=
          Nat.div_le_div_right (hprogress hpass)
        rw [Nat.add_div_right _ hstep] at hdiv
        omega
  exact hends _ state (Nat.le_refl _)

/-- A function that unrolls the loop has found its result once the loop is left. -/
theorem unrolled_of_loopUpTo {unrolled : ℕ → σ → ρ}
    (hleft : ∀ {fuel state result}, pass state = .inl result →
      unrolled (fuel + 1) state = result)
    (hagain : ∀ {fuel state next}, pass state = .inr next →
      unrolled (fuel + 1) state = unrolled fuel next)
    (hloop : loopUpTo pass passes state = some result) : unrolled passes state = result := by
  induction passes generalizing state with
  | zero => simp [loopUpTo] at hloop
  | succ passes ih =>
    cases hpass : pass state with
    | inl left =>
      rw [loopUpTo_of_inl hpass, Option.some.injEq] at hloop
      rw [hleft hpass, hloop]
    | inr next =>
      rw [loopUpTo_of_inr hpass] at hloop
      rw [hagain hpass, ih hloop]

end LibuvNet.Foundation
