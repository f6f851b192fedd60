import LibuvNet.Foundation.Run

/-!
# Leaving events out

What an observer does not see may as well not have happened.  Two conditions on single steps make
this so for whole runs: a step that is not seen leaves the state related to whatever it was
related to, and a step that is seen can be made from every related state and leads to related
ones.  A run can then be thinned out to the events that are seen.
-/

namespace LibuvNet.Foundation

variable {σ ε : Type*}

/-- Under a condition on the steps, unseen steps keep a relation on one side and seen steps can be
followed on the other. -/
structure Unwinds (step : σ → ε → Option σ) (Meets : σ → ε → σ → Prop) (Sees : ε → Prop)
    (Related : σ → σ → Prop) : Prop where
  seen : ∀ {state next other event}, Sees event → Related state other →
    step state event = some next → Meets state event next →
    ∃ after, step other event = some after ∧ Related next after
  unseen : ∀ {state next other event}, ¬ Sees event → Related state other →
    step state event = some next → Meets state event next → Related next other

/-- **Unwinding.** The events that are seen make a run of their own, and it ends in a related
state. -/
theorem Unwinds.runFrom_filter {step : σ → ε → Option σ} {Meets : σ → ε → σ → Prop}
    {Sees : ε → Prop} [DecidablePred Sees] {Related : σ → σ → Prop}
    (hunwinds : Unwinds step Meets Sees Related) {events : List ε} {state last other : σ}
    (hrelated : Related state other) (halong : Along step Meets events state)
    (hrun : runFrom step events state = some last) :
    ∃ after, runFrom step (events.filter Sees) other = some after ∧ Related last after := by
  induction events generalizing state other with
  | nil => exact ⟨other, rfl, Option.some.inj hrun ▸ hrelated⟩
  | cons event events ih =>
    obtain ⟨next, hnext, hmeets, hlater⟩ := halong
    obtain ⟨next', hnext', hrest⟩ := (runFrom_cons step).mp hrun
    obtain rfl := Option.some.inj (hnext.symm.trans hnext')
    by_cases hsees : Sees event
    · obtain ⟨middle, hmiddle, hmiddles⟩ := hunwinds.seen hsees hrelated hnext hmeets
      obtain ⟨after, hafter, hlast⟩ := ih hmiddles hlater hrest
      rw [List.filter_cons, if_pos (decide_eq_true hsees)]
      exact ⟨after, (runFrom_cons step).mpr ⟨middle, hmiddle, hafter⟩, hlast⟩
    · rw [List.filter_cons, if_neg (by simpa using hsees)]
      exact ih (hunwinds.unseen hsees hrelated hnext hmeets) hlater hrest

end LibuvNet.Foundation
