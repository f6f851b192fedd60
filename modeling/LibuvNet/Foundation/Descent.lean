import LibuvNet.Foundation.Run

/-!
# Descent

A system descends if every step from a state of interest leaves the state alone or makes a measure
of what is left to do smaller.  Then no run can go on changing for longer than the measure says; and
if something can be done wherever the goal is not reached, the goal is reached by doing it, whatever
is done first.
-/

namespace LibuvNet.Foundation

variable {σ ε : Type*} {step : σ → ε → Option σ}

/-- A step from a state of interest leads to one, and changes nothing or lessens the measure. -/
structure Descends (step : σ → ε → Option σ) (Holds : σ → Prop) (measure : σ → ℕ) : Prop where
  keep : ∀ {state event next}, Holds state → step state event = some next → Holds next
  lessen : ∀ {state event next}, Holds state → step state event = some next →
    next = state ∨ measure next < measure state

/-- The step changes the state. -/
def Changes (state : σ) (_ : ε) (next : σ) : Prop := next ≠ state

namespace Descends

variable {Holds Goal : σ → Prop} {measure : σ → ℕ} {events : List ε} {state : σ}

/-- A run whose steps all change the state is no longer than what was left to do. -/
theorem length_le (hdescends : Descends step Holds measure) (hstate : Holds state)
    (halong : Along step Changes events state) : events.length ≤ measure state := by
  induction events generalizing state with
  | nil => exact Nat.zero_le _
  | cons event events ih =>
    obtain ⟨next, hnext, hchanges, hlater⟩ := halong
    have hrest : events.length ≤ measure next := ih (hdescends.keep hstate hnext) hlater
    have hless : measure next < measure state :=
      (hdescends.lessen hstate hnext).resolve_left hchanges
    calc events.length + 1
        ≤ measure next + 1 := Nat.succ_le_succ hrest
      _ ≤ measure state := hless

/-- If an event of some kind lessens the measure wherever the goal is not reached, events of this
kind lead there. -/
theorem exists_goal (hdescends : Descends step Holds measure) {Owed : ε → Prop}
    (hprogress : ∀ {state}, Holds state → Goal state ∨
      ∃ event next, Owed event ∧ step state event = some next ∧ measure next < measure state)
    (hstate : Holds state) :
    ∃ events last, (∀ event ∈ events, Owed event) ∧ runFrom step events state = some last ∧
      Goal last := by
  generalize hleft : measure state = left
  induction left using Nat.strongRecOn generalizing state with
  | ind left ih =>
    rcases hprogress hstate with hgoal | ⟨event, next, howed, hnext, hless⟩
    · exact ⟨[], state, List.forall_mem_nil _, rfl, hgoal⟩
    · obtain ⟨events, last, hevents, hrun, hgoal⟩ :=
        ih (measure next) (hleft ▸ hless) (hdescends.keep hstate hnext) rfl
      exact ⟨event :: events, last, List.forall_mem_cons.mpr ⟨howed, hevents⟩,
        (runFrom_cons step).mpr ⟨next, hnext, hrun⟩, hgoal⟩

end Descends

section Lessening

variable {Holds : σ → Prop} {measure : σ → ℕ} {Meets : σ → ε → σ → Prop} {events : List ε}
  {state last : σ}

/-- A run whose steps all lessen the measure is no longer than what is done of it. -/
theorem Along.lessens_of_mem
    (hlessen : ∀ event ∈ events, ∀ {state next}, Holds state → step state event = some next →
      Meets state event next → Holds next ∧ measure next < measure state)
    (hstate : Holds state) (halong : Along step Meets events state)
    (hrun : runFrom step events state = some last) :
    Holds last ∧ events.length + measure last ≤ measure state := by
  induction events generalizing state with
  | nil =>
    obtain rfl := Option.some.inj hrun
    exact ⟨hstate, Nat.le_of_eq (Nat.zero_add _)⟩
  | cons event events ih =>
    obtain ⟨hfirst, hlater⟩ := List.forall_mem_cons.mp hlessen
    obtain ⟨middle, hmiddle, hmeets, hrest⟩ := halong
    obtain ⟨middle', hmiddle', hrun⟩ := (runFrom_cons step).mp hrun
    obtain rfl := Option.some.inj (hmiddle.symm.trans hmiddle')
    obtain ⟨hholds, hless⟩ := hfirst hstate hmiddle hmeets
    obtain ⟨hlast, hlength⟩ := ih hlater hholds hrest hrun
    refine ⟨hlast, ?_⟩
    calc events.length + 1 + measure last
        = events.length + measure last + 1 := Nat.add_right_comm _ _ _
      _ ≤ measure middle + 1 := Nat.succ_le_succ hlength
      _ ≤ measure state := hless

/-- Every run goes along the condition that asks for nothing. -/
theorem along_true (hrun : runFrom step events state = some last) :
    Along step (fun _ _ _ ↦ True) events state := by
  induction events generalizing state with
  | nil => trivial
  | cons event events ih =>
    obtain ⟨middle, hmiddle, hrest⟩ := (runFrom_cons step).mp hrun
    exact ⟨middle, hmiddle, trivial, ih hrest⟩

/-- So it is with a run of events of some kind. -/
theorem runFrom_lessens {Owed : ε → Prop}
    (hlessen : ∀ {state event next}, Holds state → Owed event → step state event = some next →
      Holds next ∧ measure next < measure state)
    (hstate : Holds state) (howed : ∀ event ∈ events, Owed event)
    (hrun : runFrom step events state = some last) :
    Holds last ∧ events.length + measure last ≤ measure state :=
  Along.lessens_of_mem
    (fun event hmem _ _ hholds hstep _ ↦ hlessen hholds (howed event hmem) hstep) hstate
    (along_true hrun) hrun

end Lessening

end LibuvNet.Foundation
