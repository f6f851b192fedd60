import Mathlib.Data.List.Basic
import Mathlib.Data.Option.Basic

/-!
# Runs of a step function

A system is a partial step function: an event either takes a state to the next one or is not
possible there.  `runFrom` takes a list of events in order, and `Along` says that a run exists and
that every step of it meets a condition.  The rules below carry an invariant through such runs,
and replace one condition by another where the invariant makes them equivalent.
-/

namespace LibuvNet.Foundation

variable {σ ε : Type*} (step : σ → ε → Option σ)

/-- The state after a list of events, if each of them is possible in turn. -/
def runFrom : List ε → σ → Option σ
  | [], state => some state
  | event :: events, state => (step state event).bind (runFrom events)

/-- Every event is possible in turn, and every step meets the condition. -/
def Along (Meets : σ → ε → σ → Prop) : List ε → σ → Prop
  | [], _ => True
  | event :: events, state =>
    ∃ next, step state event = some next ∧ Meets state event next ∧ Along Meets events next

@[simp]
theorem runFrom_nil (state : σ) : runFrom step [] state = some state := rfl

theorem runFrom_cons {event : ε} {events : List ε} {state last : σ} :
    runFrom step (event :: events) state = some last ↔
      ∃ next, step state event = some next ∧ runFrom step events next = some last :=
  Option.bind_eq_some_iff

theorem runFrom_append (first second : List ε) (state : σ) :
    runFrom step (first ++ second) state =
      (runFrom step first state).bind (runFrom step second) := by
  induction first generalizing state with
  | nil => rfl
  | cons event first ih =>
    simp only [List.cons_append, runFrom, Option.bind_assoc, ih]

instance Along.decidable {Meets : σ → ε → σ → Prop}
    [∀ state event next, Decidable (Meets state event next)] :
    (events : List ε) → (state : σ) → Decidable (Along step Meets events state)
  | [], _ => isTrue trivial
  | event :: events, state =>
    match hnext : step state event with
    | none => isFalse fun ⟨_, hnext', _⟩ ↦ nomatch hnext.symm.trans hnext'
    | some next =>
      have : Decidable (Along step Meets events next) := Along.decidable events next
      decidable_of_iff (Meets state event next ∧ Along step Meets events next)
        ⟨fun hmeets ↦ ⟨next, hnext, hmeets⟩, fun ⟨_, hnext', hmeets⟩ ↦
          Option.some.inj (hnext.symm.trans hnext') ▸ hmeets⟩

variable {step}

/-- What an event brings about and no event breaks holds after any events among which it is. -/
theorem foldl_establishes {apply : σ → ε → σ} {Holds : σ → Prop} {event : ε} {events : List ε}
    (hkeep : ∀ {state} other, Holds state → Holds (apply state other))
    (hevent : ∀ state, Holds (apply state event)) (hmem : event ∈ events) (state : σ) :
    Holds (events.foldl apply state) := by
  obtain ⟨front, behind, rfl⟩ := List.append_of_mem hmem
  rw [List.foldl_append, List.foldl_cons]
  generalize front.foldl apply state = before
  have hbefore : Holds (apply before event) := hevent before
  generalize apply before event = after at hbefore
  induction behind generalizing after with
  | nil => exact hbefore
  | cons other behind ih => exact ih (by simp) _ (hkeep other hbefore)

/-- What every step keeps holds at the end of a run that starts with it. -/
theorem runFrom_invariant {Holds : σ → Prop}
    (hstep : ∀ {state event next}, Holds state → step state event = some next → Holds next)
    {events : List ε} {state last : σ} (hstate : Holds state)
    (hrun : runFrom step events state = some last) : Holds last := by
  induction events generalizing state with
  | nil => exact Option.some.inj hrun ▸ hstate
  | cons event events ih =>
    obtain ⟨next, hnext, hlater⟩ := (runFrom_cons step).mp hrun
    exact ih (hstep hstate hnext) hlater

/-- What the steps of the events of a run keep holds at its end. -/
theorem runFrom_invariant_of_mem (Holds : σ → Prop) {events : List ε}
    (hstep : ∀ event ∈ events, ∀ {state next}, Holds state → step state event = some next →
      Holds next)
    {state last : σ} (hstate : Holds state) (hrun : runFrom step events state = some last) :
    Holds last := by
  induction events generalizing state with
  | nil => exact Option.some.inj hrun ▸ hstate
  | cons event events ih =>
    obtain ⟨hfirst, hlater⟩ := List.forall_mem_cons.mp hstep
    obtain ⟨next, hnext, hrest⟩ := (runFrom_cons step).mp hrun
    exact ih hlater (hfirst hstate hnext) hrest

/-- What every step keeps of a state and of the events that led to it holds after a run of these
events and the ones that have been before. -/
theorem runFrom_history (Holds : List ε → σ → Prop)
    (hstep : ∀ {past state event next}, Holds past state → step state event = some next →
      Holds (past ++ [event]) next)
    {past events : List ε} {state last : σ} (hstate : Holds past state)
    (hrun : runFrom step events state = some last) : Holds (past ++ events) last := by
  induction events generalizing past state with
  | nil =>
    rw [List.append_nil]
    exact Option.some.inj hrun ▸ hstate
  | cons event events ih =>
    obtain ⟨next, hnext, hlater⟩ := (runFrom_cons step).mp hrun
    rw [List.append_cons]
    exact ih (hstep hstate hnext) hlater

/-- A simulation: if an abstract state can follow every step, abstract states follow the run. -/
theorem exists_trace {α : Type*} {Follows : α → α → Prop} (hrefl : ∀ abstract, Follows abstract
      abstract) (Holds : α → σ → Prop) {events : List ε}
    (hstep : ∀ event ∈ events, ∀ {abstract state next}, Holds abstract state →
      step state event = some next → ∃ after, Follows abstract after ∧ Holds after next)
    {abstract : α} {state : σ} (hstate : Holds abstract state) :
    ∃ trace : ℕ → α, trace 0 = abstract ∧ (∀ n, Follows (trace n) (trace (n + 1))) ∧
      ∀ n last, runFrom step (events.take n) state = some last → Holds (trace n) last := by
  induction events generalizing abstract state with
  | nil =>
    refine ⟨fun _ ↦ abstract, rfl, fun _ ↦ hrefl abstract, fun n last hrun ↦ ?_⟩
    rw [List.take_nil] at hrun
    exact Option.some.inj hrun ▸ hstate
  | cons event events ih =>
    obtain ⟨hfirst, hlater⟩ := List.forall_mem_cons.mp hstep
    cases hnext : step state event with
    | none =>
      refine ⟨fun _ ↦ abstract, rfl, fun _ ↦ hrefl abstract, fun n last hrun ↦ ?_⟩
      cases n with
      | zero => exact Option.some.inj hrun ▸ hstate
      | succ n =>
        obtain ⟨next, hsome, -⟩ := (runFrom_cons step).mp hrun
        rw [hnext] at hsome
        cases hsome
    | some next =>
      obtain ⟨after, hfollows, hafter⟩ := hfirst hstate hnext
      obtain ⟨trace, rfl, htrace, hholds⟩ := ih hlater hafter
      refine ⟨fun n ↦ Nat.casesOn n abstract trace, rfl, fun n ↦ ?_, fun n last hrun ↦ ?_⟩
      · cases n with
        | zero => exact hfollows
        | succ n => exact htrace n
      · cases n with
        | zero => exact Option.some.inj hrun ▸ hstate
        | succ n =>
          obtain ⟨next', hnext', hrest⟩ := (runFrom_cons step).mp hrun
          obtain rfl := Option.some.inj (hnext.symm.trans hnext')
          exact hholds n last hrest

namespace Along

variable {Meets Meets' : σ → ε → σ → Prop}

/-- What every step that meets the condition keeps holds at the end of a run along it. -/
theorem invariant {Holds : σ → Prop}
    (hstep : ∀ {state event next}, Holds state → step state event = some next →
      Meets state event next → Holds next)
    {events : List ε} {state last : σ} (hstate : Holds state)
    (halong : Along step Meets events state) (hrun : runFrom step events state = some last) :
    Holds last := by
  induction events generalizing state with
  | nil => exact Option.some.inj hrun ▸ hstate
  | cons event events ih =>
    obtain ⟨next, hnext, hmeets, hlater⟩ := halong
    obtain ⟨next', hnext', hrest⟩ := (runFrom_cons step).mp hrun
    obtain rfl := Option.some.inj (hnext.symm.trans hnext')
    exact ih (hstep hstate hnext hmeets) hlater hrest

/-- What the steps of the events of a run keep along a condition holds at its end. -/
theorem invariant_of_mem {Holds : σ → Prop} {events : List ε}
    (hstep : ∀ event ∈ events, ∀ {state next}, Holds state → step state event = some next →
      Meets state event next → Holds next)
    {state last : σ} (hstate : Holds state) (halong : Along step Meets events state)
    (hrun : runFrom step events state = some last) : Holds last := by
  induction events generalizing state with
  | nil => exact Option.some.inj hrun ▸ hstate
  | cons event events ih =>
    obtain ⟨hfirst, hlater⟩ := List.forall_mem_cons.mp hstep
    obtain ⟨next, hnext, hmeets, hrest⟩ := halong
    obtain ⟨next', hnext', hrun⟩ := (runFrom_cons step).mp hrun
    obtain rfl := Option.some.inj (hnext.symm.trans hnext')
    exact ih hlater (hfirst hstate hnext hmeets) hrest hrun

/-- A run meets a condition that every step meets where an invariant holds. -/
theorem of_invariant (Holds : σ → Prop) {events : List ε}
    (hstep : ∀ {state event next}, Holds state → step state event = some next →
      Holds next ∧ Meets state event next)
    {state last : σ} (hstate : Holds state) (hrun : runFrom step events state = some last) :
    Along step Meets events state := by
  induction events generalizing state with
  | nil => trivial
  | cons event events ih =>
    obtain ⟨next, hnext, hrest⟩ := (runFrom_cons step).mp hrun
    obtain ⟨hholds, hmeets⟩ := hstep hstate hnext
    exact ⟨next, hnext, hmeets, ih hholds hrest⟩

/-- The beginning of a run along a condition is one, too. -/
theorem take {events : List ε} {state : σ} (halong : Along step Meets events state) (n : ℕ) :
    Along step Meets (events.take n) state := by
  induction events generalizing state n with
  | nil =>
    rw [List.take_nil]
    exact halong
  | cons event events ih =>
    obtain ⟨next, hnext, hmeets, hlater⟩ := halong
    cases n with
    | zero => trivial
    | succ n => exact ⟨next, hnext, hmeets, ih hlater n⟩

/-- The rest of a run along a condition is one, too, from where its beginning leads. -/
theorem drop {events : List ε} {state next : σ} (halong : Along step Meets events state) {n : ℕ}
    (hrun : runFrom step (events.take n) state = some next) :
    Along step Meets (events.drop n) next := by
  induction events generalizing state n with
  | nil =>
    rw [List.drop_nil]
    trivial
  | cons event events ih =>
    cases n with
    | zero => exact Option.some.inj hrun ▸ halong
    | succ n =>
      obtain ⟨after, hafter, -, hlater⟩ := halong
      obtain ⟨after', hafter', hrun⟩ := (runFrom_cons step).mp hrun
      obtain rfl := Option.some.inj (hafter.symm.trans hafter')
      exact ih hlater hrun

/-- Steps that meet a condition make a run. -/
theorem exists_last {events : List ε} {state : σ} (halong : Along step Meets events state) :
    ∃ last, runFrom step events state = some last := by
  induction events generalizing state with
  | nil => exact ⟨state, rfl⟩
  | cons event events ih =>
    obtain ⟨next, hnext, -, hlater⟩ := halong
    obtain ⟨last, hlast⟩ := ih hlater
    exact ⟨last, (runFrom_cons step).mpr ⟨next, hnext, hlast⟩⟩

/-- A condition that implies another one wherever an invariant holds implies it along a run. -/
theorem mono {Holds : σ → Prop} {events : List ε}
    (hkeep : ∀ {state event next}, Holds state → step state event = some next → Holds next)
    (hmeets : ∀ {state event next}, Holds state → step state event = some next →
      Meets state event next → Meets' state event next)
    {state : σ} (hstate : Holds state) (halong : Along step Meets events state) :
    Along step Meets' events state := by
  induction events generalizing state with
  | nil => trivial
  | cons event events ih =>
    obtain ⟨next, hnext, hfirst, hlater⟩ := halong
    exact ⟨next, hnext, hmeets hstate hnext hfirst, ih (hkeep hstate hnext) hlater⟩

/-- A condition that keeps an invariant, and with it implies another one, implies it along a run. -/
theorem imp {Holds : σ → Prop}
    (hstep : ∀ {state event next}, Holds state → step state event = some next →
      Meets state event next → Holds next ∧ Meets' state event next)
    {events : List ε} {state : σ} (hstate : Holds state)
    (halong : Along step Meets events state) : Along step Meets' events state := by
  induction events generalizing state with
  | nil => trivial
  | cons event events ih =>
    obtain ⟨next, hnext, hmeets, hlater⟩ := halong
    obtain ⟨hholds, hmeets'⟩ := hstep hstate hnext hmeets
    exact ⟨next, hnext, hmeets', ih hholds hlater⟩

/-- Two conditions that agree wherever an invariant holds, and of which one keeps it, agree on
every run from there. -/
theorem congr {Holds : σ → Prop} {events : List ε}
    (hmeets : ∀ event ∈ events, ∀ {state next}, Holds state → step state event = some next →
      (Meets state event next ↔ Meets' state event next))
    (hkeep : ∀ event ∈ events, ∀ {state next}, Holds state → step state event = some next →
      Meets state event next → Holds next)
    {state : σ} (hstate : Holds state) :
    Along step Meets events state ↔ Along step Meets' events state := by
  induction events generalizing state with
  | nil => exact Iff.rfl
  | cons event events ih =>
    obtain ⟨hmeets, hmeetsLater⟩ := List.forall_mem_cons.mp hmeets
    obtain ⟨hkeep, hkeepLater⟩ := List.forall_mem_cons.mp hkeep
    constructor
    · rintro ⟨next, hnext, hfirst, hlater⟩
      have hholds := hkeep hstate hnext hfirst
      exact ⟨next, hnext, (hmeets hstate hnext).mp hfirst,
        (ih hmeetsLater hkeepLater hholds).mp hlater⟩
    · rintro ⟨next, hnext, hfirst, hlater⟩
      have hfirst' := (hmeets hstate hnext).mpr hfirst
      have hholds := hkeep hstate hnext hfirst'
      exact ⟨next, hnext, hfirst', (ih hmeetsLater hkeepLater hholds).mpr hlater⟩

/-- If a step outside the condition leads to states that no later step leads out of, a run that
ends in no such state meets the condition. -/
theorem of_last {Holds Doomed : σ → Prop} {events : List ε}
    (hkeep : ∀ event ∈ events, ∀ {state next}, Holds state → step state event = some next →
      Meets state event next → Holds next)
    (hdoom : ∀ event ∈ events, ∀ {state next}, Holds state → step state event = some next →
      ¬ Meets state event next → Doomed next)
    (hstay : ∀ event ∈ events, ∀ {state next}, Doomed state → step state event = some next →
      Doomed next)
    {state last : σ} (hstate : Holds state) (hrun : runFrom step events state = some last)
    (hlast : ¬ Doomed last) : Along step Meets events state := by
  have hrest {events : List ε} {state : σ}
      (hstay : ∀ event ∈ events, ∀ {state next}, Doomed state → step state event = some next →
        Doomed next)
      (hdoomed : Doomed state) (hrun : runFrom step events state = some last) : Doomed last := by
    induction events generalizing state with
    | nil => exact Option.some.inj hrun ▸ hdoomed
    | cons event events ih =>
      obtain ⟨hfirst, hlater⟩ := List.forall_mem_cons.mp hstay
      obtain ⟨next, hnext, hrun⟩ := (runFrom_cons step).mp hrun
      exact ih hlater (hfirst hdoomed hnext) hrun
  induction events generalizing state with
  | nil => trivial
  | cons event events ih =>
    obtain ⟨hkeep, hkeepLater⟩ := List.forall_mem_cons.mp hkeep
    obtain ⟨hdoom, hdoomLater⟩ := List.forall_mem_cons.mp hdoom
    obtain ⟨-, hstayLater⟩ := List.forall_mem_cons.mp hstay
    obtain ⟨next, hnext, hrun⟩ := (runFrom_cons step).mp hrun
    by_cases hmeets : Meets state event next
    · exact ⟨next, hnext, hmeets,
        ih hkeepLater hdoomLater hstayLater (hkeep hstate hnext hmeets) hrun⟩
    · exact absurd (hrest hstayLater (hdoom hstate hnext hmeets) hrun) hlast

/-- If a step keeps a property exactly when it meets the condition, and no step brings the property
back, then a run ends with the property exactly when it meets the condition throughout. -/
theorem exists_last_iff {Holds : σ → Prop} {events : List ε}
    (hmeets : ∀ {state event next}, Holds state → step state event = some next →
      (Meets state event next ↔ Holds next))
    (hstay : ∀ {state event next}, ¬ Holds state → step state event = some next → ¬ Holds next)
    {state : σ} (hstate : Holds state) :
    (∃ last, runFrom step events state = some last ∧ Holds last) ↔
      Along step Meets events state := by
  constructor
  · rintro ⟨last, hrun, hlast⟩
    exact of_last (fun _ _ _ _ hholds hnext hmeet ↦ (hmeets hholds hnext).mp hmeet)
      (fun _ _ _ _ hholds hnext hnot hnext' ↦ hnot ((hmeets hholds hnext).mpr hnext'))
      (fun _ _ _ _ hnot hnext ↦ hstay hnot hnext) hstate hrun (not_not.mpr hlast)
  · intro halong
    obtain ⟨last, hrun⟩ := halong.exists_last
    have hstep {state next : σ} {event : ε} (hholds : Holds state)
        (hnext : step state event = some next) (hmeet : Meets state event next) : Holds next :=
      (hmeets hholds hnext).mp hmeet
    exact ⟨last, hrun, halong.invariant hstep hstate hrun⟩

end Along

end LibuvNet.Foundation
