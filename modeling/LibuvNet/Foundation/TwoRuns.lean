import LibuvNet.Foundation.Run

/-!
# Two runs side by side

What can be seen of a run is a list with one entry for each event.  Two runs with the same events
are compared in what is seen of them, and both have to meet a condition at every step: beyond a
step that does not, what is seen of a run means nothing.
-/

namespace LibuvNet.Foundation

variable {σ ε ω : Type*} (step : σ → ε → Option σ) (see : σ → ε → σ → ω)

/-- What is seen of a run, for as long as its events are possible. -/
def seen : List ε → σ → List ω
  | [], _ => []
  | event :: events, state =>
    match step state event with
    | none => []
    | some next => see state event next :: seen events next

variable {step see} {event : ε} {events : List ε} {first second next other : σ}

theorem seen_cons (hstep : step first event = some next) :
    seen step see (event :: events) first =
      see first event next :: seen step see events next := by
  rw [seen, hstep]

theorem seen_cons_eq_iff (hfirst : step first event = some next)
    (hsecond : step second event = some other) :
    seen step see (event :: events) first = seen step see (event :: events) second ↔
      see first event next = see second event other ∧
        seen step see events next = seen step see events other := by
  rw [seen_cons hfirst, seen_cons hsecond, List.cons.injEq]

variable (step see) in
/-- Two runs of the same events meet a condition at every step, and look the same. -/
structure SideBySide (Meets : σ → ε → σ → Prop) (events : List ε) (first second : σ) : Prop where
  meets : Along step Meets events first
  meets' : Along step Meets events second
  seen : seen step see events first = seen step see events second

namespace SideBySide

variable {Meets : σ → ε → σ → Prop}

/-- They do if their first steps do and the rest of the runs does. -/
theorem cons_iff (hfirst : step first event = some next)
    (hsecond : step second event = some other) :
    SideBySide step see Meets (event :: events) first second ↔
      (Meets first event next ∧ Meets second event other ∧
          see first event next = see second event other) ∧
        SideBySide step see Meets events next other := by
  constructor
  · rintro ⟨⟨next', hnext, hmeets, hlater⟩, ⟨other', hother, hmeets', hlater'⟩, hseen⟩
    obtain rfl := Option.some.inj (hfirst.symm.trans hnext)
    obtain rfl := Option.some.inj (hsecond.symm.trans hother)
    obtain ⟨hsee, hrest⟩ := (seen_cons_eq_iff hfirst hsecond).mp hseen
    exact ⟨⟨hmeets, hmeets', hsee⟩, hlater, hlater', hrest⟩
  · rintro ⟨⟨hmeets, hmeets', hsee⟩, hlater, hlater', hrest⟩
    exact ⟨⟨next, hfirst, hmeets, hlater⟩, ⟨other, hsecond, hmeets', hlater'⟩,
      (seen_cons_eq_iff hfirst hsecond).mpr ⟨hsee, hrest⟩⟩

/-- A run that meets the condition, and itself. -/
theorem refl {state : σ} (hmeets : Along step Meets events state) :
    SideBySide step see Meets events state state := ⟨hmeets, hmeets, rfl⟩

end SideBySide

end LibuvNet.Foundation
