import LibuvNet.Foundation.FrameDecoder

/-!
# Handing items to handlers

A `Router` looks every item up in a table.  The look-up fails, or finds nobody, or finds a handler,
which is then called with the item and may change the state and throw.  The items of a list are
handed over one after the other, until one of them ends by an exception.

Some handlers mark the state: after them no item should be heard any more.  `watch` keeps an
account of this next to the state, and the results say of which lists of items nothing is heard
behind a mark.
-/

namespace LibuvNet.Foundation

/-- A way of handing items to handlers.  `pass` is what an item does that nobody handles. -/
structure Router (ε σ ι η : Type*) where
  route : ι → Except ε (Option η)
  pass : ι → σ → σ
  invoke : η → ι → σ → Outcome ε σ

/-- A state, whether a handler has marked it, and the items heard behind the mark. -/
structure Watched (σ ι : Type*) where
  state : σ
  marked : Bool
  late : List ι

namespace Watched

variable {ε σ ι η : Type*}

/-- Nothing is marked and nothing is late. -/
def start (state : σ) : Watched σ ι := ⟨state, false, []⟩

/-- A change of the state. -/
def map (change : σ → σ) (watched : Watched σ ι) : Watched σ ι :=
  { watched with state := change watched.state }

/-- The call of a handler, with its account.  A mark counts once the handler has returned. -/
def invoke (marks : η → ι → σ → Bool) (handle : η → ι → σ → Outcome ε σ) (handler : η) (item : ι)
    (watched : Watched σ ι) : Outcome ε (Watched σ ι) :=
  let late := if watched.marked then watched.late ++ [item] else watched.late
  match handle handler item watched.state with
  | .returned next => .returned ⟨next, watched.marked || marks handler item watched.state, late⟩
  | .threw error next => .threw error ⟨next, watched.marked, late⟩

/-- The account does not disturb the handler. -/
theorem invoke_state (marks : η → ι → σ → Bool) (handle : η → ι → σ → Outcome ε σ) (handler : η)
    (item : ι) (watched : Watched σ ι) :
    (watched.invoke marks handle handler item).map state = handle handler item watched.state := by
  unfold invoke
  cases handle handler item watched.state with
  | returned next => rfl
  | threw error next => rfl

/-- What is heard behind a mark is late. -/
theorem invoke_late (marks : η → ι → σ → Bool) (handle : η → ι → σ → Outcome ε σ) (handler : η)
    (item : ι) (watched : Watched σ ι) :
    (watched.invoke marks handle handler item).last.late =
      if watched.marked then watched.late ++ [item] else watched.late := by
  unfold invoke
  cases handle handler item watched.state with
  | returned next => rfl
  | threw error next => rfl

end Watched

namespace Router

variable {ε σ ι η : Type*} (router : Router ε σ ι η)

/-- Hand one item over. -/
def dispatch (item : ι) (state : σ) : Outcome ε σ :=
  match router.route item with
  | .error error => .threw error state
  | .ok none => .returned (router.pass item state)
  | .ok (some handler) => router.invoke handler item state

variable {router} {item : ι} {items : List ι} {handler : η} {error : ε} {state : σ}

theorem dispatch_of_error (hroute : router.route item = .error error) (state : σ) :
    router.dispatch item state = .threw error state := by
  rw [dispatch, hroute]

theorem dispatch_of_none (hroute : router.route item = .ok none) (state : σ) :
    router.dispatch item state = .returned (router.pass item state) := by
  rw [dispatch, hroute]

theorem dispatch_of_some (hroute : router.route item = .ok (some handler)) (state : σ) :
    router.dispatch item state = router.invoke handler item state := by
  rw [dispatch, hroute]

/-! ## Lists in which nobody is called -/

variable (router)

/-- No item reaches a handler before a look-up fails. -/
def Unheard : List ι → Prop
  | [] => True
  | item :: items =>
    match router.route item with
    | .error _ => True
    | .ok none => Unheard items
    | .ok (some _) => False

instance Unheard.decidable : (items : List ι) → Decidable (router.Unheard items)
  | [] => isTrue trivial
  | item :: items => by
    unfold Unheard
    cases router.route item with
    | error error => exact isTrue trivial
    | ok found =>
      cases found with
      | none => exact Unheard.decidable items
      | some handler => exact isFalse id

variable {router}

theorem unheard_of_error (hroute : router.route item = .error error) :
    router.Unheard (item :: items) := by
  rw [Unheard, hroute]
  trivial

theorem unheard_of_none (hroute : router.route item = .ok none) :
    router.Unheard (item :: items) ↔ router.Unheard items := by
  rw [Unheard, hroute]

theorem not_unheard_of_some (hroute : router.route item = .ok (some handler)) :
    ¬ router.Unheard (item :: items) := by
  rw [Unheard, hroute]
  exact id

/-- Of a list in which nobody is called, those items return that go to nobody. -/
theorem unheard_of_append {front behind : List ι} {after : σ}
    (hunheard : router.Unheard (front ++ behind))
    (hfront : Outcome.forEach router.dispatch front state = .returned after) :
    router.Unheard behind := by
  induction front generalizing state with
  | nil => exact hunheard
  | cons item front ih =>
    cases hroute : router.route item with
    | error error =>
      rw [Outcome.forEach_cons_threw (dispatch_of_error hroute state)] at hfront
      cases hfront
    | ok found =>
      cases found with
      | none =>
        rw [Outcome.forEach_cons_returned (dispatch_of_none hroute state)] at hfront
        exact ih ((unheard_of_none hroute).mp hunheard) hfront
      | some handler => exact absurd hunheard (not_unheard_of_some hroute)

/-! ## What is heard behind a mark -/

variable (router) (marks : η → ι → σ → Bool)

/-- The router with its account. -/
def watch : Router ε (Watched σ ι) ι η where
  route := router.route
  pass item := Watched.map (router.pass item)
  invoke := Watched.invoke marks router.invoke

/-- Wherever a handler marks the state, nothing is heard of the items behind. -/
def MarksLast (items : List ι) (state : σ) : Prop :=
  ∀ front item behind handler before after, items = front ++ item :: behind →
    Outcome.forEach router.dispatch front state = .returned before →
    router.route item = .ok (some handler) → marks handler item before →
    router.invoke handler item before = .returned after → router.Unheard behind

/-- Behind a mark nobody is called; before it, nobody behind the first mark. -/
def Quiet (items : List ι) (watched : Watched σ ι) : Prop :=
  if watched.marked then router.Unheard items else router.MarksLast marks items watched.state

variable {router} {marks}

theorem watch_of_error (hroute : router.route item = .error error) (watched : Watched σ ι) :
    (router.watch marks).dispatch item watched = .threw error watched := by
  have hwatch : (router.watch marks).route item = .error error := hroute
  exact dispatch_of_error hwatch watched

theorem watch_of_none (hroute : router.route item = .ok none) (watched : Watched σ ι) :
    (router.watch marks).dispatch item watched = .returned (watched.map (router.pass item)) := by
  have hwatch : (router.watch marks).route item = .ok none := hroute
  exact dispatch_of_none hwatch watched

theorem watch_of_some (hroute : router.route item = .ok (some handler)) (watched : Watched σ ι) :
    (router.watch marks).dispatch item watched =
      watched.invoke marks router.invoke handler item := by
  have hwatch : (router.watch marks).route item = .ok (some handler) := hroute
  exact dispatch_of_some hwatch watched

theorem marksLast_nil (state : σ) : router.MarksLast marks [] state := by
  intro front item behind _ _ _ hitems
  simp at hitems

/-- Where an item returns without a mark, only the items behind it matter. -/
theorem marksLast_cons {next : σ} (hdispatch : router.dispatch item state = .returned next)
    (hmarks : ∀ handler, router.route item = .ok (some handler) → ¬ marks handler item state) :
    router.MarksLast marks (item :: items) state ↔ router.MarksLast marks items next := by
  constructor
  · intro hlast front marking behind handler before after hitems hbefore
    apply hlast (item :: front) marking behind handler before after
    · rw [hitems, List.cons_append]
    · rw [Outcome.forEach_cons_returned hdispatch, hbefore]
  · intro hlast front marking behind handler before after hitems hbefore hroute hmark hinvoke
    cases front with
    | nil =>
      cases hbefore
      obtain ⟨rfl, rfl⟩ := List.cons.inj hitems
      exact absurd hmark (hmarks handler hroute)
    | cons first front =>
      obtain ⟨rfl, hrest⟩ := List.cons.inj hitems
      rw [Outcome.forEach_cons_returned hdispatch] at hbefore
      exact hlast front marking behind handler before after hrest hbefore hroute hmark hinvoke

/-- Where an item throws, nothing behind it matters. -/
theorem marksLast_of_threw {next : σ} (hdispatch : router.dispatch item state = .threw error next) :
    router.MarksLast marks (item :: items) state := by
  intro front marking behind handler before after hitems hbefore hroute hmark hinvoke
  cases front with
  | nil =>
    cases hbefore
    obtain ⟨rfl, rfl⟩ := List.cons.inj hitems
    rw [dispatch_of_some hroute, hinvoke] at hdispatch
    cases hdispatch
  | cons first front =>
    obtain ⟨rfl, -⟩ := List.cons.inj hitems
    rw [Outcome.forEach_cons_threw hdispatch] at hbefore
    cases hbefore

/-- Where a handler marks the state and returns, it must be the last that is called. -/
theorem marksLast_of_mark {next : σ} (hroute : router.route item = .ok (some handler))
    (hmark : marks handler item state)
    (hinvoke : router.invoke handler item state = .returned next) :
    router.MarksLast marks (item :: items) state ↔ router.Unheard items := by
  constructor
  · intro hlast
    exact hlast [] item items handler state next rfl rfl hroute hmark hinvoke
  · intro hunheard front marking behind handler' before after hitems hbefore hroute' _ _
    cases front with
    | nil =>
      obtain ⟨rfl, rfl⟩ := List.cons.inj hitems
      exact hunheard
    | cons first front =>
      obtain ⟨rfl, hrest⟩ := List.cons.inj hitems
      rw [Outcome.forEach_cons_returned ((dispatch_of_some hroute state).trans hinvoke)] at hbefore
      rw [hrest] at hunheard
      exact absurd (unheard_of_append hunheard hbefore) (not_unheard_of_some hroute')

/-- Nothing is taken from the account. -/
theorem late_isPrefix_dispatch (item : ι) (watched : Watched σ ι) :
    watched.late <+: ((router.watch marks).dispatch item watched).last.late := by
  cases hroute : router.route item with
  | error error =>
    rw [watch_of_error hroute]
    exact List.prefix_rfl
  | ok found =>
    cases found with
    | none =>
      rw [watch_of_none hroute]
      exact List.prefix_rfl
    | some handler =>
      rw [watch_of_some hroute, Watched.invoke_late]
      split
      · exact List.prefix_append _ _
      · exact List.prefix_rfl

theorem late_isPrefix (items : List ι) (watched : Watched σ ι) :
    watched.late <+: (Outcome.forEach (router.watch marks).dispatch items watched).last.late := by
  induction items generalizing watched with
  | nil => exact List.prefix_rfl
  | cons item items ih =>
    have hitem : watched.late <+: ((router.watch marks).dispatch item watched).last.late :=
      late_isPrefix_dispatch item watched
    cases hdispatch : (router.watch marks).dispatch item watched with
    | returned next =>
      rw [hdispatch] at hitem
      rw [Outcome.forEach_cons_returned hdispatch]
      exact hitem.trans (ih next)
    | threw error next =>
      rw [hdispatch] at hitem
      rw [Outcome.forEach_cons_threw hdispatch]
      exact hitem

theorem late_isPrefix_cons (item : ι) (items : List ι) (watched : Watched σ ι) :
    ((router.watch marks).dispatch item watched).last.late <+:
      (Outcome.forEach (router.watch marks).dispatch (item :: items) watched).last.late := by
  cases hdispatch : (router.watch marks).dispatch item watched with
  | returned next =>
    rw [Outcome.forEach_cons_returned hdispatch]
    exact late_isPrefix items next
  | threw error next => simp only [Outcome.forEach_cons_threw hdispatch, List.prefix_rfl]

/-- Behind a mark nothing is late exactly when nothing is heard. -/
theorem late_nil_iff_unheard {watched : Watched σ ι} (hmarked : watched.marked)
    (hlate : watched.late = []) :
    (Outcome.forEach (router.watch marks).dispatch items watched).last.late = [] ↔
      router.Unheard items := by
  induction items generalizing watched with
  | nil => exact iff_of_true hlate trivial
  | cons item items ih =>
    cases hroute : router.route item with
    | error error =>
      rw [Outcome.forEach_cons_threw (watch_of_error hroute watched)]
      exact iff_of_true hlate (unheard_of_error hroute)
    | ok found =>
      cases found with
      | none =>
        rw [Outcome.forEach_cons_returned (watch_of_none hroute watched), unheard_of_none hroute]
        exact ih hmarked hlate
      | some handler =>
        apply iff_of_false _ (not_unheard_of_some hroute)
        intro hnil
        have hlonger : watched.late ++ [item] <+: [] := by
          calc watched.late ++ [item]
              = ((router.watch marks).dispatch item watched).last.late := by
                rw [watch_of_some hroute, Watched.invoke_late, if_pos hmarked]
            _ <+: _ := late_isPrefix_cons item items watched
            _ = [] := hnil
        simp at hlonger

/-- Before the first mark nothing is late exactly when nothing is heard behind it. -/
theorem late_nil_iff_marksLast {watched : Watched σ ι} (hmarked : watched.marked = false)
    (hlate : watched.late = []) :
    (Outcome.forEach (router.watch marks).dispatch items watched).last.late = [] ↔
      router.MarksLast marks items watched.state := by
  induction items generalizing watched with
  | nil => exact iff_of_true hlate (marksLast_nil watched.state)
  | cons item items ih =>
    cases hroute : router.route item with
    | error error =>
      rw [Outcome.forEach_cons_threw (watch_of_error hroute watched)]
      exact iff_of_true hlate (marksLast_of_threw (dispatch_of_error hroute watched.state))
    | ok found =>
      cases found with
      | none =>
        rw [Outcome.forEach_cons_returned (watch_of_none hroute watched),
          marksLast_cons (dispatch_of_none hroute watched.state)
            (by rw [hroute]; exact fun _ ↦ nofun)]
        exact ih hmarked hlate
      | some handler =>
        have hdispatch := dispatch_of_some hroute watched.state
        have hwatch : (router.watch marks).dispatch item watched =
            watched.invoke marks router.invoke handler item := watch_of_some hroute watched
        rw [Watched.invoke, hmarked, if_neg Bool.false_ne_true, Bool.false_or] at hwatch
        cases hinvoke : router.invoke handler item watched.state with
        | threw error next =>
          rw [hinvoke] at hdispatch hwatch
          rw [Outcome.forEach_cons_threw hwatch]
          exact iff_of_true hlate (marksLast_of_threw hdispatch)
        | returned next =>
          rw [hinvoke] at hdispatch hwatch
          rw [Outcome.forEach_cons_returned hwatch]
          by_cases hmark : marks handler item watched.state
          · rw [marksLast_of_mark hroute hmark hinvoke]
            exact late_nil_iff_unheard hmark hlate
          · have hothers (found : η) (hfound : router.route item = .ok (some found)) :
                ¬ marks found item watched.state := by
              rw [hroute] at hfound
              cases hfound
              exact hmark
            rw [marksLast_cons hdispatch hothers]
            exact ih (by simpa using hmark) hlate

/-- From a state in which nothing is late, nothing becomes late exactly when the items are quiet. -/
theorem late_nil_iff_quiet {watched : Watched σ ι} (hlate : watched.late = []) :
    (Outcome.forEach (router.watch marks).dispatch items watched).last.late = [] ↔
      router.Quiet marks items watched := by
  unfold Quiet
  split
  · rename_i hmarked
    exact late_nil_iff_unheard hmarked hlate
  · rename_i hmarked
    exact late_nil_iff_marksLast (by simpa using hmarked) hlate

end Router

end LibuvNet.Foundation
