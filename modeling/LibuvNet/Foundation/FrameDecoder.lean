import Mathlib.Algebra.GroupWithZero.Nat
import Mathlib.Data.List.Basic
import Mathlib.Data.List.TakeDrop
import Mathlib.Data.Nat.Basic

/-!
# Incremental frame decoders

A receiver of a byte stream sees it in arbitrary pieces.  It keeps the bytes it cannot use yet,
and after every piece it takes complete frames off the front of what it holds.  A `FrameDecoder`
is the rule that looks at the front of the held symbols and says whether a frame is complete,
whether more symbols are needed, or whether the front can never become a frame; its laws say that
a verdict once given is not changed by symbols that arrive later.

`parse` is the mathematical reading of a stream, `drain` the loop that runs an action for every
frame, and `decode` the receiver that is fed piece by piece.  The results relate the three: a
drain whose action returns is the parse followed by a fold, and the receiver agrees with the parse
of the whole stream exactly when nothing follows a rejected frame.
-/

namespace LibuvNet.Foundation

/-- How a call ends: it returns, or an exception leaves it in the given state. -/
inductive Outcome (ε σ : Type*) where
  | returned (state : σ)
  | threw (error : ε) (state : σ)
  deriving DecidableEq, Repr

namespace Outcome

variable {ε σ τ : Type*}

/-- Continue after a call that returned. -/
def andThen (outcome : Outcome ε σ) (next : σ → Outcome ε σ) : Outcome ε σ :=
  match outcome with
  | returned state => next state
  | threw error state => threw error state

/-- The state of the outcome seen through a function. -/
def map (view : σ → τ) : Outcome ε σ → Outcome ε τ
  | returned state => returned (view state)
  | threw error state => threw error (view state)

/-- Run a step for every item in turn, as long as it returns. -/
def forEach {ι : Type*} (step : ι → σ → Outcome ε σ) : List ι → σ → Outcome ε σ
  | [], state => returned state
  | item :: items, state => (step item state).andThen (forEach step items)

/-- The state a call leaves, however it ends. -/
def last : Outcome ε σ → σ
  | returned state => state
  | threw _ state => state

/-- The exception, if the call threw one. -/
def error? : Outcome ε σ → Option ε
  | returned _ => none
  | threw error _ => some error

/-- The state, if the call returned. -/
def returned? : Outcome ε σ → Option σ
  | returned state => some state
  | threw _ _ => none

@[simp]
theorem returned?_eq_some {outcome : Outcome ε σ} {state : σ} :
    outcome.returned? = some state ↔ outcome = returned state := by
  cases outcome with
  | returned last => simp [returned?]
  | threw error last => simp [returned?]

@[simp]
theorem last_returned (state : σ) : (returned state : Outcome ε σ).last = state := rfl

@[simp]
theorem last_threw (error : ε) (state : σ) : (threw error state).last = state := rfl

@[simp]
theorem last_map (view : σ → τ) (outcome : Outcome ε σ) :
    (outcome.map view).last = view outcome.last := by
  cases outcome with
  | returned state => rfl
  | threw error state => rfl

@[simp]
theorem andThen_returned (state : σ) (next : σ → Outcome ε σ) :
    (returned state).andThen next = next state := rfl

@[simp]
theorem andThen_threw (error : ε) (state : σ) (next : σ → Outcome ε σ) :
    (threw error state).andThen next = threw error state := rfl

@[simp]
theorem map_returned (view : σ → τ) (state : σ) :
    (returned state : Outcome ε σ).map view = returned (view state) := rfl

@[simp]
theorem map_threw (view : σ → τ) (error : ε) (state : σ) :
    (threw error state).map view = threw error (view state) := rfl

theorem map_map {υ : Type*} (first : σ → τ) (second : τ → υ) (outcome : Outcome ε σ) :
    (outcome.map first).map second = outcome.map fun state ↦ second (first state) := by
  cases outcome with
  | returned state => rfl
  | threw error state => rfl

theorem andThen_eq_returned {outcome : Outcome ε σ} {next : σ → Outcome ε σ} {last : σ}
    (h : outcome.andThen next = returned last) :
    ∃ state, outcome = returned state ∧ next state = returned last := by
  cases outcome with
  | returned state => exact ⟨state, rfl, h⟩
  | threw error state => cases h

theorem map_eq_returned {outcome : Outcome ε σ} {view : σ → τ} {last : τ}
    (h : outcome.map view = returned last) :
    ∃ state, outcome = returned state ∧ view state = last := by
  cases outcome with
  | returned state =>
    rw [map_returned] at h
    cases h
    exact ⟨state, rfl, rfl⟩
  | threw error state => cases h

theorem forEach_cons_returned {ι : Type*} {step : ι → σ → Outcome ε σ} {item : ι} {items : List ι}
    {state next : σ} (hstep : step item state = returned next) :
    forEach step (item :: items) state = forEach step items next := by
  rw [forEach, hstep, andThen_returned]

theorem forEach_cons_threw {ι : Type*} {step : ι → σ → Outcome ε σ} {item : ι} {items : List ι}
    {state next : σ} {error : ε} (hstep : step item state = threw error next) :
    forEach step (item :: items) state = threw error next := by
  rw [forEach, hstep, andThen_threw]

theorem forEach_append {ι : Type*} (step : ι → σ → Outcome ε σ) (first second : List ι)
    (state : σ) :
    forEach step (first ++ second) state =
      (forEach step first state).andThen (forEach step second) := by
  induction first generalizing state with
  | nil => rfl
  | cons item first ih =>
    rw [List.cons_append, forEach, forEach]
    cases step item state with
    | returned next => exact ih next
    | threw error next => rfl

/-- What every step that returns keeps, holds after all steps. -/
theorem forEach_preserves {ι : Type*} {step : ι → σ → Outcome ε σ} {Holds : σ → Prop}
    (hstep : ∀ item state, Holds state → ∀ next, step item state = returned next → Holds next)
    {items : List ι} {state next : σ} (hstate : Holds state)
    (hrun : forEach step items state = returned next) : Holds next := by
  induction items generalizing state with
  | nil =>
    cases hrun
    exact hstate
  | cons item items ih =>
    obtain ⟨mid, hmid, hlater⟩ := andThen_eq_returned hrun
    exact ih (hstep item state hstate mid hmid) hlater

/-- What the steps leave in a growing trace stands there in their order. -/
theorem forEach_traced {ι : Type*} {step : ι → σ → Outcome ε σ} {trace : σ → List τ}
    {emits : ι → List τ}
    (hstep : ∀ item state next, step item state = returned next →
      trace next = trace state ++ emits item)
    {items : List ι} {state next : σ} (hrun : forEach step items state = returned next) :
    trace next = trace state ++ items.flatMap emits := by
  induction items generalizing state with
  | nil =>
    cases hrun
    exact (List.append_nil _).symm
  | cons item items ih =>
    obtain ⟨mid, hmid, hlater⟩ := andThen_eq_returned hrun
    calc trace next
        = trace mid ++ items.flatMap emits := ih hlater
      _ = trace state ++ (emits item ++ items.flatMap emits) := by
          rw [hstep item state mid hmid, List.append_assoc]
      _ = trace state ++ (item :: items).flatMap emits := by
          rw [List.flatMap_cons]

/-- Two ways of running the same steps, seen through a function, have the same outcome. -/
theorem forEach_map {ι : Type*} {step : ι → σ → Outcome ε σ} {step' : ι → τ → Outcome ε τ}
    (view : σ → τ) (hstep : ∀ item state, step' item (view state) = (step item state).map view)
    (items : List ι) (state : σ) :
    forEach step' items (view state) = (forEach step items state).map view := by
  induction items generalizing state with
  | nil => rfl
  | cons item items ih =>
    rw [forEach, forEach, hstep]
    cases step item state with
    | returned next => exact ih next
    | threw error next => rfl

end Outcome

/-- What the front of the held symbols is: too short to tell, a frame of some size, or hopeless. -/
inductive Verdict (β : Type*) where
  | more
  | frame (value : β) (size : ℕ)
  | reject
  deriving DecidableEq, Repr

/-- A rule for finding frames at the front of a stream, stable under later symbols. -/
structure FrameDecoder (α β : Type*) where
  scan : List α → Verdict β
  scan_nil : scan [] = .more
  size_pos : ∀ {held value size}, scan held = .frame value size → 0 < size
  size_le : ∀ {held value size}, scan held = .frame value size → size ≤ held.length
  frame_append : ∀ {held value size} (later : List α),
    scan held = .frame value size → scan (held ++ later) = .frame value size
  reject_append : ∀ {held} (later : List α),
    scan held = .reject → scan (held ++ later) = .reject

/-- The frames found at the front of a stream and the symbols left behind them. -/
structure Parse (α β : Type*) where
  values : List β
  rest : List α
  deriving DecidableEq, Repr

namespace FrameDecoder

variable {α β : Type*} (decoder : FrameDecoder α β)

/-! ## Reading a whole stream -/

/-- Take at most `fuel` frames off the front. -/
def parseUpTo : ℕ → List α → Parse α β
  | 0, held => ⟨[], held⟩
  | fuel + 1, held =>
    match decoder.scan held with
    | .frame value size =>
      let later := parseUpTo fuel (held.drop size)
      ⟨value :: later.values, later.rest⟩
    | _ => ⟨[], held⟩

/-- All frames at the front of a stream.  Every frame has a symbol, so the length is fuel enough. -/
def parse (held : List α) : Parse α β :=
  decoder.parseUpTo held.length held

theorem drop_length_lt {held : List α} {value : β} {size : ℕ}
    (hscan : decoder.scan held = .frame value size) :
    (held.drop size).length < held.length := by
  have hpos := decoder.size_pos hscan
  have hle := decoder.size_le hscan
  rw [List.length_drop]
  omega

theorem parseUpTo_eq_parse {fuel : ℕ} {held : List α} (hfuel : held.length ≤ fuel) :
    decoder.parseUpTo fuel held = decoder.parse held := by
  -- Both fuels suffice, so compare them through the fuel they share.
  have hstable : ∀ (extra fuel : ℕ) (held : List α), held.length ≤ fuel →
      decoder.parseUpTo (fuel + extra) held = decoder.parseUpTo fuel held := by
    intro extra fuel
    induction fuel with
    | zero =>
      intro held hlength
      obtain rfl := List.length_eq_zero_iff.mp (Nat.le_zero.mp hlength)
      cases extra with
      | zero => rfl
      | succ extra => simp only [parseUpTo, decoder.scan_nil]
    | succ fuel ih =>
      intro held hlength
      rw [Nat.add_right_comm, parseUpTo, parseUpTo]
      cases hscan : decoder.scan held with
      | more => rfl
      | reject => rfl
      | frame value size =>
        have hlt := decoder.drop_length_lt hscan
        simp only [ih (held.drop size) (by omega)]
  obtain ⟨extra, rfl⟩ := Nat.exists_eq_add_of_le hfuel
  exact hstable extra held.length held le_rfl

theorem parse_of_more {held : List α} (hscan : decoder.scan held = .more) :
    decoder.parse held = ⟨[], held⟩ := by
  rw [← decoder.parseUpTo_eq_parse (Nat.le_succ _), parseUpTo, hscan]

theorem parse_of_reject {held : List α} (hscan : decoder.scan held = .reject) :
    decoder.parse held = ⟨[], held⟩ := by
  rw [← decoder.parseUpTo_eq_parse (Nat.le_succ _), parseUpTo, hscan]

theorem parse_of_frame {held : List α} {value : β} {size : ℕ}
    (hscan : decoder.scan held = .frame value size) :
    decoder.parse held =
      ⟨value :: (decoder.parse (held.drop size)).values,
        (decoder.parse (held.drop size)).rest⟩ := by
  have hle := Nat.le_of_lt (decoder.drop_length_lt hscan)
  rw [← decoder.parseUpTo_eq_parse (Nat.le_succ _), parseUpTo, hscan]
  simp only [decoder.parseUpTo_eq_parse hle]

@[simp]
theorem parse_nil : decoder.parse [] = ⟨[], []⟩ :=
  decoder.parse_of_more decoder.scan_nil

/-- Induction along the frames of a stream: a stream that needs more, one that is rejected at its
front, and one whose front is a frame followed by a shorter stream. -/
@[elab_as_elim]
theorem parse_induction {motive : List α → Prop}
    (more : ∀ held, decoder.scan held = .more → motive held)
    (reject : ∀ held, decoder.scan held = .reject → motive held)
    (frame : ∀ held value size, decoder.scan held = .frame value size →
      motive (held.drop size) → motive held)
    (held : List α) : motive held := by
  induction hlength : held.length using Nat.strong_induction_on generalizing held with
  | _ length ih =>
    subst hlength
    cases hscan : decoder.scan held with
    | more => exact more held hscan
    | reject => exact reject held hscan
    | frame value size =>
      exact frame held value size hscan
        (ih _ (decoder.drop_length_lt hscan) (held.drop size) rfl)

/-- A stream none of whose frames is rejected. -/
def Clean (held : List α) : Prop :=
  decoder.scan (decoder.parse held).rest = .more

instance (held : List α) [DecidableEq β] : Decidable (decoder.Clean held) := by
  unfold Clean
  infer_instance

/-- What a receiver keeps: the unfinished front, or nothing once a front was rejected. -/
def kept (held : List α) : List α :=
  match decoder.scan (decoder.parse held).rest with
  | .more => (decoder.parse held).rest
  | _ => []

theorem clean_of_more {held : List α} (hscan : decoder.scan held = .more) :
    decoder.Clean held := by
  rw [Clean, decoder.parse_of_more hscan]
  exact hscan

theorem scan_rest (held : List α) :
    decoder.scan (decoder.parse held).rest = .more ∨
      decoder.scan (decoder.parse held).rest = .reject := by
  induction held using decoder.parse_induction with
  | more held hscan => simp only [decoder.parse_of_more hscan, hscan, true_or]
  | reject held hscan => simp only [decoder.parse_of_reject hscan, hscan, or_true]
  | frame held value size hscan ih => simpa only [decoder.parse_of_frame hscan] using ih

theorem scan_rest_of_not_clean {held : List α} (hclean : ¬ decoder.Clean held) :
    decoder.scan (decoder.parse held).rest = .reject :=
  (decoder.scan_rest held).resolve_left hclean

theorem kept_of_clean {held : List α} (hclean : decoder.Clean held) :
    decoder.kept held = (decoder.parse held).rest := by
  simp only [kept, show decoder.scan (decoder.parse held).rest = .more from hclean]

theorem kept_of_not_clean {held : List α} (hclean : ¬ decoder.Clean held) :
    decoder.kept held = [] := by
  simp only [kept, decoder.scan_rest_of_not_clean hclean]

/-- The frames of a stream and what is kept of it are no longer than the stream. -/
theorem sizes_add_kept_le (size : β → ℕ)
    (hsize : ∀ {held value count}, decoder.scan held = .frame value count → size value ≤ count)
    (held : List α) :
    ((decoder.parse held).values.map size).sum + (decoder.kept held).length ≤ held.length := by
  have hkept : (decoder.kept held).length ≤ (decoder.parse held).rest.length := by
    unfold kept
    split
    · exact le_rfl
    · exact Nat.zero_le _
  have hparse : ((decoder.parse held).values.map size).sum + (decoder.parse held).rest.length ≤
      held.length := by
    clear hkept
    induction held using decoder.parse_induction with
    | more held hscan => simp [decoder.parse_of_more hscan]
    | reject held hscan => simp [decoder.parse_of_reject hscan]
    | frame held value count hscan ih =>
      have hle := decoder.size_le hscan
      have hvalue := hsize hscan
      rw [List.length_drop] at ih
      simp only [decoder.parse_of_frame hscan, List.map_cons, List.sum_cons]
      omega
  omega

theorem scan_kept (held : List α) : decoder.scan (decoder.kept held) = .more := by
  by_cases hclean : decoder.Clean held
  · rw [decoder.kept_of_clean hclean]
    exact hclean
  · rw [decoder.kept_of_not_clean hclean]
    exact decoder.scan_nil

/-- Reading a longer stream continues where the reading of its first part stopped. -/
theorem parse_append (held later : List α) :
    decoder.parse (held ++ later) =
      ⟨(decoder.parse held).values ++ (decoder.parse ((decoder.parse held).rest ++ later)).values,
        (decoder.parse ((decoder.parse held).rest ++ later)).rest⟩ := by
  induction held using decoder.parse_induction with
  | more held hscan => simp only [decoder.parse_of_more hscan, List.nil_append]
  | reject held hscan => simp only [decoder.parse_of_reject hscan, List.nil_append]
  | frame held value size hscan ih =>
    have hdrop : (held ++ later).drop size = held.drop size ++ later :=
      List.drop_append_of_le_length (decoder.size_le hscan)
    simp only [decoder.parse_of_frame (decoder.frame_append later hscan),
      decoder.parse_of_frame hscan, hdrop, ih, List.cons_append]

theorem clean_append_iff (held later : List α) :
    decoder.Clean (held ++ later) ↔ decoder.Clean ((decoder.parse held).rest ++ later) := by
  simp only [Clean, decoder.parse_append held later]

/-- A rejected front stays rejected, so the parts of a clean stream are clean. -/
theorem clean_of_clean_append {held later : List α} (hclean : decoder.Clean (held ++ later)) :
    decoder.Clean held := by
  by_contra hreject
  have hfront := decoder.reject_append later (decoder.scan_rest_of_not_clean hreject)
  rw [decoder.clean_append_iff, Clean, decoder.parse_of_reject hfront, hfront] at hclean
  cases hclean

/-! ## Acting on every frame -/

section Drain

variable {ε σ : Type*} (act : β → σ → Outcome ε σ)

/-- The loop of a receiver: act on the front frame, then remove it; forget everything at a
rejected front; stop when more symbols are needed.  An exception leaves the frame in place. -/
def drainUpTo : ℕ → List α → σ → Outcome ε (List α × σ)
  | 0, held, state => .returned (held, state)
  | fuel + 1, held, state =>
    match decoder.scan held with
    | .more => .returned (held, state)
    | .reject => .returned ([], state)
    | .frame value size =>
      match act value state with
      | .returned state => drainUpTo fuel (held.drop size) state
      | .threw error state => .threw error (held, state)

/-- The loop run until no complete frame is left. -/
def drain (held : List α) (state : σ) : Outcome ε (List α × σ) :=
  decoder.drainUpTo act held.length held state

theorem drainUpTo_eq_drain {fuel : ℕ} {held : List α} (hfuel : held.length ≤ fuel) (state : σ) :
    decoder.drainUpTo act fuel held state = decoder.drain act held state := by
  have hstable : ∀ (extra fuel : ℕ) (held : List α) (state : σ), held.length ≤ fuel →
      decoder.drainUpTo act (fuel + extra) held state =
        decoder.drainUpTo act fuel held state := by
    intro extra fuel
    induction fuel with
    | zero =>
      intro held state hlength
      obtain rfl := List.length_eq_zero_iff.mp (Nat.le_zero.mp hlength)
      cases extra with
      | zero => rfl
      | succ extra => simp only [drainUpTo, decoder.scan_nil]
    | succ fuel ih =>
      intro held state hlength
      rw [Nat.add_right_comm, drainUpTo, drainUpTo]
      cases hscan : decoder.scan held with
      | more => rfl
      | reject => rfl
      | frame value size =>
        have hlt := decoder.drop_length_lt hscan
        cases hact : act value state with
        | threw error after => simp only [hact]
        | returned after => simp only [hact, ih (held.drop size) after (by omega)]
  obtain ⟨extra, rfl⟩ := Nat.exists_eq_add_of_le hfuel
  exact hstable extra held.length held state le_rfl

theorem drain_of_more {held : List α} (hscan : decoder.scan held = .more) (state : σ) :
    decoder.drain act held state = .returned (held, state) := by
  rw [← decoder.drainUpTo_eq_drain act (Nat.le_succ _), drainUpTo, hscan]

theorem drain_of_reject {held : List α} (hscan : decoder.scan held = .reject) (state : σ) :
    decoder.drain act held state = .returned ([], state) := by
  rw [← decoder.drainUpTo_eq_drain act (Nat.le_succ _), drainUpTo, hscan]

theorem drain_of_frame {held : List α} {value : β} {size : ℕ}
    (hscan : decoder.scan held = .frame value size) {state next : σ}
    (hact : act value state = .returned next) :
    decoder.drain act held state = decoder.drain act (held.drop size) next := by
  have hle := Nat.le_of_lt (decoder.drop_length_lt hscan)
  rw [← decoder.drainUpTo_eq_drain act (Nat.le_succ _), drainUpTo, hscan]
  simp only [hact, decoder.drainUpTo_eq_drain act hle]

theorem drain_of_frame_threw {held : List α} {value : β} {size : ℕ}
    (hscan : decoder.scan held = .frame value size) {state next : σ} {error : ε}
    (hact : act value state = .threw error next) :
    decoder.drain act held state = .threw error (held, next) := by
  rw [← decoder.drainUpTo_eq_drain act (Nat.le_succ _), drainUpTo, hscan]
  simp only [hact]

/-- Two actions that agree as seen through a function are run alike by the loop. -/
theorem drain_map {τ : Type*} {act' : β → τ → Outcome ε τ} (view : σ → τ)
    (hact : ∀ value state, act' value (view state) = (act value state).map view)
    (held : List α) (state : σ) :
    decoder.drain act' held (view state) =
      (decoder.drain act held state).map fun pair ↦ (pair.1, view pair.2) := by
  induction held using decoder.parse_induction generalizing state with
  | more held hscan => rw [decoder.drain_of_more _ hscan, decoder.drain_of_more _ hscan]; rfl
  | reject held hscan => rw [decoder.drain_of_reject _ hscan, decoder.drain_of_reject _ hscan]; rfl
  | frame held value size hscan ih =>
    have hview := hact value state
    cases hstep : act value state with
    | returned next =>
      rw [hstep] at hview
      rw [decoder.drain_of_frame act' hscan hview, decoder.drain_of_frame act hscan hstep]
      exact ih next
    | threw error next =>
      rw [hstep] at hview
      rw [decoder.drain_of_frame_threw act' hscan hview,
        decoder.drain_of_frame_threw act hscan hstep]
      rfl

/-- However the loop ends, it leaves the state its actions leave for the frames of the parse. -/
theorem drain_last (held : List α) (state : σ) :
    (decoder.drain act held state).last.2 =
      (Outcome.forEach act (decoder.parse held).values state).last := by
  induction held using decoder.parse_induction generalizing state with
  | more held hscan =>
    rw [decoder.drain_of_more act hscan, decoder.parse_of_more hscan]
    rfl
  | reject held hscan =>
    rw [decoder.drain_of_reject act hscan, decoder.parse_of_reject hscan]
    rfl
  | frame held value size hscan ih =>
    rw [decoder.parse_of_frame hscan]
    cases hstep : act value state with
    | returned next =>
      rw [decoder.drain_of_frame act hscan hstep, Outcome.forEach_cons_returned hstep]
      exact ih next
    | threw error next =>
      rw [decoder.drain_of_frame_threw act hscan hstep, Outcome.forEach_cons_threw hstep]
      rfl

/-- A loop that returns keeps what the parse leaves, and has acted on its frames in turn. -/
theorem drain_returned {held rest : List α} {state next : σ}
    (hdrain : decoder.drain act held state = .returned (rest, next)) :
    rest = decoder.kept held ∧
      Outcome.forEach act (decoder.parse held).values state = .returned next := by
  induction held using decoder.parse_induction generalizing state with
  | more held hscan =>
    rw [decoder.drain_of_more act hscan] at hdrain
    cases hdrain
    rw [decoder.kept_of_clean (decoder.clean_of_more hscan), decoder.parse_of_more hscan]
    exact ⟨rfl, rfl⟩
  | reject held hscan =>
    have hclean : ¬ decoder.Clean held := by
      simp [Clean, decoder.parse_of_reject hscan, hscan]
    rw [decoder.drain_of_reject act hscan] at hdrain
    cases hdrain
    rw [decoder.kept_of_not_clean hclean, decoder.parse_of_reject hscan]
    exact ⟨rfl, rfl⟩
  | frame held value size hscan ih =>
    have hkept : decoder.kept held = decoder.kept (held.drop size) := by
      simp only [kept, decoder.parse_of_frame hscan]
    cases hstep : act value state with
    | threw error after =>
      rw [decoder.drain_of_frame_threw act hscan hstep] at hdrain
      cases hdrain
    | returned after =>
      rw [decoder.drain_of_frame act hscan hstep] at hdrain
      obtain ⟨hrest, hlater⟩ := ih hdrain
      rw [decoder.parse_of_frame hscan, Outcome.forEach_cons_returned hstep]
      exact ⟨hrest.trans hkept.symm, hlater⟩

/-- A loop whose action throws stops at a complete frame. -/
theorem drain_threw {held rest : List α} {state next : σ} {error : ε}
    (hdrain : decoder.drain act held state = .threw error (rest, next)) :
    ∃ value size, decoder.scan rest = .frame value size := by
  induction held using decoder.parse_induction generalizing state with
  | more held hscan =>
    rw [decoder.drain_of_more act hscan] at hdrain
    cases hdrain
  | reject held hscan =>
    rw [decoder.drain_of_reject act hscan] at hdrain
    cases hdrain
  | frame held value size hscan ih =>
    cases hstep : act value state with
    | threw error after =>
      rw [decoder.drain_of_frame_threw act hscan hstep] at hdrain
      cases hdrain
      exact ⟨value, size, hscan⟩
    | returned after =>
      rw [decoder.drain_of_frame act hscan hstep] at hdrain
      exact ih hdrain

/-- The loop returns if the action returns on every frame of the stream. -/
theorem drain_returns (held : List α) (state : σ)
    (hreturns : ∀ value ∈ (decoder.parse held).values, ∀ state,
      ∃ next, act value state = .returned next) :
    ∃ after, decoder.drain act held state = .returned after := by
  induction held using decoder.parse_induction generalizing state with
  | more held hscan => exact ⟨_, decoder.drain_of_more act hscan state⟩
  | reject held hscan => exact ⟨_, decoder.drain_of_reject act hscan state⟩
  | frame held value size hscan ih =>
    rw [decoder.parse_of_frame hscan] at hreturns
    obtain ⟨next, hnext⟩ := hreturns value List.mem_cons_self state
    rw [decoder.drain_of_frame act hscan hnext]
    exact ih next fun later hlater ↦ hreturns later (List.mem_cons_of_mem value hlater)

/-- A loop that returns keeps what the parse leaves, and what its actions leave in a growing
trace is what they leave for the frames of the parse, in order. -/
theorem drain_traced {τ : Type*} (trace : σ → List τ) (emits : β → List τ)
    (hact : ∀ value state next, act value state = .returned next →
      trace next = trace state ++ emits value)
    {held rest : List α} {state next : σ}
    (hdrain : decoder.drain act held state = .returned (rest, next)) :
    rest = decoder.kept held ∧
      trace next = trace state ++ (decoder.parse held).values.flatMap emits := by
  obtain ⟨hrest, hvalues⟩ := decoder.drain_returned act hdrain
  exact ⟨hrest, Outcome.forEach_traced hact hvalues⟩

/-- A property of the state that every returning action keeps holds after the loop. -/
theorem drain_preserves (Holds : σ → Prop)
    (hact : ∀ value state, Holds state → ∀ next, act value state = .returned next → Holds next)
    {held rest : List α} {state next : σ} (hstate : Holds state)
    (hdrain : decoder.drain act held state = .returned (rest, next)) : Holds next :=
  Outcome.forEach_preserves hact hstate (decoder.drain_returned act hdrain).2

/-- If an action on related states can follow every action that returns, the loop can follow the
loop, and holds the same. -/
theorem drain_follows {τ : Type*} {act' : β → τ → Outcome ε τ} {Related : σ → τ → Prop}
    (hact : ∀ {value state next other}, Related state other → act value state = .returned next →
      ∃ after, act' value other = .returned after ∧ Related next after)
    {held rest : List α} {state next : σ} {other : τ} (hrelated : Related state other)
    (hdrain : decoder.drain act held state = .returned (rest, next)) :
    ∃ after, decoder.drain act' held other = .returned (rest, after) ∧ Related next after := by
  induction held using decoder.parse_induction generalizing state other with
  | more held hscan =>
    rw [decoder.drain_of_more act hscan] at hdrain
    cases hdrain
    exact ⟨other, decoder.drain_of_more act' hscan other, hrelated⟩
  | reject held hscan =>
    rw [decoder.drain_of_reject act hscan] at hdrain
    cases hdrain
    exact ⟨other, decoder.drain_of_reject act' hscan other, hrelated⟩
  | frame held value size hscan ih =>
    cases hstep : act value state with
    | threw error middle =>
      rw [decoder.drain_of_frame_threw act hscan hstep] at hdrain
      cases hdrain
    | returned middle =>
      rw [decoder.drain_of_frame act hscan hstep] at hdrain
      obtain ⟨follower, hfollower, hmiddle⟩ := hact hrelated hstep
      rw [decoder.drain_of_frame act' hscan hfollower]
      exact ih hmiddle hdrain

end Drain

/-! ## Feeding a stream in pieces -/

/-- A receiver fed piece by piece: the frames it finds and the symbols it holds at the end. -/
def decode : List (List α) → List α → List β × List α
  | [], held => ([], held)
  | piece :: pieces, held =>
    let later := decode pieces (decoder.kept (held ++ piece))
    ((decoder.parse (held ++ piece)).values ++ later.1, later.2)

/-- A receiver that is fed some pieces and then some more. -/
theorem decode_append (first second : List (List α)) (held : List α) :
    decoder.decode (first ++ second) held =
      ((decoder.decode first held).1 ++ (decoder.decode second (decoder.decode first held).2).1,
        (decoder.decode second (decoder.decode first held).2).2) := by
  induction first generalizing held with
  | nil => rfl
  | cons piece first ih =>
    simp only [List.cons_append, decode, ih, List.append_assoc]

section Feed

variable {ε σ : Type*} (act : β → σ → Outcome ε σ)

/-- One call of a receiver: append a piece to what is held, then run the loop. -/
def append (piece : List α) (receiver : List α × σ) : Outcome ε (List α × σ) :=
  decoder.drain act (receiver.1 ++ piece) receiver.2

/-- The calls of a receiver for a list of pieces. -/
def feed (pieces : List (List α)) (receiver : List α × σ) : Outcome ε (List α × σ) :=
  Outcome.forEach (decoder.append act) pieces receiver

theorem feed_returns (pieces : List (List α)) (held : List α) (state : σ)
    (hreturns : ∀ value ∈ (decoder.decode pieces held).1, ∀ state,
      ∃ next, act value state = .returned next) :
    ∃ after, decoder.feed act pieces (held, state) = .returned after := by
  induction pieces generalizing held state with
  | nil => exact ⟨_, rfl⟩
  | cons piece pieces ih =>
    simp only [decode, List.mem_append] at hreturns
    obtain ⟨⟨rest, next⟩, hdrain⟩ := decoder.drain_returns act (held ++ piece) state
      fun value hvalue ↦ hreturns value (Or.inl hvalue)
    obtain ⟨rfl, -⟩ := decoder.drain_returned act hdrain
    obtain ⟨after, hafter⟩ := ih (decoder.kept (held ++ piece)) next
      fun value hvalue ↦ hreturns value (Or.inr hvalue)
    refine ⟨after, ?_⟩
    rw [feed, Outcome.forEach, append, hdrain]
    exact hafter

/-- What a fed receiver holds and traces is what `decode` computes. -/
theorem feed_traced {τ : Type*} (trace : σ → List τ) (emits : β → List τ)
    (hact : ∀ value state next, act value state = .returned next →
      trace next = trace state ++ emits value)
    {pieces : List (List α)} {held rest : List α} {state next : σ}
    (hfeed : decoder.feed act pieces (held, state) = .returned (rest, next)) :
    rest = (decoder.decode pieces held).2 ∧
      trace next = trace state ++ (decoder.decode pieces held).1.flatMap emits := by
  induction pieces generalizing held state with
  | nil =>
    cases hfeed
    simp [decode]
  | cons piece pieces ih =>
    obtain ⟨⟨mid, after⟩, hdrain, hlater⟩ := Outcome.andThen_eq_returned hfeed
    obtain ⟨rfl, hmid⟩ := decoder.drain_traced act trace emits hact hdrain
    obtain ⟨hrest, htrace⟩ := ih hlater
    simp only [decode, List.flatMap_append, ← List.append_assoc, ← hmid]
    exact ⟨hrest, htrace⟩

end Feed

/-- No rejected front is followed by another symbol. -/
def EndsAtReject (stream : List α) : Prop :=
  ∀ front back, front ++ back = stream → back ≠ [] → decoder.Clean front

theorem endsAtReject_of_clean {stream : List α} (hclean : decoder.Clean stream) :
    decoder.EndsAtReject stream := by
  rintro front back rfl -
  exact decoder.clean_of_clean_append hclean

/-- Whether it is so shows without the last symbol. -/
theorem endsAtReject_iff_clean_dropLast {stream : List α} :
    decoder.EndsAtReject stream ↔ decoder.Clean stream.dropLast := by
  constructor
  · intro hends
    rcases eq_or_ne stream [] with rfl | hstream
    · exact decoder.clean_of_more decoder.scan_nil
    · exact hends _ [stream.getLast hstream] (List.dropLast_append_getLast hstream)
        (List.cons_ne_nil _ _)
  · rintro hclean front back rfl hback
    rw [List.dropLast_append_of_ne_nil hback] at hclean
    exact decoder.clean_of_clean_append hclean

theorem endsAtReject_rest_append {held later : List α}
    (hends : decoder.EndsAtReject (held ++ later)) (hclean : decoder.Clean held) :
    decoder.EndsAtReject ((decoder.parse held).rest ++ later) := by
  intro front back heq hback
  -- The front stops inside the unfinished rest, or it reaches into the later symbols.
  rcases List.append_eq_append_iff.mp heq with ⟨middle, hrest, hbackeq⟩ | ⟨middle, hfront, hlater⟩
  · have hmore : decoder.Clean (decoder.parse held).rest := decoder.clean_of_more hclean
    rw [hrest] at hmore
    exact decoder.clean_of_clean_append hmore
  · subst hfront
    rw [← decoder.clean_append_iff]
    exact hends (held ++ middle) back (by rw [hlater, List.append_assoc]) hback

/-- As long as no rejected front is followed by another symbol, feeding the pieces one by one is
reading the whole stream at once. -/
theorem decode_eq_parse (pieces : List (List α)) {held : List α}
    (hheld : decoder.scan held = .more)
    (hends : decoder.EndsAtReject (held ++ pieces.flatten)) :
    decoder.decode pieces held =
      ((decoder.parse (held ++ pieces.flatten)).values,
        decoder.kept (held ++ pieces.flatten)) := by
  induction pieces generalizing held with
  | nil =>
    have hclean := decoder.clean_of_more hheld
    simp only [decode, List.flatten_nil, List.append_nil, decoder.kept_of_clean hclean,
      decoder.parse_of_more hheld]
  | cons piece pieces ih =>
    rw [List.flatten_cons, ← List.append_assoc] at hends ⊢
    have hkept := decoder.scan_kept (held ++ piece)
    by_cases hclean : decoder.Clean (held ++ piece)
    · have hends' := decoder.endsAtReject_rest_append hends hclean
      rw [← decoder.kept_of_clean hclean] at hends'
      have happend := decoder.parse_append (held ++ piece) pieces.flatten
      rw [← decoder.kept_of_clean hclean] at happend
      have hkept' : decoder.kept (held ++ piece ++ pieces.flatten) =
          decoder.kept (decoder.kept (held ++ piece) ++ pieces.flatten) := by
        conv_lhs => rw [kept, happend]
        rfl
      calc decoder.decode (piece :: pieces) held
          = ((decoder.parse (held ++ piece)).values ++
                (decoder.decode pieces (decoder.kept (held ++ piece))).1,
              (decoder.decode pieces (decoder.kept (held ++ piece))).2) := rfl
        _ = ((decoder.parse (held ++ piece)).values ++
                (decoder.parse (decoder.kept (held ++ piece) ++ pieces.flatten)).values,
              decoder.kept (decoder.kept (held ++ piece) ++ pieces.flatten)) := by
            rw [ih hkept hends']
        _ = ((decoder.parse (held ++ piece ++ pieces.flatten)).values,
              decoder.kept (held ++ piece ++ pieces.flatten)) := by
            rw [happend, hkept']
    · -- The front is rejected, so by assumption nothing follows it.
      have hnil : pieces.flatten = [] := by
        by_contra hne
        exact hclean (hends (held ++ piece) pieces.flatten rfl hne)
      have hrest := ih hkept (by
        rw [hnil, List.append_nil]
        exact decoder.endsAtReject_of_clean (decoder.clean_of_more hkept))
      rw [hnil, List.append_nil, decoder.parse_of_more hkept,
        decoder.kept_of_clean (decoder.clean_of_more hkept), decoder.parse_of_more hkept] at hrest
      simp only [decode, hrest, hnil, List.append_nil]

/-- Whatever the pieces, the frames before the first rejected one come first. -/
theorem parse_values_prefix_decode (pieces : List (List α)) (held : List α)
    (hheld : decoder.scan held = .more) :
    (decoder.parse (held ++ pieces.flatten)).values <+: (decoder.decode pieces held).1 := by
  induction pieces generalizing held with
  | nil => simp [decoder.parse_of_more hheld]
  | cons piece pieces ih =>
    rw [List.flatten_cons, ← List.append_assoc, decoder.parse_append (held ++ piece)]
    simp only [decode]
    apply List.prefix_append_right_inj _ |>.mpr
    by_cases hclean : decoder.Clean (held ++ piece)
    · rw [← decoder.kept_of_clean hclean]
      exact ih (decoder.kept (held ++ piece)) (decoder.scan_kept (held ++ piece))
    · have hreject := decoder.reject_append pieces.flatten (decoder.scan_rest_of_not_clean hclean)
      rw [decoder.parse_of_reject hreject]
      exact List.nil_prefix

/-- **Piece independence.** All ways of cutting a stream are read alike exactly when no rejected
front is followed by another symbol, provided a single symbol is never rejected. -/
theorem decode_independent_iff (hsingle : ∀ symbol, decoder.scan [symbol] ≠ .reject)
    (stream : List α) :
    (∀ left right : List (List α), left.flatten = stream → right.flatten = stream →
        decoder.decode left [] = decoder.decode right []) ↔
      decoder.EndsAtReject stream := by
  constructor
  · intro hsame front back hstream hback
    by_contra hclean
    obtain ⟨middle, symbol, rfl⟩ : ∃ middle symbol, back = middle ++ [symbol] :=
      ⟨back.dropLast, back.getLast hback, (List.dropLast_append_getLast hback).symm⟩
    -- One piece forgets the last symbol with the rest; a cut before it keeps it.
    rw [← List.append_assoc] at hstream
    have hinit : ¬ decoder.Clean (front ++ middle) := fun h ↦
      hclean (decoder.clean_of_clean_append h)
    have hwhole : ¬ decoder.Clean (front ++ middle ++ [symbol]) := fun h ↦
      hinit (decoder.clean_of_clean_append h)
    have heq := hsame [stream] [front ++ middle, [symbol]] (by simp) (by simp [← hstream])
    have hparse := decoder.parse_append (front ++ middle) [symbol]
    rw [decoder.parse_of_reject
      (decoder.reject_append [symbol] (decoder.scan_rest_of_not_clean hinit))] at hparse
    simp only [decode, ← hstream, List.nil_append, List.append_nil, hparse,
      decoder.kept_of_not_clean hinit, decoder.kept_of_not_clean hwhole, Prod.mk.injEq,
      List.self_eq_append_right] at heq
    cases hscan : decoder.scan [symbol] with
    | more =>
      rw [decoder.kept_of_clean (decoder.clean_of_more hscan),
        decoder.parse_of_more hscan] at heq
      simp at heq
    | reject => exact hsingle symbol hscan
    | frame value size =>
      rw [decoder.parse_of_frame hscan] at heq
      simp at heq
  · intro hends left right hleft hright
    have hnil : decoder.scan [] = .more := decoder.scan_nil
    rw [decoder.decode_eq_parse left hnil (by simpa [hleft] using hends),
      decoder.decode_eq_parse right hnil (by simpa [hright] using hends), hleft, hright]

end FrameDecoder

end LibuvNet.Foundation
