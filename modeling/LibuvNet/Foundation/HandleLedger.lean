import Mathlib.Data.List.Basic

/-!
# Handles of a loop and the ledger of their use

An event loop owns handles: a handle is initialised on the loop, later it is passed to a close
function, and the loop reports once it is done with it.  A ledger lists these calls in order.  What
has become of a handle is read off the ledger, and a loop may go when it is drained: every handle
that was ever initialised on it is closed.
-/

namespace LibuvNet.Foundation

/-- What a ledger lists: a handle is initialised, is passed to the close function, or its close
callback has run. -/
inductive HandleCall (η : Type*) where
  | init (handle : η)
  | close (handle : η)
  | closed (handle : η)
  deriving DecidableEq, Repr

/-- What has become of a handle. -/
inductive HandlePhase where
  | absent
  | opened
  | closing
  | closed
  deriving DecidableEq, Repr

variable {η : Type*}

def HandleCall.handle : HandleCall η → η
  | init handle | close handle | closed handle => handle

/-- The phase of a handle after a call about it. -/
def HandlePhase.after : HandlePhase → HandleCall η → HandlePhase
  | _, .init _ => .opened
  | .opened, .close _ => .closing
  | .closing, .closed _ => .closed
  | phase, _ => phase

namespace HandleLedger

variable [DecidableEq η] (ledger : List (HandleCall η))

/-- The calls about a handle. -/
def about (handle : η) : List (HandleCall η) :=
  ledger.filter fun call ↦ call.handle = handle

def phase (handle : η) : HandlePhase :=
  (about ledger handle).foldl HandlePhase.after .absent

/-- Every handle that was initialised is closed. -/
def Drained : Prop :=
  ∀ handle, phase ledger handle = .absent ∨ phase ledger handle = .closed

variable {ledger} {later : List (HandleCall η)} {handle : η}

theorem phase_append :
    phase (ledger ++ later) handle =
      (about later handle).foldl HandlePhase.after (phase ledger handle) := by
  rw [phase, about, List.filter_append, List.foldl_append]
  rfl

/-- Calls about other handles say nothing about a handle. -/
theorem phase_append_of_ne (hother : ∀ call ∈ later, call.handle ≠ handle) :
    phase (ledger ++ later) handle = phase ledger handle := by
  have hnone : about later handle = [] := by
    rw [about, List.filter_eq_nil_iff]
    intro call hcall
    simpa using hother call hcall
  rw [phase_append, hnone, List.foldl_nil]

theorem phase_append_self {call : HandleCall η} (hcall : call.handle = handle) :
    phase (ledger ++ [call]) handle = (phase ledger handle).after call := by
  have hone : about [call] handle = [call] := by simp [about, hcall]
  rw [phase_append, hone, List.foldl_cons, List.foldl_nil]

theorem phase_eq_absent (hother : ∀ call ∈ ledger, call.handle ≠ handle) :
    phase ledger handle = .absent := by
  have hsame : phase ([] ++ ledger) handle = phase [] handle := phase_append_of_ne hother
  exact hsame

/-- A handle that was initialised and never passed to the close function stays with the loop. -/
theorem phase_eq_opened (hinit : .init handle ∈ ledger) (hclose : .close handle ∉ ledger) :
    phase ledger handle = .opened := by
  obtain ⟨front, behind, rfl⟩ := List.append_of_mem hinit
  have hbehind : HandleCall.close handle ∉ behind := fun hmem ↦
    hclose (List.mem_append_right front (List.mem_cons_of_mem _ hmem))
  have hstay (calls : List (HandleCall η))
      (hcalls : ∀ call ∈ calls, call.handle = handle ∧ call ≠ .close handle) :
      calls.foldl HandlePhase.after .opened = .opened := by
    induction calls with
    | nil => rfl
    | cons call calls ih =>
      obtain ⟨⟨hhandle, hne⟩, hlater⟩ := List.forall_mem_cons.mp hcalls
      have hcall : HandlePhase.opened.after call = .opened := by
        cases call with
        | init other => rfl
        | close other => exact absurd (congrArg HandleCall.close hhandle) hne
        | closed other => rfl
      rw [List.foldl_cons, hcall, ih hlater]
  have hsplit : front ++ .init handle :: behind = front ++ [.init handle] ++ behind := by simp
  have hopened : phase (front ++ [.init handle]) handle = .opened := phase_append_self rfl
  rw [hsplit, phase_append, hopened]
  apply hstay
  intro call hcall
  obtain ⟨hmem, hhandle⟩ := List.mem_filter.mp hcall
  refine ⟨by simpa using hhandle, ?_⟩
  rintro rfl
  exact hbehind hmem

theorem not_drained (hinit : .init handle ∈ ledger) (hclose : .close handle ∉ ledger) :
    ¬ Drained ledger := by
  intro hdrained
  rcases hdrained handle with habsent | hclosed
  · simp [phase_eq_opened hinit hclose] at habsent
  · simp [phase_eq_opened hinit hclose] at hclosed

end HandleLedger

end LibuvNet.Foundation
