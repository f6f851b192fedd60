import LibuvNet.Foundation.FrameDecoder

/-!
# Accounting for the symbols of a stream

A receiver that is fed piece by piece gets rid of symbols in two ways: it erases a frame from the
front of its buffer, or it clears the buffer.  A `SegmentRule` says which symbols may go as a frame
and which buffers may be cleared.  `Leaves` splits one buffer into what left it and what stayed,
`Accounts` does so for every call of a run, and both splits are unique: no symbol is counted twice
and none is left out.
-/

namespace LibuvNet.Foundation

/-- Symbols that have left a buffer together: erased as one frame, or cleared at once. -/
inductive Segment (α : Type*) where
  | accepted (frame : List α)
  | discarded (run : List α)
  deriving DecidableEq, Repr

namespace Segment

variable {α : Type*}

def symbols : Segment α → List α
  | accepted frame => frame
  | discarded run => run

def frame? : Segment α → Option (List α)
  | accepted frame => some frame
  | discarded _ => none

end Segment

/-- What may be erased as a frame and what may be cleared: frames are told apart by their own
symbols, and nothing that starts with a frame is cleared. -/
structure SegmentRule (α : Type*) where
  Accepted : List α → Prop
  Discarded : List α → Prop
  accepted_unique : ∀ {first second left right}, Accepted first → Accepted second →
    first ++ left = second ++ right → first = second
  not_discarded : ∀ {frame} (later : List α), Accepted frame → ¬ Discarded (frame ++ later)
  discarded_ne_nil : ∀ {run}, Discarded run → run ≠ []

namespace SegmentRule

variable {α : Type*} (rule : SegmentRule α)

/-- The rule allows the segment. -/
def Allows : Segment α → Prop
  | .accepted frame => rule.Accepted frame
  | .discarded run => rule.Discarded run

/-- The segments leave the buffer from the front and the last symbols stay.  A clear takes all that
is there. -/
inductive Leaves : List α → List (Segment α) → List α → Prop
  | stay (rest : List α) : Leaves rest [] rest
  | erase {frame later : List α} {segments : List (Segment α)} {rest : List α} :
      rule.Accepted frame → Leaves later segments rest →
      Leaves (frame ++ later) (.accepted frame :: segments) rest
  | clear {run : List α} : rule.Discarded run → Leaves run [.discarded run] []

/-- No frame is left at the front. -/
def Settled (rest : List α) : Prop :=
  ∀ frame later, rule.Accepted frame → rest ≠ frame ++ later

variable {rule}

namespace Leaves

variable {held rest : List α} {segments : List (Segment α)}

theorem conserves (hleaves : rule.Leaves held segments rest) :
    held = segments.flatMap Segment.symbols ++ rest := by
  induction hleaves with
  | stay rest => rfl
  | @erase frame later segments rest _ _ ih =>
    rw [List.flatMap_cons, List.append_assoc, ← ih]
    rfl
  | @clear run _ => simp [Segment.symbols]

theorem allows (hleaves : rule.Leaves held segments rest) :
    ∀ segment ∈ segments, rule.Allows segment := by
  induction hleaves with
  | stay rest => exact List.forall_mem_nil _
  | erase haccepted _ ih => exact List.forall_mem_cons.mpr ⟨haccepted, ih⟩
  | clear hdiscarded => exact List.forall_mem_singleton.mpr hdiscarded

/-- Only one list of segments leaves given symbols behind, if no frame is at their front. -/
theorem unique {others : List (Segment α)} (hsettled : rule.Settled rest)
    (hleaves : rule.Leaves held segments rest) (hothers : rule.Leaves held others rest) :
    segments = others := by
  induction hleaves generalizing others with
  | stay rest =>
    generalize hheld : rest = held at hothers
    cases hothers with
    | stay => rfl
    | @erase frame later _ _ haccepted _ => exact absurd hheld (hsettled frame later haccepted)
    | clear hdiscarded => exact absurd rfl (rule.discarded_ne_nil hdiscarded)
  | @erase frame later segments rest haccepted _ ih =>
    generalize hheld : frame ++ later = held at hothers
    cases hothers with
    | stay => exact absurd hheld.symm (hsettled frame later haccepted)
    | @erase frame' later' _ _ haccepted' hlater' =>
      obtain rfl := rule.accepted_unique haccepted haccepted' hheld
      obtain rfl := List.append_cancel_left hheld
      rw [ih hsettled hlater']
    | clear hdiscarded =>
      rw [← hheld] at hdiscarded
      exact absurd hdiscarded (rule.not_discarded later haccepted)
  | @clear run hdiscarded =>
    generalize hrest : ([] : List α) = rest at hothers
    cases hothers with
    | stay => exact absurd hrest.symm (rule.discarded_ne_nil hdiscarded)
    | @erase frame later _ _ haccepted _ =>
      exact absurd hdiscarded (rule.not_discarded later haccepted)
    | clear _ => rfl

end Leaves

/-! ## Runs -/

section Runs

variable {ε σ : Type*} (rule) (buffer : σ → List α) (append : List α → σ → Outcome ε σ)

/-- Every call of the run returns, and the segments are what leaves the buffer in each of them. -/
inductive Accounts : List (List α) → σ → List (Segment α) → σ → Prop
  | nil (receiver : σ) : Accounts [] receiver [] receiver
  | cons {piece : List α} {pieces : List (List α)} {receiver mid last : σ}
      {first later : List (Segment α)} :
      append piece receiver = .returned mid →
      rule.Leaves (buffer receiver ++ piece) first (buffer mid) →
      Accounts pieces mid later last →
      Accounts (piece :: pieces) receiver (first ++ later) last

variable {rule buffer append}

namespace Accounts

variable {pieces : List (List α)} {receiver last : σ} {segments : List (Segment α)}

theorem forEach_eq (haccounts : rule.Accounts buffer append pieces receiver segments last) :
    Outcome.forEach append pieces receiver = .returned last := by
  induction haccounts with
  | nil receiver => rfl
  | cons happend _ _ ih => rw [Outcome.forEach_cons_returned happend, ih]

/-- What was held and fed is what left and what is held. -/
theorem conserves (haccounts : rule.Accounts buffer append pieces receiver segments last) :
    buffer receiver ++ pieces.flatten = segments.flatMap Segment.symbols ++ buffer last := by
  induction haccounts with
  | nil receiver => simp
  | @cons piece pieces receiver mid last first later _ hleaves _ ih =>
    calc buffer receiver ++ (piece :: pieces).flatten
        = buffer receiver ++ piece ++ pieces.flatten := by
          rw [List.flatten_cons, List.append_assoc]
      _ = first.flatMap Segment.symbols ++ (buffer mid ++ pieces.flatten) := by
          rw [hleaves.conserves, List.append_assoc]
      _ = (first ++ later).flatMap Segment.symbols ++ buffer last := by
          rw [ih, List.flatMap_append, List.append_assoc]

theorem allows (haccounts : rule.Accounts buffer append pieces receiver segments last) :
    ∀ segment ∈ segments, rule.Allows segment := by
  induction haccounts with
  | nil receiver => exact List.forall_mem_nil _
  | cons _ hleaves _ ih => exact List.forall_mem_append.mpr ⟨hleaves.allows, ih⟩

/-- If no call leaves a frame at the front of the buffer, the account of a run is unique. -/
theorem unique (hsettled : ∀ piece receiver mid, append piece receiver = .returned mid →
      rule.Settled (buffer mid)) {others : List (Segment α)} {last' : σ}
    (haccounts : rule.Accounts buffer append pieces receiver segments last)
    (hothers : rule.Accounts buffer append pieces receiver others last') :
    segments = others := by
  induction haccounts generalizing others last' with
  | nil receiver =>
    cases hothers
    rfl
  | @cons piece pieces receiver mid last first later happend hleaves _ ih =>
    cases hothers with
    | @cons _ _ _ mid' _ first' later' happend' hleaves' hlater' =>
      obtain rfl := Outcome.returned.inj (happend.symm.trans happend')
      rw [hleaves.unique (hsettled piece receiver mid happend) hleaves', ih hlater']

end Accounts

end Runs

end SegmentRule

/-! ## Frame decoders -/

namespace FrameDecoder

variable {α β : Type*} (decoder : FrameDecoder α β)

/-- What a decoder keeps of a buffer is left by segments, whose frames are those of the parse,
whenever it takes frames and rejects fronts as the rule says. -/
theorem leaves_kept (rule : SegmentRule α) (value : List α → β)
    (hframe : ∀ {held found size}, decoder.scan held = .frame found size →
      rule.Accepted (held.take size) ∧ value (held.take size) = found)
    (hreject : ∀ {held}, decoder.scan held = .reject → rule.Discarded held) (held : List α) :
    ∃ segments, rule.Leaves held segments (decoder.kept held) ∧
      (segments.filterMap Segment.frame?).map value = (decoder.parse held).values := by
  induction held using decoder.parse_induction with
  | more held hscan =>
    rw [decoder.kept_of_clean (decoder.clean_of_more hscan), decoder.parse_of_more hscan]
    exact ⟨[], .stay held, rfl⟩
  | reject held hscan =>
    have hkept : decoder.kept held = [] := by simp [kept, decoder.parse_of_reject hscan, hscan]
    rw [hkept, decoder.parse_of_reject hscan]
    exact ⟨[.discarded held], .clear (hreject hscan), rfl⟩
  | frame held found size hscan ih =>
    obtain ⟨segments, hleaves, hvalues⟩ := ih
    have hkept : decoder.kept held = decoder.kept (held.drop size) := by
      simp only [kept, decoder.parse_of_frame hscan]
    obtain ⟨haccepted, hvalue⟩ := hframe hscan
    refine ⟨.accepted (held.take size) :: segments, ?_, ?_⟩
    · have herase := SegmentRule.Leaves.erase haccepted hleaves
      rwa [List.take_append_drop, ← hkept] at herase
    · rw [decoder.parse_of_frame hscan, ← hvalues]
      exact congrArg (· :: _) hvalue

end FrameDecoder

end LibuvNet.Foundation
