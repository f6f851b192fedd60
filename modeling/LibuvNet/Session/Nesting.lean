import LibuvNet.Session.Reentry

/-!
# Nested calls

What holds of every call of `append_to_buffer`, whatever the handlers do and however deep they
nest: a call that comes to an end does so with any larger amount of fuel, it takes nothing from the
record of the handler calls, and it calls the handler of a complete frame at the front of the
buffer.  So a handler that feeds its own session is called again with the frame it is handling.
-/

namespace LibuvNet

open Foundation

namespace Session

variable {σ V H : Type*}

/-! ## More fuel changes nothing -/

section Fuel

variable {host : Host} {reentrant : ReentrantProgram σ V H}
  {append append' : Bytes → Reader σ → Result σ}

/-- Where the first way of appending comes to an end, the second does too, and alike. -/
def Continues (append append' : Bytes → Reader σ → Result σ) : Prop :=
  ∀ {data reader outcome}, append data reader = .ok outcome → append' data reader = .ok outcome

theorem Script.run_continues (happend : Continues append append') {script : Script σ}
    {reader : Reader σ} {outcome : Outcome Exn (Reader σ)}
    (hrun : script.run host append reader = .ok outcome) :
    script.run host append' reader = .ok outcome := by
  induction script generalizing reader with
  | finish state throws =>
    cases throws with
    | none => exact hrun
    | some error => exact hrun
  | append state messages resume ih =>
    obtain ⟨ended, hcall, hrest⟩ := (Script.run_append_eq_ok host).mp hrun
    exact (Script.run_append_eq_ok host).mpr ⟨ended, happend hcall, ih _ _ hrest⟩

theorem handlePacketBy_continues (happend : Continues append append') {packet : Packet}
    {reader : Reader σ} {outcome : Outcome Exn (Reader σ)}
    (hhandle : handlePacketBy host reentrant append packet reader = .ok outcome) :
    handlePacketBy host reentrant append' packet reader = .ok outcome := by
  cases hroute : (router reentrant.program).route packet with
  | error error => rwa [handlePacketBy_of_error hroute] at hhandle ⊢
  | ok found =>
    cases found with
    | none => rwa [handlePacketBy_of_none hroute] at hhandle ⊢
    | some handler =>
      rw [handlePacketBy_of_some hroute] at hhandle ⊢
      exact Script.run_continues happend hhandle

theorem process_succ {fuel : ℕ} {reader : Reader σ} {outcome : Outcome Exn (Reader σ)}
    (hprocess : process host reentrant fuel reader = .ok outcome) :
    process host reentrant (fuel + 1) reader = .ok outcome := by
  induction fuel generalizing reader outcome with
  | zero => cases hprocess
  | succ fuel ih =>
    obtain ⟨fewer, hfuel, hmore | hreject | ⟨packet, size, hscan, hafter⟩⟩ :=
      process_cases hprocess
    · rw [process_of_more _ hmore.1, hmore.2]
    · rw [process_of_reject _ hreject.1, hreject.2]
    · obtain rfl := Nat.succ.inj hfuel
      have hcontinues : Continues (appendBy host reentrant fuel)
          (appendBy host reentrant (fuel + 1)) := ih
      rw [process_of_frame _ hscan]
      rcases afterHandling_cases hafter with ⟨error, next, hhandled, rfl⟩ |
        ⟨next, hhandled, hvalid, hrest⟩
      · rw [handlePacketBy_continues hcontinues hhandled]
        rfl
      · rw [handlePacketBy_continues hcontinues hhandled]
        exact (if_pos hvalid).trans (ih hrest)

theorem process_add {fuel : ℕ} {reader : Reader σ} {outcome : Outcome Exn (Reader σ)}
    (hprocess : process host reentrant fuel reader = .ok outcome) (extra : ℕ) :
    process host reentrant (fuel + extra) reader = .ok outcome := by
  induction extra with
  | zero => exact hprocess
  | succ extra ih => exact process_succ ih

theorem feedBy_add {fuel : ℕ} {chunks : List Bytes} {reader last : Reader σ}
    (hfeed : feedBy host reentrant fuel chunks reader = .ok last) (extra : ℕ) :
    feedBy host reentrant (fuel + extra) chunks reader = .ok last := by
  induction chunks generalizing reader with
  | nil => exact hfeed
  | cons chunk chunks ih =>
    obtain ⟨outcome, hcall, hlater⟩ := feedBy_cons_eq_ok.mp hfeed
    exact feedBy_cons_eq_ok.mpr ⟨outcome, process_add hcall extra, ih hlater⟩

end Fuel

/-! ## The record of the calls grows -/

section Record

variable {host : Host} {reentrant : ReentrantProgram σ V H} {append : Bytes → Reader σ → Result σ}

/-- A way of appending takes nothing from the record. -/
def Records (append : Bytes → Reader σ → Result σ) : Prop :=
  ∀ {data reader outcome}, append data reader = .ok outcome →
    reader.invoked <+: outcome.last.invoked

theorem Script.run_records (happend : Records append) {script : Script σ} {reader : Reader σ}
    {outcome : Outcome Exn (Reader σ)} (hrun : script.run host append reader = .ok outcome) :
    reader.invoked <+: outcome.last.invoked := by
  induction script generalizing reader with
  | finish state throws =>
    cases throws with
    | none =>
      cases hrun
      exact List.prefix_rfl
    | some error =>
      cases hrun
      exact List.prefix_rfl
  | append state messages resume ih =>
    obtain ⟨ended, hcall, hrest⟩ := (Script.run_append_eq_ok host).mp hrun
    have hcalled := happend hcall
    exact hcalled.trans (ih _ _ hrest)

theorem handlePacketBy_records (happend : Records append) {packet : Packet} {reader : Reader σ}
    {outcome : Outcome Exn (Reader σ)}
    (hhandle : handlePacketBy host reentrant append packet reader = .ok outcome) :
    reader.invoked <+: outcome.last.invoked := by
  cases hroute : (router reentrant.program).route packet with
  | error error =>
    rw [handlePacketBy_of_error hroute] at hhandle
    cases hhandle
    exact List.prefix_rfl
  | ok found =>
    cases found with
    | none =>
      rw [handlePacketBy_of_none hroute] at hhandle
      cases hhandle
      exact List.prefix_rfl
    | some handler =>
      rw [handlePacketBy_of_some hroute] at hhandle
      exact (List.prefix_append _ _).trans (Script.run_records happend hhandle)

theorem afterHandling_records {fuel : ℕ}
    (hprocess : ∀ {reader outcome}, process host reentrant fuel reader = .ok outcome →
      reader.invoked <+: outcome.last.invoked)
    {reader : Reader σ} {handled : Result σ} {outcome : Outcome Exn (Reader σ)}
    (hafter : afterHandling host reentrant fuel reader handled = .ok outcome) :
    ∃ ended, handled = .ok ended ∧ ended.last.invoked <+: outcome.last.invoked := by
  rcases afterHandling_cases hafter with ⟨error, next, hhandled, rfl⟩ | ⟨next, hhandled, -, hrest⟩
  · exact ⟨.threw error next, hhandled, List.prefix_rfl⟩
  · have hlater := hprocess hrest
    exact ⟨.returned next, hhandled, hlater⟩

theorem process_records {fuel : ℕ} {reader : Reader σ} {outcome : Outcome Exn (Reader σ)}
    (hprocess : process host reentrant fuel reader = .ok outcome) :
    reader.invoked <+: outcome.last.invoked := by
  induction fuel generalizing reader outcome with
  | zero => cases hprocess
  | succ fuel ih =>
    obtain ⟨fewer, hfuel, ⟨-, rfl⟩ | ⟨-, rfl⟩ | ⟨packet, size, hscan, hafter⟩⟩ :=
      process_cases hprocess
    · exact List.prefix_rfl
    · exact List.prefix_rfl
    · obtain rfl := Nat.succ.inj hfuel
      have hrecords : Records (appendBy host reentrant fuel) := ih
      obtain ⟨ended, hhandled, hlater⟩ := afterHandling_records ih hafter
      exact (handlePacketBy_records hrecords hhandled).trans hlater

theorem appendBy_records (fuel : ℕ) : Records (appendBy host reentrant fuel) :=
  process_records

theorem feedBy_records {fuel : ℕ} {chunks : List Bytes} {reader last : Reader σ}
    (hfeed : feedBy host reentrant fuel chunks reader = .ok last) :
    reader.invoked <+: last.invoked := by
  induction chunks generalizing reader with
  | nil =>
    cases hfeed
    exact List.prefix_rfl
  | cons chunk chunks ih =>
    obtain ⟨outcome, hcall, hlater⟩ := feedBy_cons_eq_ok.mp hfeed
    exact (appendBy_records fuel hcall).trans (ih hlater)

variable {packet : Packet} {size : ℕ} {handler : H} {reader : Reader σ}

/-- A complete frame at the front that has a handler: the handler runs first. -/
theorem process_frame_cases {fuel : ℕ} {outcome : Outcome Exn (Reader σ)}
    (hscan : scanFrame host reader.buffer.bytes = .frame packet size)
    (hroute : (router reentrant.program).route packet = .ok (some handler))
    (hprocess : process host reentrant fuel reader = .ok outcome) :
    ∃ fewer ended, (reentrant.script handler packet reader.state).run host
        (appendBy host reentrant fewer) (reader.note packet) = .ok ended ∧
      ended.last.invoked <+: outcome.last.invoked := by
  obtain ⟨fewer, rfl, ⟨hmore, -⟩ | ⟨hreject, -⟩ | ⟨packet', size', hscan', hafter⟩⟩ :=
    process_cases hprocess
  · cases hscan.symm.trans hmore
  · cases hscan.symm.trans hreject
  · cases hscan.symm.trans hscan'
    rw [handlePacketBy_of_some hroute] at hafter
    obtain ⟨ended, hended, hlater⟩ := afterHandling_records process_records hafter
    exact ⟨fewer, ended, hended, hlater⟩

/-- So the handler is called, whatever else happens. -/
theorem process_invokes {fuel : ℕ} {outcome : Outcome Exn (Reader σ)}
    (hscan : scanFrame host reader.buffer.bytes = .frame packet size)
    (hroute : (router reentrant.program).route packet = .ok (some handler))
    (hprocess : process host reentrant fuel reader = .ok outcome) :
    reader.invoked ++ [(reader.removed, packet)] <+: outcome.last.invoked := by
  obtain ⟨fewer, ended, hended, hlater⟩ := process_frame_cases hscan hroute hprocess
  exact (Script.run_records (appendBy_records fewer) hended).trans hlater

/-- A handler that feeds its own session is called again with the same frame. -/
theorem process_reenters {fuel : ℕ} {outcome : Outcome Exn (Reader σ)}
    (hscan : scanFrame host reader.buffer.bytes = .frame packet size)
    (hroute : (router reentrant.program).route packet = .ok (some handler))
    (hreenters : (reentrant.script handler packet reader.state).Reenters)
    (hprocess : process host reentrant fuel reader = .ok outcome) :
    reader.invoked ++ [(reader.removed, packet)] ++ [(reader.removed, packet)] <+:
      outcome.last.invoked := by
  obtain ⟨fewer, ended, hended, hlater⟩ := process_frame_cases hscan hroute hprocess
  apply List.IsPrefix.trans _ hlater
  cases hscript : reentrant.script handler packet reader.state with
  | finish state throws =>
    rw [hscript] at hreenters
    exact absurd hreenters id
  | append state messages resume =>
    rw [hscript] at hended
    obtain ⟨inner, hcall, hrest⟩ := (Script.run_append_eq_ok host).mp hended
    -- The nested call finds the frame where it was.
    have hsame : scanFrame host ((reader.buffer.insert reentrant.grow
        (frames host messages)).bytes) = .frame packet size := by
      rw [ByteVector.insert_bytes, scanFrame_append _ _ (by simp [hscan]), hscan]
    have hagain := process_invokes hsame hroute hcall
    exact hagain.trans (Script.run_records (appendBy_records fewer) hrest)

end Record

end Session

end LibuvNet
