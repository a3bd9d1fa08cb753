import Offloading.Proofs.BalancedRuns
/-!
# Counted calls

A call that succeeds is counted under its phase, once, if phases are timed; a call that fails is not. What a call
does on its way, from preparing the device and running constructors to the kernel, counts kernels and patched
pointers, but no call.
-/

namespace Offloading

/-! ## Regions -/

namespace Region

open RegionM

/-- The region counts no call. -/
def SameCalls (s s' : RegionState) : Prop := s.metrics.SameCalls s'.metrics

instance : Lasting SameCalls where
  refl s := Lasting.refl s.metrics
  trans h h' := Lasting.trans (R := Metrics.SameCalls) h h'

theorem sameCalls_onDevice {α : Type} {x : DeviceM α} : Along SameCalls (onDevice x) :=
  lifts_onDevice.along (R := Anything) (fun _ => trivial) fun s _ _ => Lasting.refl s.metrics

theorem sameCalls_freeAll (blocks : List Nat) : Along SameCalls (freeAll blocks) := by
  intro s
  induction blocks generalizing s with
  | nil => exact Lasting.refl s
  | cons target rest ih =>
      rw [exec_freeAll_cons]
      exact ih _

theorem supports_sameCalls : Supports SameCalls where
  rest _ _ metrics := metrics
  retrieve := sameCalls_onDevice
  visit := sameCalls_onDevice
  hold := sameCalls_onDevice
  unmap := sameCalls_onDevice
  submit := sameCalls_onDevice
  submitBatch := sameCalls_onDevice
  recordShadow := sameCalls_onDevice
  map := sameCalls_onDevice
  adopted _ := sameCalls_onDevice.bind fun _ =>
    Along.bind (Along.modify fun s => Lasting.refl s.metrics) fun _ => Along.pure
  freeScratch := Along.bind_get fun s => Along.bind_at (R := SameCalls) (x := modify _)
    (Lasting.refl s.metrics) (fun _ => sameCalls_freeAll s.scratch)
  launch := sameCalls_onDevice

end Region

/-! ## Devices and libraries -/

namespace Platform

variable {α : Type} {pl pl' pl'' : Platform} {dev : Nat} {l : Link} {p : Phase} {p? : Option Phase}

/-- Neither do the settings change nor is a call counted. -/
structure SameCalls (pl pl' : Platform) : Prop where
  settings : pl'.settings = pl.settings
  metrics : pl.metrics.SameCalls pl'.metrics

instance : Lasting SameCalls where
  refl pl := ⟨rfl, Lasting.refl pl.metrics⟩
  trans h h' := ⟨h'.settings.trans h.settings, Lasting.trans h.metrics h'.metrics⟩

theorem sameCalls_of_same (settings : pl'.settings = pl.settings) (metrics : pl'.metrics = pl.metrics) :
    pl.SameCalls pl' :=
  ⟨settings, fun _ _ => by rw [metrics]⟩

theorem sameCalls_setLink : pl.SameCalls (pl.setLink dev l) := sameCalls_of_same settings_setLink metrics_setLink

theorem sameCalls_onDevice {x : DeviceM α} : Along SameCalls (onDevice dev x) :=
  along_onDevice fun _ _ _ => sameCalls_setLink

theorem sameCalls_loadLibrary {position : Nat} : Along SameCalls (loadLibrary dev position) := by
  intro pl
  refine loadLibrary_at (R := SameCalls) (fun l wrap image hl => ?_)
    (fun _ _ _ _ _ _ _ => sameCalls_onDevice) fun _ _ _ _ _ _ => sameCalls_of_same rfl rfl
  rw [exec_onAccelerator hl]
  exact sameCalls_setLink

theorem sameCalls_resume {s : CallState} {r : RegionState} (h : s.platform.metrics.SameCalls r.metrics) :
    s.platform.SameCalls (s.resume dev r).platform :=
  ⟨settings_setLink, h⟩

theorem sameCalls_runConstructor {hostAddr : Nat} : Along SameCalls (runConstructor dev hostAddr) :=
  along_runConstructor_nil (fun _ _ => sameCalls_of_same rfl rfl) fun pl l _ _ =>
    sameCalls_resume (s := { platform := pl }) (Region.supports_sameCalls.run (CallState.region { platform := pl } l))

theorem sameCalls_ready (id : Int) : Along SameCalls (ready id) := by
  refine (along_deviceIndex id).bind fun dev => Along.bind ?_ fun _ => Along.pure
  apply along_checkReady
  · exact sameCalls_onDevice
  · exact fun _ => sameCalls_loadLibrary
  · exact fun _ _ => sameCalls_of_same rfl rfl
  · exact fun _ => sameCalls_runConstructor
  · exact sameCalls_onDevice

/-! ## Counting -/

/-- If phases are timed, a run of the phase is counted, if there is one. No other call is counted. -/
structure Counts (p? : Option Phase) (pl pl' : Platform) : Prop where
  settings : pl'.settings = pl.settings
  timing : ∀ q, q.isCall = true → pl'.metrics.timing q =
    if pl.settings.config.profiling = true ∧ p? = some q then (pl.metrics.timing q).record 0
    else pl.metrics.timing q

theorem SameCalls.counts (h : pl.SameCalls pl') : pl.Counts none pl' where
  settings := h.settings
  timing q call := by
    rw [if_neg fun none => nomatch none.2]
    exact h.metrics q call

theorem Counts.after (h : pl.SameCalls pl') (h' : pl'.Counts p? pl'') : pl.Counts p? pl'' where
  settings := h'.settings.trans h.settings
  timing q call := by
    rw [h'.timing q call, h.settings, h.metrics q call]

theorem counts_record : pl.Counts (some p) (exec (record p) pl).2 := by
  change pl.Counts (some p) (if _ then _ else _)
  cases timed : pl.settings.config.profiling with
  | false =>
      refine ⟨rfl, fun q _ => ?_⟩
      rw [timed]
      change pl.metrics.timing q = _
      rw [if_neg fun h => Bool.false_ne_true h.1]
  | true =>
      refine ⟨rfl, fun q _ => ?_⟩
      rw [timed]
      change (pl.metrics.record p 0).timing q = _
      rw [Metrics.timing_record]
      simp only [Option.some.injEq, true_and]

end Platform

/-! ## Calls -/

/-- Neither do the settings change nor is a call counted. -/
def CallState.SameCalls (s s' : CallState) : Prop := s.platform.SameCalls s'.platform

instance : Lasting CallState.SameCalls where
  refl s := Lasting.refl s.platform
  trans h h' := Lasting.trans (R := Platform.SameCalls) h h'

namespace CallM

variable {α β : Type} {dev : Nat} {p : Phase} {x : CallM α}

theorem sameCalls_onPlatform {x : PlatformM α} (hx : Along Platform.SameCalls x) :
    Along CallState.SameCalls (onPlatform x) :=
  lifts_onPlatform.along hx fun _ _ h => h

theorem sameCalls_inRegion {x : Settings → RegionM α} (hx : ∀ settings, Along Region.SameCalls (x settings)) :
    Along CallState.SameCalls (inRegion dev x) :=
  along_inRegion fun s l _ => Platform.sameCalls_resume (hx s.platform.settings (s.region l))

theorem sameCalls_runRegion {hostAddr : Nat} {kind : LaunchKind} :
    Along CallState.SameCalls (runRegion dev hostAddr kind) := by
  refine along_link_bind fun s l _ => Along.bind ?_ (fun entry => ?_) s
  · exact sameCalls_onPlatform (Platform.along_resolveEntry fun _ _ => Platform.sameCalls_of_same rfl rfl)
  · exact sameCalls_inRegion fun _ => Region.supports_sameCalls.run

/-- The computation is counted under the phase exactly if it succeeds. -/
def CountedAs (p : Phase) (x : CallM α) : Prop :=
  ∀ s : CallState, s.platform.Counts (if (exec x s).1.isOk then some p else none) (exec x s).2.platform

theorem countedAs_record : CountedAs p (onPlatform (Platform.record p)) := fun s => by
  rw [lifts_onPlatform s]
  exact Platform.counts_record

/-- What comes before does not matter as long as it counts no call. -/
theorem CountedAs.after {f : α → CallM β} (hx : Along CallState.SameCalls x) (hf : ∀ a, CountedAs p (f a)) :
    CountedAs p (x >>= f) := by
  intro s
  have before := hx s
  rw [exec_bind]
  rcases ran : exec x s with ⟨_ | a, s'⟩
  · rw [ran] at before
    exact before.counts
  · rw [ran] at before
    exact (hf a s').after before

theorem CountedAs.bind_pure {b : β} (hx : CountedAs p x) : CountedAs p (x >>= fun _ => pure b) := by
  intro s
  have counts := hx s
  rw [exec_bind]
  rcases ran : exec x s with ⟨_ | _, _⟩
  · rwa [ran] at counts
  · rwa [ran] at counts

end CallM

namespace Platform

open CallM

variable {id : Int} {pl : Platform} {p : Phase} {acts : List Act}

theorem countedAs_dataBegin : CountedAs .dataBegin (dataBegin id) :=
  .after (sameCalls_onPlatform (sameCalls_ready id)) fun _ =>
    .after (sameCalls_inRegion fun _ => Region.supports_sameCalls.enter) fun _ => countedAs_record

theorem countedAs_dataEnd : CountedAs .dataEnd (dataEnd id) :=
  .after (sameCalls_onPlatform (sameCalls_ready id)) fun _ =>
    .after (sameCalls_inRegion fun _ => Region.supports_sameCalls.leave) fun _ => countedAs_record

theorem countedAs_dataUpdate : CountedAs .dataUpdate (dataUpdate id) :=
  .after (sameCalls_onPlatform (sameCalls_ready id)) fun _ =>
    .after (sameCalls_inRegion fun _ => Region.supports_sameCalls.refresh) fun _ => countedAs_record.bind_pure

theorem countedAs_target {hostAddr : Nat} {kind : LaunchKind} : CountedAs .target (target id hostAddr kind) :=
  .after (sameCalls_onPlatform (sameCalls_ready id)) fun _ =>
    .after sameCalls_runRegion fun _ => countedAs_record

/-! ## Runs -/

/-- The phase of a call with an argument list, if the call succeeds. -/
def phaseOf? {α : Type} (pl : Platform) (p : Phase) (l : ArgumentList) (x : CallM α) : Option Phase :=
  if (exec x { platform := pl, arguments := l }).1.isOk then some p else none

/-- The phase of which the call is a successful run. -/
def completed? (pl : Platform) : Call → Option Phase
  | .dataBegin id l => pl.phaseOf? .dataBegin l (dataBegin id)
  | .dataEnd id l => pl.phaseOf? .dataEnd l (dataEnd id)
  | .dataUpdate id l => pl.phaseOf? .dataUpdate l (dataUpdate id)
  | .target id l hostAddr kind => pl.phaseOf? .target l (target id hostAddr kind)
  | _ => none

theorem counts_perform (c : Call) : pl.Counts (pl.completed? c) (pl.perform c) := by
  have same : ∀ {α : Type} {x : PlatformM α}, Along SameCalls x → pl.Counts none (exec x pl).2 :=
    fun hx => (hx pl).counts
  cases c with
  | dataBegin id l => exact countedAs_dataBegin { platform := pl, arguments := l }
  | dataEnd id l => exact countedAs_dataEnd { platform := pl, arguments := l }
  | dataUpdate id l => exact countedAs_dataUpdate { platform := pl, arguments := l }
  | target id l hostAddr kind => exact countedAs_target { platform := pl, arguments := l }
  | associate id first target size => exact same ((sameCalls_ready id).bind fun _ => sameCalls_onDevice)
  | disassociate id first => exact same ((sameCalls_ready id).bind fun _ => sameCalls_onDevice)
  | pushTripCount id n => exact same ((along_deviceIndex id).bind fun _ => sameCalls_onDevice)
  | unregister library =>
      refine (sameCalls_of_same ?_ ?_).counts
      all_goals
        rw [perform, unregister]
        split
        · rfl
        · rfl
  | _ =>
      refine SameCalls.counts (sameCalls_of_same ?_ ?_)
      · rfl
      · rfl

/-- The phase of which the act is a successful run. -/
def completedBy? (pl : Platform) : Act → Option Phase
  | .call c => pl.completed? c
  | .use .. => none

theorem counts_act (a : Act) : pl.Counts (pl.completedBy? a) (pl.act a) := by
  cases a with
  | call c => exact counts_perform c
  | use dev use =>
      cases hl : pl.link? dev with
      | none =>
          rw [act, hl]
          exact (Lasting.refl (R := SameCalls) pl).counts
      | some l =>
          rw [act, hl]
          exact sameCalls_setLink.counts

theorem calls_act (a : Act) (call : p.isCall = true) :
    ((pl.act a).metrics.timing p).calls = (pl.metrics.timing p).calls +
      if pl.settings.config.profiling = true then (pl.completedBy? a).toList.count p else 0 := by
  rw [(counts_act a).timing p call]
  cases pl.settings.config.profiling with
  | false => rfl
  | true =>
      rw [if_pos rfl]
      by_cases here : pl.completedBy? a = some p
      · rw [if_pos ⟨rfl, here⟩, here, Option.toList_some, List.count_singleton_self]
        rfl
      · have none : (pl.completedBy? a).toList.count p = 0 :=
          List.count_eq_zero.2 fun listed => here (Option.mem_toList.1 listed)
        rw [if_neg fun h => here h.2, none, Nat.add_zero]

/-- The phases of which the acts of a program are successful runs, in order. -/
def completions (pl : Platform) : List Act → List Phase
  | [] => []
  | a :: rest => (pl.completedBy? a).toList ++ (pl.act a).completions rest

/-- Whatever a program does, each phase that is a call is counted once for each of its calls that succeeds, if
phases are timed, and never otherwise. -/
theorem calls_actAll (call : p.isCall = true) :
    ((pl.actAll acts).metrics.timing p).calls = (pl.metrics.timing p).calls +
      if pl.settings.config.profiling = true then (pl.completions acts).count p else 0 := by
  induction acts generalizing pl with
  | nil =>
      rw [completions, List.count_nil, ite_self]
      rfl
  | cons a rest ih =>
      change (((pl.act a).actAll rest).metrics.timing p).calls = _
      rw [ih, calls_act a call, (counts_act a).settings, completions, List.count_append]
      cases pl.settings.config.profiling with
      | false => rfl
      | true => exact Nat.add_assoc _ _ _

-- There is only device zero, so the second call fails.
example : oneDevice.completions [.call (.dataBegin 0 {}), .call (.dataEnd 1 {}), .call (.dataEnd 0 {})] =
    [.dataBegin, .dataEnd] := by rfl

end Platform

end Offloading
