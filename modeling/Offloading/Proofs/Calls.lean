import Offloading.Proofs.Platform
/-!
# Calls

A call runs its region on a copy of the platform's parts and puts them back. This module says where a
region of a call starts and ends, and that all calls keep the platform sound. Those that map explicitly
are orderly too.
-/

namespace Offloading

namespace CallState

/-- Where a region of the call starts. -/
def region (s : CallState) (l : Link) : RegionState :=
  { activation := { link := l }
    host := s.platform.host
    arguments := s.arguments
    metrics := s.platform.metrics }

/-- The call when the region has ended. -/
def resume (s : CallState) (dev : Nat) (r : RegionState) : CallState :=
  { s with
    arguments := r.arguments
    platform := { s.platform.setLink dev r.activation.link with
      host := r.host
      metrics := r.metrics } }

/-- An orderly step of a call's platform. -/
def Orderly (s s' : CallState) : Prop := s.platform.Orderly s'.platform

/-- A step of a call that keeps its platform sound. -/
def KeptSound (s s' : CallState) : Prop := Kept Platform.Sound s.platform s'.platform

instance : Lasting Orderly where
  refl s := Lasting.refl s.platform
  trans h h' := Lasting.trans (R := Platform.Orderly) h h'

instance : Lasting KeptSound where
  refl s := Lasting.refl s.platform
  trans h h' := Lasting.trans (R := Kept Platform.Sound) h h'

theorem Orderly.sound {s s' : CallState} (h : s.Orderly s') : s.KeptSound s' :=
  Platform.Orderly.sound h

end CallState

namespace CallM

variable {α β : Type} {dev : Nat} {s s' : CallState} {l : Link} {a : α} {b : β}
  {R : CallState → CallState → Prop}

theorem lifts_onPlatform {x : PlatformM α} :
    Lifts CallState.platform (fun s platform => { s with platform }) (fun e => e) x
      (onPlatform x) := by
  intro s
  have same : ∀ r : Except OffloadError α, r.mapError (fun e => e) = r := by
    intro r
    cases r with
    | ok _ => rfl
    | error _ => rfl
  rw [same]
  rfl

theorem orderly_onPlatform {x : PlatformM α} (hx : Along Platform.Orderly x) :
    Along CallState.Orderly (onPlatform x) :=
  lifts_onPlatform.along hx fun _ _ h => h

theorem exec_link (hl : s.platform.link? dev = some l) :
    exec (onPlatform (Platform.link dev)) s = (.ok l, s) := by
  rw [lifts_onPlatform s, Platform.exec_link hl]
  rfl

theorem exec_link_none (hl : s.platform.link? dev = none) :
    exec (onPlatform (Platform.link dev)) s =
      (.error (.deviceNotReady dev (.onlyDevices s.platform.listed)), s) := by
  rw [lifts_onPlatform s, Platform.exec_link_none hl]
  rfl

theorem returns_link (h : Returns (onPlatform (Platform.link dev)) s l s') :
    s.platform.link? dev = some l ∧ s' = s := by
  cases hl : s.platform.link? dev with
  | none =>
      rw [Returns, exec_link_none hl] at h
      cases h
  | some l' =>
      rw [Returns, exec_link hl] at h
      cases h
      exact ⟨rfl, rfl⟩

theorem along_link_bind [Lasting R] {f : Link → CallM β}
    (hf : ∀ s l, s.platform.link? dev = some l → R s (exec (f l) s).2) :
    Along R (onPlatform (Platform.link dev) >>= f) := by
  intro s
  cases hl : s.platform.link? dev with
  | some l =>
      rw [exec_bind_ok (exec_link hl)]
      exact hf s l hl
  | none =>
      rw [exec_bind_error (exec_link_none hl)]
      exact Lasting.refl s

theorem exec_inRegion {x : Settings → RegionM α} (hl : s.platform.link? dev = some l) :
    exec (inRegion dev x) s =
      ((exec (x s.platform.settings) (s.region l)).1,
        s.resume dev (exec (x s.platform.settings) (s.region l)).2) := by
  rw [inRegion, exec_get_bind, exec_bind_ok (exec_link hl)]
  rcases ran : exec (x s.platform.settings) (s.region l) with ⟨e | v, r⟩
  · have run : (x s.platform.settings).run.run (s.region l) = (.error e, r) := ran
    rw [CallState.region] at run
    rw [run]
    rfl
  · have run : (x s.platform.settings).run.run (s.region l) = (.ok v, r) := ran
    rw [CallState.region] at run
    rw [run]
    rfl

theorem exec_inRegion_none {x : Settings → RegionM α} (hl : s.platform.link? dev = none) :
    exec (inRegion dev x) s =
      (.error (.deviceNotReady dev (.onlyDevices s.platform.listed)), s) := by
  rw [inRegion, exec_get_bind, exec_bind_error (exec_link_none hl)]

theorem returns_inRegion {x : Settings → RegionM α} :
    Returns (inRegion dev x) s a s' ↔
      ∃ l r, s.platform.link? dev = some l ∧
        Returns (x s.platform.settings) (s.region l) a r ∧ s' = s.resume dev r := by
  unfold Returns
  cases hl : s.platform.link? dev with
  | none =>
      rw [exec_inRegion_none hl]
      constructor
      · intro h
        cases h
      · rintro ⟨l, _, none, -⟩
        cases none
  | some l =>
      rw [exec_inRegion hl]
      constructor
      · intro h
        rw [Prod.mk.injEq] at h
        exact ⟨l, _, rfl, Prod.ext h.1 rfl, h.2.symm⟩
      · rintro ⟨_, r, same, h, rfl⟩
        cases same
        rw [h]

theorem along_inRegion [Lasting R] {x : Settings → RegionM α}
    (hx : ∀ s l, s.platform.link? dev = some l →
      R s (s.resume dev (exec (x s.platform.settings) (s.region l)).2)) :
    Along R (inRegion dev x) := by
  intro s
  cases hl : s.platform.link? dev with
  | some l =>
      rw [exec_inRegion hl]
      exact hx s l hl
  | none =>
      rw [exec_inRegion_none hl]
      exact Lasting.refl s

theorem orderly_resume {r : RegionState} (hl : s.platform.link? dev = some l)
    (h : l.Orderly r.activation.link) : s.Orderly (s.resume dev r) :=
  Lasting.trans (R := Platform.Orderly) (Platform.orderly_setLink hl h)
    (Platform.orderly_of_same rfl rfl)

theorem sound_resume {r : RegionState} (hl : s.platform.link? dev = some l)
    (h : Kept Link.Sound l r.activation.link) : s.KeptSound (s.resume dev r) :=
  fun hs => (Platform.sound_setLink hl h hs).of_same rfl rfl

/-! ## Regions of calls -/

theorem sound_runRegion {hostAddr : Nat} {kind : LaunchKind} :
    Along CallState.KeptSound (runRegion dev hostAddr kind) := by
  refine along_link_bind fun s l _ => Along.bind ?_ (fun entry => ?_) s
  · exact (orderly_onPlatform Platform.orderly_resolveEntry).mono CallState.Orderly.sound
  · exact along_inRegion fun s l hl => sound_resume hl (Region.sound_run (s.region l))

/-- A region that maps explicitly is orderly, whichever kernel it runs. -/
theorem orderly_runRegion {hostAddr : Nat} {kind : LaunchKind} (explicit : s.arguments.Explicit) :
    s.Orderly (exec (runRegion dev hostAddr kind) s).2 := by
  unfold runRegion
  cases hl : s.platform.link? dev with
  | none =>
      rw [exec_bind_error (exec_link_none hl)]
      exact Lasting.refl s
  | some l =>
      rw [exec_bind_ok (exec_link hl)]
      refine Along.bind_returns ?_ fun entry s₁ h₁ => ?_
      · exact orderly_onPlatform Platform.orderly_resolveEntry s
      · obtain ⟨pl, -, rfl⟩ := lifts_onPlatform.returns.1 h₁
        cases hl₁ : pl.link? dev with
        | none =>
            rw [exec_inRegion_none hl₁]
            exact Lasting.refl _
        | some l₁ =>
            rw [exec_inRegion (s := { s with platform := pl }) hl₁]
            exact orderly_resume (s := { s with platform := pl }) hl₁
              (Region.orderly_run (s := CallState.region { s with platform := pl } l₁) rfl explicit)

end CallM

namespace Platform

open CallM

variable {id : Int} {dev : Nat} {s : CallState}

theorem orderly_runConstructor {hostAddr : Nat} : Along Orderly (runConstructor dev hostAddr) := by
  intro pl
  have none : ArgumentList.Explicit {} := ⟨fun _ h => (nomatch h), fun _ h => (nomatch h)⟩
  exact orderly_runRegion (s := { platform := pl }) none

theorem orderly_ready (id : Int) : Along Orderly (ready id) :=
  (along_deviceIndex id).bind fun _ =>
    (orderly_checkReady fun _ => orderly_runConstructor).bind fun _ => Along.pure

theorem orderly_dataBegin (explicit : s.arguments.Explicit) :
    s.Orderly (exec (dataBegin id) s).2 := by
  refine Along.bind_returns (orderly_onPlatform (orderly_ready id) s) fun dev s₁ h₁ => ?_
  obtain ⟨pl, -, rfl⟩ := lifts_onPlatform.returns.1 h₁
  refine Along.bind_at (R := CallState.Orderly) ?_ fun _ => orderly_onPlatform orderly_record
  cases hl : pl.link? dev with
  | none =>
      rw [exec_inRegion_none hl]
      exact Lasting.refl _
  | some l =>
      rw [exec_inRegion (s := { s with platform := pl }) hl]
      exact orderly_resume (s := { s with platform := pl }) hl
        (Region.orderly_enter (s := CallState.region { s with platform := pl } l) _ rfl explicit)

theorem sound_dataBegin : Along CallState.KeptSound (dataBegin id) := by
  have ready := (orderly_onPlatform (orderly_ready id)).mono CallState.Orderly.sound
  refine ready.bind fun dev => Along.bind ?_ fun _ => ?_
  · refine along_inRegion fun s l hl => sound_resume hl ?_
    exact fun hs => (Region.along_enter _ (s.region l)).link.sound hs
  · exact (orderly_onPlatform orderly_record).mono CallState.Orderly.sound

theorem orderly_dataEnd : Along CallState.Orderly (dataEnd id) := by
  refine (orderly_onPlatform (orderly_ready id)).bind fun dev => Along.bind ?_ fun _ => ?_
  · exact along_inRegion fun s l hl => orderly_resume hl (Region.along_leave (s.region l)).link
  · exact orderly_onPlatform orderly_record

theorem orderly_dataUpdate : Along CallState.Orderly (dataUpdate id) := by
  refine (orderly_onPlatform (orderly_ready id)).bind fun dev => Along.bind ?_ fun _ => ?_
  · refine along_inRegion fun s l hl => orderly_resume hl ?_
    exact (Region.along_refresh (s.region l)).link.orderly
  · exact (orderly_onPlatform orderly_record).bind fun _ => Along.pure

theorem orderly_target {hostAddr : Nat} {kind : LaunchKind} (explicit : s.arguments.Explicit) :
    s.Orderly (exec (target id hostAddr kind) s).2 := by
  refine Along.bind_returns (orderly_onPlatform (orderly_ready id) s) fun dev s₁ h₁ => ?_
  obtain ⟨pl, -, rfl⟩ := lifts_onPlatform.returns.1 h₁
  refine Along.bind_at (R := CallState.Orderly) ?_ fun _ => orderly_onPlatform orderly_record
  exact orderly_runRegion (s := { s with platform := pl }) explicit

theorem sound_target {hostAddr : Nat} {kind : LaunchKind} :
    Along CallState.KeptSound (target id hostAddr kind) := by
  have ready := (orderly_onPlatform (orderly_ready id)).mono CallState.Orderly.sound
  refine ready.bind fun dev => sound_runRegion.bind fun _ => ?_
  exact (orderly_onPlatform orderly_record).mono CallState.Orderly.sound

theorem orderly_associate {first target size : Nat} :
    Along Orderly (associate id first target size) :=
  (orderly_ready id).bind fun _ =>
    orderly_onDevice (Device.along_associate.mono Link.Extended.orderly)

theorem sound_disassociate {first : Nat} : Along (Kept Sound) (disassociate id first) :=
  ((orderly_ready id).mono Orderly.sound).bind fun _ => sound_onDevice Device.along_disassociate

theorem orderly_pushTripCount {n : Nat} : Along Orderly (pushTripCount id n) :=
  (along_deviceIndex id).bind fun _ =>
    orderly_onDevice (Device.along_pushTripCount.mono Link.Transferred.orderly)

/-! ## Calls that succeed -/

theorem index_of_ready {pl pl' : Platform} (h : Returns (ready id) pl dev pl') :
    Returns (deviceIndex id) pl dev pl := by
  obtain ⟨index, pl₁, hi, rest⟩ := returns_bind.1 h
  have same := (along_deviceIndex (R := Eq) id).returns hi
  subst same
  obtain ⟨_, pl₂, hc, done⟩ := returns_bind.1 rest
  obtain ⟨rfl, -⟩ := returns_pure.1 done
  exact hi

/-- If no library waits, preparing is all that a call does first. -/
theorem returns_ready {pl pl' : Platform} (h : Returns (ready id) pl dev pl')
    (loaded : ∀ l, pl.link? dev = some l → l.device.pending = false) :
    ∃ l l', pl.link? dev = some l ∧ l.Prepared l' ∧ pl' = pl.setLink dev l' := by
  obtain ⟨index, pl₁, hi, rest⟩ := returns_bind.1 h
  have same := (along_deviceIndex (R := Eq) id).returns hi
  subst same
  obtain ⟨_, pl₂, hc, done⟩ := returns_bind.1 rest
  obtain ⟨rfl, rfl⟩ := returns_pure.1 done
  obtain ⟨_, pl₃, hp, checked⟩ := returns_bind.1 hc
  obtain ⟨l, l', hl, prepared, rfl⟩ := returns_onDevice.1 hp
  have after := Device.along_prepare.returns prepared
  obtain ⟨l'', hl'', checked⟩ := returns_link_bind.1 checked
  rw [link?_setLink hl, Option.some.injEq] at hl''
  subst hl''
  rw [after.still.pending, loaded l hl] at checked
  exact ⟨l, l', hl, after, (returns_pure.1 checked).2⟩

/-- A call of one phase prepares the device and runs the phase there. -/
theorem returns_phase {x : Settings → RegionM Unit} {p : Phase} {s' : CallState} {u : Unit}
    (h : Returns (do
      let dev ← onPlatform (ready id)
      inRegion dev x
      onPlatform (record p)) s u s') :
    ∃ dev pl l r metrics, Returns (ready id) s.platform dev pl ∧ pl.link? dev = some l ∧
      Returns (x pl.settings) (CallState.region { s with platform := pl } l) () r ∧
      s'.arguments = r.arguments ∧
      s'.platform = { pl.setLink dev r.activation.link with host := r.host, metrics } := by
  obtain ⟨dev, s₁, hr, rest⟩ := returns_bind.1 h
  obtain ⟨pl, ready, rfl⟩ := lifts_onPlatform.returns.1 hr
  obtain ⟨_, s₂, hx, last⟩ := returns_bind.1 rest
  obtain ⟨l, r, hl, ran, rfl⟩ := returns_inRegion.1 hx
  obtain ⟨pl', recorded, rfl⟩ := lifts_onPlatform.returns.1 last
  obtain ⟨metrics, rfl⟩ := returns_record recorded
  exact ⟨dev, pl, l, r, metrics, ready, hl, ran, rfl, rfl⟩

end Platform

end Offloading
