import Offloading.Proofs.KernelFree
import Offloading.Proofs.Resolution
import Offloading.Proofs.RoundTrip
import Offloading.Proofs.Schedules
/-!
# Ending a region right after it began

When a region has begun and no library waits, its device is ready for good. Ending the region then leaves it
on the same device, and it starts there with what entering it left.
-/

namespace Offloading.Platform

open CallM

variable {pl : Platform} {dev : Nat} {l l' : Link} {id : Int} {arguments : ArgumentList} {s s' : CallState}
  {r r' : RegionState} {u v : Unit}

/-- If no library waits, a device that is ready was prepared. -/
theorem prepare_of_ready {pl' : Platform} (h : Returns (ready id) pl dev pl') (hl : pl.link? dev = some l)
    (hl' : pl'.link? dev = some l') (pending : l.device.pending = false) :
    Returns Device.prepare l () l' := by
  obtain ⟨index, pl₁, hi, rest⟩ := returns_bind.1 h
  have same := (along_deviceIndex (R := Eq) id).returns hi
  subst same
  obtain ⟨_, pl₂, hc, done⟩ := returns_bind.1 rest
  obtain ⟨rfl, rfl⟩ := returns_pure.1 done
  obtain ⟨_, pl₃, hp, checked⟩ := returns_bind.1 hc
  obtain ⟨k, k', hk, prepared, rfl⟩ := returns_onDevice.1 hp
  rw [hl, Option.some.injEq] at hk
  subst hk
  obtain ⟨k'', hk'', checked⟩ := returns_link_bind.1 checked
  rw [link?_setLink hl, Option.some.injEq] at hk''
  subst hk''
  rw [(Device.along_prepare.returns prepared).still.pending, pending] at checked
  rw [(returns_pure.1 checked).2, link?_setLink hl, Option.some.injEq] at hl'
  exact hl' ▸ prepared

/-- A device that was prepared and that no library waits for is ready at once. -/
theorem returns_ready_again (index : Returns (deviceIndex id) pl dev pl) (hl : pl.link? dev = some l)
    (prepared : l.device.prepared = some (.ok ())) (pending : l.device.pending = false) :
    Returns (ready id) pl dev (pl.setLink dev l) := by
  refine returns_bind.2 ⟨dev, pl, index, returns_bind.2 ⟨(), pl.setLink dev l, ?_, returns_pure.2 ⟨rfl, rfl⟩⟩⟩
  have again : Returns (onDevice dev Device.prepare) pl () (pl.setLink dev l) :=
    returns_onDevice.2 ⟨l, l, hl, Device.returns_prepare_again prepared, rfl⟩
  refine returns_bind.2 ⟨(), _, again, returns_link_bind.2 ⟨l, link?_setLink hl, ?_⟩⟩
  rw [pending]
  exact returns_pure.2 ⟨rfl, rfl⟩

/-- If a device is ready and a phase of a region succeeds there, then the call succeeds. -/
theorem exists_returns_phase {x : Settings → RegionM Unit} {p : Phase} {pl' : Platform}
    (readied : Returns (ready id) s.platform dev pl') (hl : pl'.link? dev = some l)
    (ran : Returns (x pl'.settings) (CallState.region { s with platform := pl' } l) () r) :
    ∃ s' metrics, Returns (do
        let dev ← onPlatform (ready id)
        inRegion dev x
        onPlatform (record p)) s () s' ∧ s'.arguments = r.arguments ∧
      s'.platform = { pl'.setLink dev r.activation.link with host := r.host, metrics } := by
  have region := returns_inRegion.2 ⟨l, r, hl, ran, rfl⟩
  obtain ⟨pl₂, recorded⟩ : ∃ pl₂, Returns (record p) (CallState.resume { s with platform := pl' } dev r).platform
      () pl₂ := ⟨_, rfl⟩
  obtain ⟨metrics, rfl⟩ := returns_record recorded
  exact ⟨_, metrics, returns_bind.2 ⟨dev, _, lifts_onPlatform.returns.2 ⟨pl', readied, rfl⟩,
    returns_bind.2 ⟨(), _, region, lifts_onPlatform.returns.2 ⟨_, recorded, rfl⟩⟩⟩, rfl, rfl⟩

/-- A region has begun on a device that was prepared for it, and the device is ready to end it. -/
structure Began (pl : Platform) (id : Int) (arguments : ArgumentList) (s : CallState) (dev : Nat)
    (l l' : Link) (r : RegionState) : Prop where
  index : Returns (deviceIndex id) pl dev pl
  link : pl.link? dev = some l
  prepare : Returns Device.prepare l () l'
  entered : Returns (Region.enter pl.settings)
    (CallState.region { platform := pl.setLink dev l', arguments } l') () r
  arguments : s.arguments = r.arguments
  host : s.platform.host = r.host
  settings : s.platform.settings = pl.settings
  links : s.platform.links = (pl.setLink dev r.activation.link).links
  listed : s.platform.listed = pl.listed
  pending : r.activation.link.device.pending = false
  prepared : r.activation.link.device.prepared = some (.ok ())

theorem began_of_dataBegin (loaded : pl.LoadedFor id)
    (begun : Returns (dataBegin id) { platform := pl, arguments } u s) :
    ∃ dev l l' r, pl.Began id arguments s dev l l' r := by
  obtain ⟨dev, pl₁, l₁, r, metrics, ready₁, hl₁, entered, args, after⟩ := returns_phase begun
  have index := index_of_ready ready₁
  obtain ⟨l, l', hl, prepared, rfl⟩ := returns_ready ready₁ fun l hl => loaded dev l index hl
  rw [link?_setLink hl, Option.some.injEq] at hl₁
  subst hl₁
  rw [settings_setLink] at entered
  have prepare := prepare_of_ready ready₁ hl (link?_setLink hl) (loaded dev l index hl)
  have links : s.platform.links = (pl.setLink dev r.activation.link).links := by
    rw [after]
    exact links_setLink_setLink rfl
  have settings : s.platform.settings = pl.settings := by
    rw [after]
    exact settings_setLink.trans settings_setLink
  have listed : s.platform.listed = pl.listed := by
    rw [after]
    exact listed_setLink.trans listed_setLink
  have pending : r.activation.link.device.pending = false := by
    rw [((Region.along_enter _).returns entered).link.pending]
    exact prepared.still.pending.trans (loaded dev l index hl)
  have outcome : r.activation.link.device.prepared = some (.ok ()) :=
    (Link.SameService.prepared (Region.admits_sameService.enter.returns entered)).trans
      (Device.prepared_of_prepare prepare)
  exact ⟨dev, l, l', r, index, hl, prepare, entered, args, by rw [after], settings, links, listed, pending,
    outcome⟩

/-- The platform after kernels left the device as `k`, and the host left its memory as `host`. -/
def worked (pl : Platform) (dev : Nat) (k : Link) (host : HostMemory) : Platform := { pl.setLink dev k with host }

/-- Without work, nothing is different. -/
theorem worked_self (hl : pl.link? dev = some l) : pl.worked dev l pl.host = pl := by
  obtain ⟨slot, hs, device, ha⟩ := link?_eq_some_iff.1 hl
  obtain ⟨lt, here⟩ := List.getElem?_eq_some_iff.1 hs
  obtain ⟨lt', there⟩ := List.getElem?_eq_some_iff.1 ha
  rw [worked, setLink, hs]
  dsimp only
  rw [← device, ← there, List.set_getElem_self,
    show ({ slot with device := slot.device } : DeviceSlot) = slot from rfl,
    ← here, List.set_getElem_self]

/-- Where the region starts that ends what has begun. -/
def reentry (s : CallState) (dev : Nat) (r : RegionState) : RegionState :=
  CallState.region { s with platform := s.platform.setLink dev r.activation.link } r.activation.link

/-- Where that region starts after kernels and the host have worked. -/
def reentryWorked (s : CallState) (dev : Nat) (k : Link) (host : HostMemory) : RegionState :=
  CallState.region { s with platform := (s.platform.worked dev k host).setLink dev k } k

theorem host_reentryWorked {k : Link} {host : HostMemory} : (reentryWorked s dev k host).host = host :=
  host_setLink

namespace Began

variable (began : pl.Began id arguments s dev l l' r)

include began

/-- Beginning a region changes no argument but its base. -/
theorem sameFrames : arguments.SameFrames s.arguments := by
  rw [began.arguments]
  exact ((Region.along_enter _).returns began.entered).arguments

theorem host_after : s.platform.host = pl.host :=
  began.host.trans (((Region.along_enter _).returns began.entered).host.trans host_setLink)

/-- When the device is what it was, then so is the platform. -/
theorem footprint_of_links {k : Link} {s' : CallState} (links : s'.platform.links = (pl.setLink dev k).links)
    (restored : k.footprint = l'.footprint) : s'.platform.footprint = pl.footprint := by
  rw [footprint_congr links]
  exact footprint_setLink began.link
    (restored.trans (Device.along_prepare.returns began.prepare).still.footprint)

theorem sound (reachable : pl.Reachable) : l'.Sound :=
  (Device.along_prepare.returns began.prepare).still.sound (reachable.sound.link began.link)

theorem reliable (reliable : ∀ a ∈ pl.accelerators, a.Reliable) : l'.accelerator.Reliable := by
  obtain ⟨slot, -, -, ha⟩ := link?_eq_some_iff.1 began.link
  have schedule := Device.along_prepare_schedule.returns began.prepare
  intro call n
  exact (congrFun (congrFun schedule call) n).trans (reliable _ (List.mem_of_getElem? ha) call n)

theorem link?_after : s.platform.link? dev = some r.activation.link := by
  rw [link?_congr began.links, link?_setLink began.link]

theorem host_reentry : (reentry s dev r).host = r.host := (host_setLink).trans began.host

theorem link?_worked {k : Link} {host : HostMemory} : (s.platform.worked dev k host).link? dev = some k :=
  link?_setLink began.link?_after

/-- Work on the device does not touch whether it is ready. -/
theorem ready_worked {k : Link} {host : HostMemory} (work : r.activation.link.Transferred k) :
    Returns (Platform.ready id) (s.platform.worked dev k host) dev
      ((s.platform.worked dev k host).setLink dev k) := by
  have settings : (s.platform.worked dev k host).settings = pl.settings := settings_setLink.trans began.settings
  have listed : (s.platform.worked dev k host).listed = pl.listed := listed_setLink.trans began.listed
  obtain ⟨_, _, device⟩ := work.device
  exact returns_ready_again (returns_deviceIndex_congr settings listed began.index) began.link?_worked
    (by rw [device]; exact began.prepared) (by rw [device]; exact began.pending)

theorem settings_worked {k : Link} {host : HostMemory} :
    ((s.platform.worked dev k host).setLink dev k).settings = pl.settings :=
  settings_setLink.trans (settings_setLink.trans began.settings)

theorem links_worked {k k' : Link} {host : HostMemory} :
    (((s.platform.worked dev k host).setLink dev k).setLink dev k').links = (pl.setLink dev k').links := by
  have links : (s.platform.worked dev k host).links = (pl.setLink dev k).links :=
    links_setLink_setLink began.links
  exact links_setLink_setLink (links_setLink_setLink links)

/-- Ending the region after some work leaves it where the work ended. -/
theorem leave_of_dataEnd_worked {k : Link} {host : HostMemory} (work : r.activation.link.Transferred k)
    (ended : Returns (dataEnd id) { s with platform := s.platform.worked dev k host } v s') :
    ∃ r', Returns (Region.leave pl.settings) (reentryWorked s dev k host) () r' ∧
      s'.platform.links = (pl.setLink dev r'.activation.link).links ∧ s'.platform.host = r'.host := by
  obtain ⟨dev', pl', k', r', metrics, ready', hk, left, -, after⟩ := returns_phase ended
  obtain ⟨rfl, rfl⟩ := (began.ready_worked work).unique ready'
  rw [link?_setLink began.link?_worked, Option.some.injEq] at hk
  subst hk
  rw [began.settings_worked] at left
  refine ⟨r', left, ?_, ?_⟩
  · rw [after]
    exact began.links_worked
  · rw [after]

/-- If the region can be left after some work, it can be ended. -/
theorem dataEnd_worked {k : Link} {host : HostMemory} (work : r.activation.link.Transferred k)
    (left : Returns (Region.leave pl.settings) (reentryWorked s dev k host) () r') :
    ∃ s', Returns (dataEnd id) { s with platform := s.platform.worked dev k host } () s' := by
  rw [← began.settings_worked (k := k)] at left
  obtain ⟨s', -, ended, -⟩ :=
    exists_returns_phase (s := { s with platform := s.platform.worked dev k host })
      (p := .dataEnd) (began.ready_worked work) (link?_setLink began.link?_worked) left
  exact ⟨s', ended⟩

/-- Without work, the region starts where entering it ended. -/
theorem reentryWorked_self : reentryWorked s dev r.activation.link s.platform.host = reentry s dev r := by
  rw [reentryWorked, worked_self began.link?_after]
  rfl

/-- Ending the region leaves it where entering it ended. -/
theorem leave_of_dataEnd (ended : Returns (dataEnd id) s v s') :
    ∃ r', Returns (Region.leave pl.settings) (reentry s dev r) () r' ∧
      s'.platform.links = (pl.setLink dev r'.activation.link).links ∧ s'.platform.host = r'.host := by
  rw [← began.reentryWorked_self]
  exact began.leave_of_dataEnd_worked (Lasting.refl _) (by rwa [worked_self began.link?_after])

/-- If the region can be left, it can be ended. -/
theorem dataEnd_of_leave (left : Returns (Region.leave pl.settings) (reentry s dev r) () r') :
    ∃ s', Returns (dataEnd id) s () s' := by
  rw [← began.reentryWorked_self] at left
  have ended := began.dataEnd_worked (Lasting.refl _) left
  rwa [worked_self began.link?_after] at ended

end Began

/-- As long as only its host has worked, the device of the smallest platform is empty. -/
theorem device_of_oneDevice (same : pl.devices = oneDevice.devices) (hl : pl.link? dev = some l) :
    l.device = { id := 0, unit := 0 } := by
  obtain ⟨slot, hs, device, -⟩ := link?_eq_some_iff.1 hl
  rw [same] at hs
  rw [← device, List.mem_singleton.1 (List.mem_of_getElem? hs)]

/-- If the mappings of all devices lie in the address space, then so do those of each link. -/
theorem inSpace_of_devices (h : (pl.devices.all fun slot => slot.device.mappings.entries.items.all fun m =>
    m.hostEnd ≤ Word.greatest && m.deviceBegin + m.length ≤ Word.modulus) = true) {dev : Nat} {l : Link}
    (hl : pl.link? dev = some l) : ∀ m ∈ l.device.mappings, m.InSpace := by
  intro m hm
  obtain ⟨slot, hs, device, -⟩ := link?_eq_some_iff.1 hl
  have inside := List.all_eq_true.1 (List.all_eq_true.1 h slot (List.mem_of_getElem? hs)) m
    (by rw [device]; exact hm)
  rw [Bool.and_eq_true, decide_eq_true_eq, decide_eq_true_eq] at inside
  exact ⟨inside.1, inside.2⟩

end Offloading.Platform
