import Offloading.Proofs.Phases
import Offloading.Proofs.Reachable
/-!
# Calls without kernels

On a platform where no library waits, a call that runs no kernel prepares its device and runs one phase
of a region there, and no library waits afterwards. This module says where the region starts and what
becomes of the devices.
-/

namespace Offloading

/-- The call neither runs a kernel nor registers one. -/
def Call.KernelFree : Call → Prop
  | .target .. | .register _ => False
  | _ => True

namespace Device

open DeviceM

variable {first size : Nat} {updateRef force : Bool}

theorem along_hold_pending :
    Along (Fixed fun l : Link => l.device.pending) (hold first size updateRef) := by
  refine along_device_bind fun l => ?_
  cases (l.device.mappings.lookup first size).mapping? with
  | none => exact Lasting.refl l
  | some m =>
      dsimp only
      split
      · exact Along.bind_at (x := modifyMappings _) rfl (fun _ => Along.pure)
      · exact Lasting.refl l

theorem along_unmap_pending :
    Along (Fixed fun l : Link => l.device.pending) (unmap first size force) := by
  refine along_device_bind fun l => ?_
  cases (l.device.mappings.lookup first size).mapping? with
  | none => exact Lasting.refl l
  | some m =>
      refine Along.ite (R := Fixed fun l : Link => l.device.pending) Along.pure ?_ l
      refine Along.ite (Along.modify fun _ => rfl) (Along.bind (Along.modify fun _ => rfl) fun _ => ?_)
      exact along_free.mono fun h => h.extended.pending

end Device

namespace Region

/-- No phase makes libraries wait. -/
theorem allows_pending : Allows (Fixed fun s => s.activation.link.device.pending) where
  still h _ := h.pending
  map := RegionM.lifts_onDevice.along (Device.along_map.mono fun h => h.pending) fun _ _ h => h
  hold := RegionM.lifts_onDevice.along Device.along_hold_pending fun _ _ h => h
  unmap := RegionM.lifts_onDevice.along Device.along_unmap_pending fun _ _ h => h

end Region

namespace Platform

open CallM

variable {pl pl' : Platform} {dev d : Nat} {l l' : Link} {id : Int}

/-- No library waits to be loaded. -/
def Loaded (pl : Platform) : Prop := ∀ slot ∈ pl.devices, slot.device.pending = false

/-- The device at a position. -/
def device? (pl : Platform) (dev : Nat) : Option Device := pl.devices[dev]?.map (·.device)

theorem Loaded.link (h : pl.Loaded) (hl : pl.link? dev = some l) : l.device.pending = false := by
  obtain ⟨slot, hs, device, -⟩ := link?_eq_some_iff.1 hl
  rw [← device]
  exact h slot (List.mem_of_getElem? hs)

theorem device?_of_link? (hl : pl.link? dev = some l) : pl.device? dev = some l.device := by
  obtain ⟨slot, hs, device, -⟩ := link?_eq_some_iff.1 hl
  rw [device?, hs, Option.map_some, device]

theorem device?_congr (h : pl'.links = pl.links) : pl'.device? dev = pl.device? dev := by
  rw [device?, device?, (Prod.mk.inj h).1]

theorem device?_setLink_ne (h : d ≠ dev) : (pl.setLink d l').device? dev = pl.device? dev := by
  rw [device?, device?, setLink]
  split
  · rfl
  · rw [List.getElem?_set_ne h]

theorem device?_setLink (hl : pl.link? dev = some l) :
    (pl.setLink dev l').device? dev = some l'.device :=
  device?_of_link? (link?_setLink hl)

theorem Loaded.setLink (h : pl.Loaded) (pending : l'.device.pending = false) :
    (pl.setLink dev l').Loaded := by
  intro slot hs
  rcases mem_devices_setLink hs with hs | device
  · exact h slot hs
  · rw [device]
    exact pending

/-! ## Preparing -/

/-- At most one device was prepared. -/
def Readied (pl pl' : Platform) : Prop :=
  pl' = pl ∨ ∃ dev l l', pl.link? dev = some l ∧ l.Prepared l' ∧ pl' = pl.setLink dev l'

/-- No library waits to be loaded on the device that a caller names. -/
def LoadedFor (pl : Platform) (id : Int) : Prop :=
  ∀ dev l, Returns (deviceIndex id) pl dev pl → pl.link? dev = some l → l.device.pending = false

theorem Loaded.loadedFor (h : pl.Loaded) (id : Int) : pl.LoadedFor id := fun _ _ _ => h.link

/-- If no library waits, all that a call first does is to prepare a device, whether it goes on or not. -/
theorem exec_ready_of_loadedFor (id : Int) (loaded : pl.LoadedFor id) :
    (exec (ready id) pl).2 = pl ∨ ∃ dev l, pl.link? dev = some l ∧
      (exec (ready id) pl).2 = pl.setLink dev (exec Device.prepare l).2 := by
  have same : pl = (exec (deviceIndex id) pl).2 := along_deviceIndex (R := Eq) id pl
  rcases hi : exec (deviceIndex id) pl with ⟨e | dev, pl₁⟩
  · rw [hi] at same
    rw [ready, exec_bind_error hi]
    exact .inl same.symm
  · rw [hi] at same
    subst same
    have checked : (exec (ready id) pl).2 = (exec (checkReady dev (runConstructor dev)) pl).2 := by
      rw [ready, exec_bind_ok hi, exec_bind]
      rcases exec (checkReady dev (runConstructor dev)) pl with ⟨_ | _, _⟩
      · rfl
      · rfl
    rw [checked, checkReady]
    cases hl : pl.link? dev with
    | none =>
        have failed : exec (onDevice dev Device.prepare) pl =
            (.error (.deviceNotReady dev (.onlyDevices pl.listed)), pl) := by
          rw [onDevice, exec_bind_error (exec_link_none hl)]
        rw [exec_bind_error failed]
        exact .inl rfl
    | some l =>
        refine .inr ⟨dev, l, hl, ?_⟩
        have prepared := exec_onDevice (x := Device.prepare) hl
        have kept := Device.along_prepare l
        rcases hp : exec Device.prepare l with ⟨e | u, l'⟩
        · rw [hp] at prepared
          rw [exec_bind_error prepared]
        · rw [hp] at prepared kept
          rw [exec_bind_ok prepared, exec_bind_ok (exec_link (link?_setLink hl)),
            kept.still.pending, loaded dev l hi hl]
          rfl

theorem exec_ready (id : Int) (loaded : pl.Loaded) :
    (exec (ready id) pl).2 = pl ∨ ∃ dev l, pl.link? dev = some l ∧
      (exec (ready id) pl).2 = pl.setLink dev (exec Device.prepare l).2 :=
  exec_ready_of_loadedFor id (loaded.loadedFor id)

theorem readied_of_loadedFor (loaded : pl.LoadedFor id) : pl.Readied (exec (ready id) pl).2 := by
  rcases exec_ready_of_loadedFor id loaded with same | ⟨dev, l, hl, same⟩
  · exact .inl same
  · exact .inr ⟨dev, l, _, hl, Device.along_prepare l, same⟩

theorem readied_ready (id : Int) (loaded : pl.Loaded) : pl.Readied (exec (ready id) pl).2 :=
  readied_of_loadedFor (loaded.loadedFor id)

/-- The shadows of the device at a position. -/
def shadows? (pl : Platform) (dev : Nat) : Option ShadowTable := (pl.device? dev).map (·.shadows)

theorem shadows?_setLink (hl : pl.link? d = some l) (same : l'.device.shadows = l.device.shadows) :
    (pl.setLink d l').shadows? dev = pl.shadows? dev := by
  by_cases here : d = dev
  · subst here
    rw [shadows?, shadows?, device?_setLink hl, device?_of_link? hl, Option.map_some, Option.map_some,
      same]
  · rw [shadows?, shadows?, device?_setLink_ne here]

/-- No pointer was patched or forgotten, and no library was made to wait. -/
structure Spares (pl pl' : Platform) : Prop where
  settings : pl'.settings = pl.settings
  shadows : ∀ dev, pl'.shadows? dev = pl.shadows? dev
  loaded : Kept Loaded pl pl'

instance : Lasting Spares where
  refl _ := ⟨rfl, fun _ => rfl, fun h => h⟩
  trans h h' := ⟨h'.settings.trans h.settings, fun dev => (h'.shadows dev).trans (h.shadows dev),
    Lasting.trans h.loaded h'.loaded⟩

theorem spares_of_links (settings : pl'.settings = pl.settings) (links : pl'.links = pl.links) :
    pl.Spares pl' := by
  have devices : pl'.devices = pl.devices := (Prod.mk.inj links).1
  refine ⟨settings, fun dev => ?_, fun loaded slot hs => loaded slot (devices ▸ hs)⟩
  rw [shadows?, shadows?, device?_congr links]

theorem spares_setLink (hl : pl.link? d = some l) (shadows : l'.device.shadows = l.device.shadows)
    (pending : l'.device.pending = l.device.pending) : pl.Spares (pl.setLink d l') :=
  ⟨settings_setLink, fun _ => shadows?_setLink hl shadows,
    fun loaded => loaded.setLink (pending.trans (loaded.link hl))⟩

theorem Readied.spares (h : pl.Readied pl') : pl.Spares pl' := by
  rcases h with rfl | ⟨d, l, l', hl, prepared, rfl⟩
  · exact Lasting.refl pl'
  · exact spares_setLink hl prepared.shadows prepared.still.pending

theorem spares_onDevice {α : Type} {x : DeviceM α}
    (hx : Along (Fixed fun l : Link => (l.device.shadows, l.device.pending)) x) :
    Along Spares (onDevice dev x) := by
  refine along_onDevice fun pl l hl => ?_
  obtain ⟨shadows, pending⟩ := Prod.mk.inj (hx l)
  exact spares_setLink hl shadows pending

theorem spares_associate {first target size : Nat} (loaded : pl.Loaded) :
    pl.Spares (exec (associate id first target size) pl).2 :=
  Along.bind_at (readied_ready _ loaded).spares fun _ => spares_onDevice
    (Device.along_associate.mono fun h => Prod.ext h.shadows h.pending)

theorem spares_disassociate {first : Nat} (loaded : pl.Loaded) :
    pl.Spares (exec (disassociate id first) pl).2 := by
  refine Along.bind_at (readied_ready _ loaded).spares fun _ => spares_onDevice ?_
  refine Device.along_device_bind fun l => ?_
  cases (l.device.mappings.lookup first 0).mapping? with
  | none => exact Lasting.refl l
  | some m =>
      refine Along.ite (R := Fixed fun l : Link => (l.device.shadows, l.device.pending)) ?_ Along.throw l
      exact Along.modify fun _ => rfl

theorem spares_pushTripCount {n : Nat} : Along Spares (pushTripCount id n) :=
  (along_deviceIndex id).bind fun _ => spares_onDevice
    (Device.along_pushTripCount.mono fun h => Prod.ext h.extended.shadows h.still.pending)

theorem spares_unregister (library : Nat) : pl.Spares (pl.unregister library).2 := by
  unfold unregister
  split
  · exact spares_of_links rfl rfl
  · exact Lasting.refl pl

/-- Using an accelerator directly does not touch devices. -/
theorem spares_afterUse {α : Type} {x : AcceleratorM α} {accelerator : Nat} :
    pl.Spares (pl.afterUse accelerator x) := ⟨rfl, fun _ => rfl, id⟩

/-! ## Regions of calls -/

/-- Where the region of a call on the device starts, if preparing the device succeeds and gives it. -/
def start? (pl : Platform) (dev : Nat) (id : Int) (l : ArgumentList) : Option RegionState :=
  match exec (ready id) pl with
  | (.ok d, pl') => if d = dev then (pl'.link? dev).map (CallState.region ⟨pl', l⟩) else none
  | (.error _, _) => none

/-- Where the region of the call on the device starts, if it has one. -/
def begun? (pl : Platform) (dev : Nat) : Call → Option RegionState
  | .dataBegin id l | .dataEnd id l | .dataUpdate id l => pl.start? dev id l
  | _ => none

end Platform

/-- What the call leaves of the region that it starts in `s`, whether it succeeds or not. -/
def Call.finish (settings : Settings) (s : RegionState) : Call → RegionState
  | .dataBegin .. => (exec (Region.enter settings) s).2
  | .dataEnd .. => (exec (Region.leave settings) s).2
  | .dataUpdate .. => (exec Region.refresh s).2
  | _ => s

theorem Call.pending_finish (settings : Settings) (s : RegionState) (c : Call) :
    (c.finish settings s).activation.link.device.pending = s.activation.link.device.pending := by
  cases c with
  | dataBegin id l => exact (Region.along_enter settings s).link.pending
  | dataEnd id l => exact Region.allows_pending.leaves.leave s
  | dataUpdate id l => exact (Region.along_refresh s).link.still.pending
  | _ => rfl

namespace Platform

open CallM

variable {pl pl' : Platform} {dev d : Nat} {id : Int} {l : ArgumentList} {c : Call}
  {s s' : RegionState}

/-- A call of one phase starts its region on the prepared device, and puts back what the region
leaves. -/
structure RanPhase (pl pl' : Platform) (dev : Nat) (s s' : RegionState) : Prop where
  prepared : ∃ l, pl.link? dev = some l ∧ l.Prepared s.activation.link
  idle : s.activation.queue = {}
  host : s.host = pl.host
  settings : pl'.settings = pl.settings
  links : pl'.links = (pl.setLink dev s'.activation.link).links
  after : pl'.host = s'.host

namespace RanPhase

variable (h : pl.RanPhase pl' dev s s')

include h

theorem link? : pl'.link? dev = some s'.activation.link := by
  obtain ⟨l, hl, -⟩ := h.prepared
  rw [link?_congr h.links, link?_setLink hl]

theorem shadows : pl.shadows? dev = some s.activation.link.device.shadows := by
  obtain ⟨l, hl, prepared⟩ := h.prepared
  rw [shadows?, device?_of_link? hl, Option.map_some, prepared.shadows]

theorem shadows' : pl'.shadows? dev = some s'.activation.link.device.shadows := by
  rw [shadows?, device?_of_link? h.link?, Option.map_some]

theorem sound (hs : pl.Sound) : s.activation.link.Sound := by
  obtain ⟨l, hl, prepared⟩ := h.prepared
  exact prepared.still.sound (hs.link hl)

theorem loaded (pending : s'.activation.link.device.pending = s.activation.link.device.pending) :
    Kept Loaded pl pl' := by
  obtain ⟨l, hl, prepared⟩ := h.prepared
  intro loaded slot hs
  rw [(Prod.mk.inj h.links).1] at hs
  exact loaded.setLink ((pending.trans prepared.still.pending).trans (loaded.link hl)) slot hs

theorem others (other : d ≠ dev) : pl'.shadows? d = pl.shadows? d := by
  rw [shadows?, device?_congr h.links, device?_setLink_ne (Ne.symm other)]
  rfl

end RanPhase

theorem start?_eq_some (h : pl.start? dev id l = some s) :
    ∃ pl' k, Returns (ready id) pl dev pl' ∧ pl'.link? dev = some k ∧
      s = CallState.region ⟨pl', l⟩ k := by
  rw [start?] at h
  rcases hr : exec (ready id) pl with ⟨e | d, pl'⟩
  · rw [hr] at h
    cases h
  · rw [hr] at h
    dsimp only at h
    split at h
    · rename_i same
      subst same
      obtain ⟨k, hk, rfl⟩ := Option.map_eq_some_iff.1 h
      exact ⟨pl', k, hr, hk, rfl⟩
    · cases h

theorem start?_of_ready {k : Link} (hr : Returns (ready id) pl dev pl')
    (hk : pl'.link? dev = some k) : pl.start? dev id l = some (CallState.region ⟨pl', l⟩ k) := by
  rw [Returns] at hr
  rw [start?, hr]
  dsimp only
  rw [if_pos rfl, hk]
  rfl

/-- Only one device is prepared. -/
theorem start?_unique (h : pl.start? dev id l = some s) (h' : pl.start? d id l = some s') :
    d = dev := by
  obtain ⟨_, _, ready, -⟩ := start?_eq_some h
  obtain ⟨_, _, ready', -⟩ := start?_eq_some h'
  exact (ready.unique ready').1

/-- The devices, the accelerators, the settings and host memory. -/
def core (pl : Platform) : (List DeviceSlot × List Accelerator) × Settings × HostMemory :=
  (pl.links, pl.settings, pl.host)

theorem along_record_core {p : Phase} :
    Along (Fixed fun s : CallState => s.platform.core) (onPlatform (record p)) := by
  refine lifts_onPlatform.along (R := Fixed core) (Along.modify fun pl => ?_) fun _ _ h => h
  split
  · rfl
  · rfl

/-- A call of one phase runs its region on one device, or it fails before. -/
theorem ran_or_spares {α β : Type} {x : Settings → RegionM α} {f : α → CallM β}
    (loaded : pl.Loaded)
    (hf : ∀ a, Along (Fixed fun s : CallState => s.platform.core) (f a)) :
    let after := pl.afterCall l (onPlatform (ready id) >>= fun d => inRegion d x >>= f)
    (∃ dev s, pl.start? dev id l = some s ∧ pl.RanPhase after dev s (exec (x pl.settings) s).2) ∨
      ((∀ dev, pl.start? dev id l = none) ∧ pl.Spares after) := by
  have readied : pl.Readied (exec (ready id) pl).2 := readied_ready _ loaded
  rw [afterCall, exec_bind, lifts_onPlatform]
  rcases hr : exec (ready id) pl with ⟨e | dev, pl₁⟩
  · rw [hr] at readied
    refine .inr ⟨fun dev => ?_, readied.spares⟩
    rw [start?, hr]
  · rw [hr] at readied
    cases hk : pl₁.link? dev with
    | none =>
        refine .inr ⟨fun d => ?_, ?_⟩
        · rw [start?, hr]
          dsimp only
          split
          · rename_i same
            rw [← same, hk]
            rfl
          · rfl
        · change pl.Spares (exec (inRegion dev x >>= f) ⟨pl₁, l⟩).2.platform
          rw [exec_bind_error (exec_inRegion_none hk)]
          exact readied.spares
    | some k =>
        have start := start?_of_ready (l := l) hr hk
        refine .inl ⟨dev, _, start, ?_⟩
        change pl.RanPhase (exec (inRegion dev x >>= f) ⟨pl₁, l⟩).2.platform _ _ _
        have ran := exec_inRegion (x := x) (s := ⟨pl₁, l⟩) hk
        have kept : (exec (inRegion dev x >>= f) ⟨pl₁, l⟩).2.platform.core =
            (CallState.resume ⟨pl₁, l⟩ dev
              (exec (x pl₁.settings) (CallState.region ⟨pl₁, l⟩ k)).2).platform.core := by
          rw [exec_bind, ran]
          split
          · rename_i h
            rw [← (Prod.mk.inj h).2]
            exact hf _ _
          · rename_i h
            rw [← (Prod.mk.inj h).2]
        obtain ⟨links, settings, host⟩ := Prod.ext_iff.1 kept |>.imp_right Prod.mk.inj
        obtain ⟨k₀, k', hk₀, prepared, rfl⟩ := returns_ready hr fun _ => loaded.link
        rw [link?_setLink hk₀, Option.some.injEq] at hk
        subst hk
        rw [settings_setLink] at settings host links
        refine ⟨⟨k₀, hk₀, prepared⟩, rfl, host_setLink, ?_, ?_, host⟩
        · exact settings.trans (settings_setLink.trans settings_setLink)
        · exact links.trans (links_setLink_setLink rfl)

/-- A kernel-free call runs one phase on one device, or it leaves all shadows alone. -/
theorem perform_cases (loaded : pl.Loaded) (free : c.KernelFree) :
    (∃ dev s, pl.begun? dev c = some s ∧
        pl.RanPhase (pl.perform c) dev s (c.finish pl.settings s)) ∨
      ((∀ dev, pl.begun? dev c = none) ∧ pl.Spares (pl.perform c)) := by
  cases c with
  | dataBegin id l => exact ran_or_spares loaded fun _ => along_record_core
  | dataEnd id l => exact ran_or_spares loaded fun _ => along_record_core
  | dataUpdate id l => exact ran_or_spares loaded fun _ => along_record_core.bind fun _ => Along.pure
  | target id l hostAddr kind => exact free.elim
  | associate id first target size => exact .inr ⟨fun _ => rfl, spares_associate loaded⟩
  | disassociate id first => exact .inr ⟨fun _ => rfl, spares_disassociate loaded⟩
  | pushTripCount id n => exact .inr ⟨fun _ => rfl, spares_pushTripCount pl⟩
  | register d => exact free.elim
  | unregister library => exact .inr ⟨fun _ => rfl, spares_unregister library⟩
  | write first content => exact .inr ⟨fun _ => rfl, spares_of_links rfl rfl⟩
  | allocate accelerator unit size => exact .inr ⟨fun _ => rfl, spares_afterUse⟩
  | release accelerator unit addr => exact .inr ⟨fun _ => rfl, spares_afterUse⟩
  | store accelerator unit c => exact .inr ⟨fun _ => rfl, spares_afterUse⟩
  | addKernel accelerator k => exact .inr ⟨fun _ => rfl, spares_afterUse⟩

theorem ranPhase_of_begun (loaded : pl.Loaded) (free : c.KernelFree)
    (begun : pl.begun? dev c = some s) :
    pl.RanPhase (pl.perform c) dev s (c.finish pl.settings s) := by
  rcases perform_cases loaded free with ⟨d, s', begun', ran⟩ | ⟨none, -⟩
  · obtain rfl : d = dev := by
      cases c with
      | dataBegin id l | dataEnd id l | dataUpdate id l => exact start?_unique begun begun'
      | _ => cases begun
    rw [begun, Option.some.injEq] at begun'
    exact begun' ▸ ran
  · rw [none dev] at begun
    cases begun

/-- A call that has no region on a device leaves the shadows of the device alone. -/
theorem shadows?_perform (loaded : pl.Loaded) (free : c.KernelFree) (none : pl.begun? dev c = none) :
    (pl.perform c).shadows? dev = pl.shadows? dev := by
  rcases perform_cases loaded free with ⟨d, s, begun, ran⟩ | ⟨-, spares⟩
  · refine ran.others fun here => ?_
    rw [here, begun] at none
    cases none
  · exact spares.shadows dev

/-- Kernel-free calls change neither the settings nor make libraries wait. -/
theorem perform_kept (loaded : pl.Loaded) (free : c.KernelFree) :
    (pl.perform c).Loaded ∧ (pl.perform c).settings = pl.settings := by
  rcases perform_cases loaded free with ⟨dev, s, -, ran⟩ | ⟨-, spares⟩
  · exact ⟨ran.loaded (c.pending_finish _ s) loaded, ran.settings⟩
  · exact ⟨spares.loaded loaded, spares.settings⟩

theorem Fresh.loaded (h : pl.Fresh) : pl.Loaded := by
  obtain ⟨config, accelerators, created, -⟩ := h
  obtain ⟨strategy, -, -, rfl⟩ := ofAccelerators_eq_ok created
  intro slot hs
  obtain ⟨id, unit, same⟩ := device_of_mem_slots hs
  rw [same]

end Platform

end Offloading
