import Offloading.Platform.Calls
import Offloading.Proofs.PatchedPointers
/-!
# The platform

How a call moves the platform: it works on one device and the accelerator that serves it, and puts
both back. Each step is orderly on all devices at once, except a region that maps implicitly and a
mapping that is disassociated, which still keep the platform sound.
-/

namespace Offloading

namespace Platform

variable {pl pl' : Platform} {dev : Nat} {l l' : Link}

/-- All mapping tables and all memories are well-formed. -/
structure Sound (pl : Platform) : Prop where
  mappings : ∀ slot ∈ pl.devices, slot.device.mappings.WellFormed
  accelerators : ∀ a ∈ pl.accelerators, a.WellFormed

/-- The slots of all patched pointers are mapped, on every device. -/
def Tidy (pl : Platform) : Prop := ∀ slot ∈ pl.devices, slot.device.Tidy

/-- A sound platform stays sound, and then a tidy one stays tidy. -/
def Orderly (pl pl' : Platform) : Prop := pl.Sound → pl'.Sound ∧ (pl.Tidy → pl'.Tidy)

instance : Lasting Orderly where
  refl _ h := ⟨h, id⟩
  trans h h' hs := by
    obtain ⟨hs', tidy⟩ := h hs
    obtain ⟨hs'', tidy'⟩ := h' hs'
    exact ⟨hs'', fun ht => tidy' (tidy ht)⟩

theorem Orderly.sound (h : pl.Orderly pl') : Kept Sound pl pl' := fun hs => (h hs).1

theorem Sound.of_same (h : pl.Sound) (devices : pl'.devices = pl.devices)
    (accelerators : pl'.accelerators = pl.accelerators) : pl'.Sound := by
  refine ⟨?_, ?_⟩
  · rw [devices]
    exact h.mappings
  · rw [accelerators]
    exact h.accelerators

/-- A step that leaves devices and accelerators alone is orderly. -/
theorem orderly_of_same (devices : pl'.devices = pl.devices)
    (accelerators : pl'.accelerators = pl.accelerators) : pl.Orderly pl' := by
  refine fun hs => ⟨hs.of_same devices accelerators, fun ht => ?_⟩
  rw [Tidy, devices]
  exact ht

/-! ## Links -/

theorem link?_eq_some_iff :
    pl.link? dev = some l ↔
      ∃ slot, pl.devices[dev]? = some slot ∧ slot.device = l.device ∧
        pl.accelerators[slot.accelerator]? = some l.accelerator := by
  simp only [link?, bind, Option.bind_eq_some_iff]
  constructor
  · rintro ⟨slot, hs, a, ha, same⟩
    cases same
    exact ⟨slot, hs, rfl, ha⟩
  · rintro ⟨slot, hs, device, ha⟩
    refine ⟨slot, hs, l.accelerator, ha, ?_⟩
    rw [device]
    rfl

theorem Sound.link (h : pl.Sound) (hl : pl.link? dev = some l) : l.Sound := by
  obtain ⟨slot, hs, device, ha⟩ := link?_eq_some_iff.1 hl
  refine ⟨?_, h.accelerators _ (List.mem_of_getElem? ha)⟩
  rw [← device]
  exact h.mappings slot (List.mem_of_getElem? hs)

theorem Tidy.link (h : pl.Tidy) (hl : pl.link? dev = some l) : l.Tidy := by
  obtain ⟨slot, hs, device, -⟩ := link?_eq_some_iff.1 hl
  rw [Link.Tidy, ← device]
  exact h slot (List.mem_of_getElem? hs)

/-- The devices after one of them was put back. -/
theorem mem_devices_setLink {slot : DeviceSlot} (h : slot ∈ (pl.setLink dev l').devices) :
    slot ∈ pl.devices ∨ slot.device = l'.device := by
  unfold setLink at h
  split at h
  · exact .inl h
  · rcases List.mem_or_eq_of_mem_set h with h | rfl
    · exact .inl h
    · exact .inr rfl

theorem mem_accelerators_setLink {a : Accelerator} (h : a ∈ (pl.setLink dev l').accelerators) :
    a ∈ pl.accelerators ∨ a = l'.accelerator := by
  unfold setLink at h
  split at h
  · exact .inl h
  · exact List.mem_or_eq_of_mem_set h

theorem Sound.setLink (h : pl.Sound) (hl : l'.Sound) : (pl.setLink dev l').Sound := by
  refine ⟨fun slot hs => ?_, fun a ha => ?_⟩
  · rcases mem_devices_setLink hs with hs | device
    · exact h.mappings slot hs
    · rw [device]
      exact hl.mappings
  · rcases mem_accelerators_setLink ha with ha | rfl
    · exact h.accelerators a ha
    · exact hl.accelerator

theorem orderly_setLink (hl : pl.link? dev = some l) (h : l.Orderly l') :
    pl.Orderly (pl.setLink dev l') := by
  intro hs
  obtain ⟨sound, tidy⟩ := h (hs.link hl)
  refine ⟨hs.setLink sound, fun ht slot hslot => ?_⟩
  rcases mem_devices_setLink hslot with hslot | device
  · exact ht slot hslot
  · rw [device]
    exact tidy (ht.link hl)

theorem sound_setLink (hl : pl.link? dev = some l) (h : Kept Link.Sound l l') :
    Kept Sound pl (pl.setLink dev l') :=
  fun hs => hs.setLink (h (hs.link hl))

/-- The devices and the accelerators. -/
def links (pl : Platform) : List DeviceSlot × List Accelerator := (pl.devices, pl.accelerators)

theorem link?_congr (h : pl'.links = pl.links) : pl'.link? dev = pl.link? dev := by
  rw [links, links, Prod.mk.injEq] at h
  rw [link?, link?, h.1, h.2]

theorem link?_setLink (hl : pl.link? dev = some l) : (pl.setLink dev l').link? dev = some l' := by
  obtain ⟨slot, hs, -, ha⟩ := link?_eq_some_iff.1 hl
  obtain ⟨lt, -⟩ := List.getElem?_eq_some_iff.1 hs
  obtain ⟨lt', -⟩ := List.getElem?_eq_some_iff.1 ha
  rw [link?_eq_some_iff, setLink, hs]
  exact ⟨{ slot with device := l'.device }, List.getElem?_set_self lt, rfl,
    List.getElem?_set_self lt'⟩

/-- Of the links that are put back one after the other the last one stays. -/
theorem links_setLink_setLink {l'' : Link} (h : pl'.links = (pl.setLink dev l').links) :
    (pl'.setLink dev l'').links = (pl.setLink dev l'').links := by
  rw [links, links, Prod.mk.injEq] at h
  obtain ⟨devices, accelerators⟩ := h
  cases hs : pl.devices[dev]? with
  | none =>
      rw [setLink, hs] at devices accelerators
      rw [setLink, setLink, devices, hs]
      exact Prod.ext devices accelerators
  | some slot =>
      obtain ⟨lt, -⟩ := List.getElem?_eq_some_iff.1 hs
      rw [setLink, hs] at devices accelerators
      have here : pl'.devices[dev]? = some { slot with device := l'.device } := by
        rw [devices]
        exact List.getElem?_set_self lt
      rw [setLink, setLink, here, hs]
      refine Prod.ext ?_ ?_
      · change pl'.devices.set dev _ = pl.devices.set dev _
        rw [devices]
        exact List.set_set ..
      · change pl'.accelerators.set slot.accelerator _ = pl.accelerators.set slot.accelerator _
        rw [accelerators]
        exact List.set_set ..

theorem settings_setLink : (pl.setLink dev l).settings = pl.settings := by
  unfold setLink
  split
  · rfl
  · rfl

theorem listed_setLink : (pl.setLink dev l).listed = pl.listed := by
  unfold setLink
  split
  · rfl
  · rfl

theorem host_setLink : (pl.setLink dev l).host = pl.host := by
  unfold setLink
  split
  · rfl
  · rfl

theorem metrics_setLink : (pl.setLink dev l).metrics = pl.metrics := by
  unfold setLink
  split
  · rfl
  · rfl

/-! ## Steps of the platform -/

section steps

variable {α β : Type} {a : α} {b : β} {x : DeviceM α} {R : Platform → Platform → Prop}

theorem exec_link (h : pl.link? dev = some l) : exec (link dev) pl = (.ok l, pl) := by
  rw [link, exec_get_bind, h]
  rfl

theorem exec_link_none (h : pl.link? dev = none) :
    exec (link dev) pl = (.error (.deviceNotReady dev (.onlyDevices pl.listed)), pl) := by
  rw [link, exec_get_bind, h]
  rfl

theorem returns_link_bind {f : Link → PlatformM β} :
    Returns (link dev >>= f) pl b pl' ↔ ∃ l, pl.link? dev = some l ∧ Returns (f l) pl b pl' := by
  rw [Returns]
  cases h : pl.link? dev with
  | none =>
      rw [exec_bind_error (exec_link_none h)]
      constructor
      · intro h
        cases h
      · rintro ⟨l, none, -⟩
        cases none
  | some l =>
      rw [exec_bind_ok (exec_link h)]
      constructor
      · intro h
        exact ⟨l, rfl, h⟩
      · rintro ⟨_, same, h⟩
        cases same
        exact h

theorem along_link_bind [Lasting R] {f : Link → PlatformM β}
    (hf : ∀ pl l, pl.link? dev = some l → R pl (exec (f l) pl).2) : Along R (link dev >>= f) := by
  intro pl
  cases h : pl.link? dev with
  | none =>
      rw [exec_bind_error (exec_link_none h)]
      exact Lasting.refl pl
  | some l =>
      rw [exec_bind_ok (exec_link h)]
      exact hf pl l h

theorem exec_onDevice (hl : pl.link? dev = some l) :
    exec (onDevice dev x) pl =
      ((exec x l).1.mapError .ofDevice, pl.setLink dev (exec x l).2) := by
  rw [onDevice, exec_bind_ok (exec_link hl)]
  rcases hx : exec x l with ⟨e | v, l'⟩
  · have run : StateT.run (ExceptT.run x) l = (.error e, l') := hx
    rw [run]
    rfl
  · have run : StateT.run (ExceptT.run x) l = (.ok v, l') := hx
    rw [run]
    rfl

theorem returns_onDevice :
    Returns (onDevice dev x) pl a pl' ↔
      ∃ l l', pl.link? dev = some l ∧ Returns x l a l' ∧ pl' = pl.setLink dev l' := by
  unfold Returns
  cases hl : pl.link? dev with
  | none =>
      rw [onDevice, exec_bind_error (exec_link_none hl)]
      constructor
      · intro h
        cases h
      · rintro ⟨l, _, none, -⟩
        cases none
  | some l =>
      rw [exec_onDevice hl]
      rcases hx : exec x l with ⟨e | v, l'⟩
      · constructor
        · intro h
          cases h
        · rintro ⟨_, _, same, h, -⟩
          cases same
          rw [hx] at h
          cases h
      · constructor
        · intro h
          cases h
          exact ⟨l, l', rfl, hx, rfl⟩
        · rintro ⟨_, _, same, h, rfl⟩
          cases same
          rw [hx] at h
          cases h
          rfl

theorem along_onDevice [Lasting R]
    (hx : ∀ pl l, pl.link? dev = some l → R pl (pl.setLink dev (exec x l).2)) :
    Along R (onDevice dev x) := by
  refine along_link_bind fun pl l hl => ?_
  refine Along.bind_at (R := R) (x := modify _) (hx pl l hl) fun _ => ?_
  split
  · exact Along.pure
  · exact Along.throw

theorem orderly_onDevice (hx : Along Link.Orderly x) : Along Orderly (onDevice dev x) :=
  along_onDevice fun _ _ hl => orderly_setLink hl (hx _)

theorem sound_onDevice (hx : Along (Kept Link.Sound) x) : Along (Kept Sound) (onDevice dev x) :=
  along_onDevice fun _ _ hl => sound_setLink hl (hx _)

theorem orderly_onAccelerator {wrap : AcceleratorError → OffloadError} {x : AcceleratorM α}
    (hx : Along (Kept Accelerator.WellFormed) x) : Along Orderly (onAccelerator dev wrap x) := by
  refine along_link_bind fun pl l hl => ?_
  refine Along.bind_at (R := Orderly) (x := modify _) ?_ fun _ => ?_
  · refine orderly_setLink hl fun hs => ⟨⟨hs.mappings, hx _ hs.accelerator⟩, id⟩
  · split
    · exact Along.pure
    · exact Along.throw

theorem orderly_modify {f : Platform → Platform} (devices : ∀ pl, (f pl).devices = pl.devices)
    (accelerators : ∀ pl, (f pl).accelerators = pl.accelerators) :
    Along Orderly (modify f : PlatformM PUnit) :=
  Along.modify fun pl => orderly_of_same (devices pl) (accelerators pl)

theorem along_deviceIndex [Lasting R] (id : Int) : Along R (deviceIndex id) := by
  unfold deviceIndex
  refine Along.get.bind fun pl => ?_
  dsimp only
  have known : ∀ index : Nat, Along R (do
      if index < pl.listed then return index
      throw (.deviceNotReady index (.onlyDevices pl.listed)) : PlatformM Nat) :=
    fun index => Along.ite Along.pure Along.throw
  refine Along.ite (Along.pure.bind known) ?_
  split
  · exact Along.pure.bind known
  · exact Along.throw.bind known

/-- The device that a caller names depends on the settings and on how many devices are listed. -/
theorem returns_deviceIndex_congr {id : Int} {i : Nat} {pl₁ : Platform}
    (settings : pl₁.settings = pl.settings) (listed : pl₁.listed = pl.listed)
    (h : Returns (deviceIndex id) pl i pl') : Returns (deviceIndex id) pl₁ i pl₁ := by
  have same := along_deviceIndex (R := Eq) id pl₁
  refine Prod.ext ?_ same.symm
  have here : (exec (deviceIndex id) pl).1 = .ok i := congrArg Prod.fst h
  rw [← here, deviceIndex, exec_get_bind, exec_get_bind, settings, listed]
  dsimp only
  split
  · rw [exec_bind, exec_bind]
    dsimp only [exec_pure]
    split
    · rfl
    · rfl
  · split
    · rw [exec_bind, exec_bind]
      dsimp only [exec_pure]
      split
      · rfl
      · rfl
    · rfl

theorem returns_record {p : Phase} {u : Unit} (h : Returns (record p) pl u pl') :
    ∃ metrics, pl' = { pl with metrics } := by
  have := returns_modify.1 h
  subst this
  split
  · exact ⟨_, rfl⟩
  · exact ⟨_, rfl⟩

theorem orderly_record {p : Phase} : Along Orderly (record p) := by
  refine orderly_modify (fun pl => ?_) fun pl => ?_
  · split
    · rfl
    · rfl
  · split
    · rfl
    · rfl

end steps

/-! ## Libraries -/

theorem orderly_mapGlobals (symbols : List (Symbol × Symbol)) :
    Along Orderly (mapGlobals dev symbols) := by
  induction symbols with
  | nil => exact Along.pure
  | cons pair rest ih =>
      obtain ⟨host, target⟩ := pair
      rw [mapGlobals]
      refine Along.ite (Along.bind ?_ fun _ => ih) ih
      exact orderly_onDevice (Device.along_mapGlobal.mono Link.Extended.orderly)

theorem orderly_loadLibrary {position : Nat} : Along Orderly (loadLibrary dev position) := by
  refine along_link_bind fun pl l _ => ?_
  refine Along.get.bind (R := Orderly) (fun s => ?_) pl
  split
  · exact Along.pure
  · refine Along.ite Along.pure ?_
    split
    · exact Along.pure
    · refine (orderly_onAccelerator Accelerator.along_load).bind fun symbols => ?_
      refine Along.ite (Along.throw.bind fun _ => ?_) ?_
      all_goals
        refine (orderly_mapGlobals _).bind fun _ => Along.bind ?_ fun _ => Along.pure
        exact orderly_modify (fun _ => rfl) fun _ => rfl

theorem orderly_loadLibraries (positions : List Nat) :
    Along Orderly (loadLibraries dev positions) := by
  induction positions with
  | nil => exact Along.pure
  | cons position rest ih =>
      exact orderly_loadLibrary.bind fun _ => ih.bind fun _ => Along.pure

theorem orderly_runConstructors {run : Nat → PlatformM Unit} (h : ∀ c, Along Orderly (run c))
    (constructors : List Nat) : Along Orderly (runConstructors run constructors) := by
  induction constructors with
  | nil => exact Along.pure
  | cons c rest ih =>
      refine Along.bind (orderly_modify (fun _ => rfl) fun _ => rfl) fun _ => ?_
      exact (h c).bind fun _ => ih

theorem orderly_checkReady {run : Nat → PlatformM Unit} (h : ∀ c, Along Orderly (run c)) :
    Along Orderly (checkReady dev run) := by
  refine Along.bind ?_ fun _ => along_link_bind fun pl l _ => Along.ite ?_ Along.pure pl
  · exact orderly_onDevice (Device.along_prepare.mono fun h => h.extended.orderly)
  · refine Along.get.bind fun s => (orderly_loadLibraries _).bind fun constructors => ?_
    refine (orderly_runConstructors h constructors).bind fun _ => orderly_onDevice ?_
    exact Along.modify fun l hl => ⟨⟨hl.mappings, hl.accelerator⟩, id⟩

/-- Looking up a host function changes the cache and nothing else. -/
theorem along_resolveEntry {R : Platform → Platform → Prop} [Lasting R] {device hostAddr : Nat}
    (cached : ∀ pl entryCache, R pl { pl with entryCache }) :
    Along R (resolveEntry device hostAddr) := by
  have slot : Along R (entrySlot hostAddr) := by
    refine Along.bind_get fun pl => ?_
    split
    · exact Lasting.refl pl
    · split
      · exact Lasting.refl pl
      · exact Along.bind_at (R := R) (x := set _) (cached pl _) fun _ => Along.pure
  refine slot.bind fun slot => Along.get.bind fun pl => ?_
  dsimp only
  split
  · exact Along.pure
  · exact Along.throw

theorem orderly_resolveEntry {device hostAddr : Nat} :
    Along Orderly (resolveEntry device hostAddr) :=
  along_resolveEntry fun _ _ => orderly_of_same rfl rfl

end Platform

end Offloading
