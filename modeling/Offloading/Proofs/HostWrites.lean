import Offloading.Proofs.HostPointers
import Offloading.Proofs.KernelFree
import Offloading.Proofs.Readying
/-!
# Host writes

Getting a device ready and mapping never write to host memory. Releasing writes sections that are
copied back and the pointers that are remembered in them, and nothing else. Such a section is that of
a region from the device, except that the section of a struct whose members follow begins at a multiple
of the struct alignment, so that host bytes before the struct are written with it.
-/

namespace Offloading

/-- No shadow is new. -/
def Link.Forgets (l l' : Link) : Prop := ∀ x ∈ l'.device.shadows, x ∈ l.device.shadows

instance : Lasting Link.Forgets where
  refl _ _ hx := hx
  trans h h' x hx := h x (h' x hx)

theorem Link.forgets_of_eq {l l' : Link} (h : l'.device.shadows = l.device.shadows) : l.Forgets l' :=
  fun _ hx => h ▸ hx

namespace Device

open DeviceM

variable {first size : Nat} {updateRef force : Bool}

theorem along_hold_forgets : Along Link.Forgets (hold first size updateRef) :=
  along_hold_of fun _ _ => Link.forgets_of_eq rfl

theorem along_unmap_forgets : Along Link.Forgets (unmap first size force) := by
  refine along_unmap_of (fun _ _ => Link.forgets_of_eq rfl) fun _ => ?_
  refine Along.bind_at (x := modifyDevice _) (fun x hx => (AddressMap.mem_eraseRange.1 hx).1) fun _ => ?_
  exact along_free.mono fun h => Link.forgets_of_eq h.extended.shadows

theorem along_visitShadows_forgets {lower upper : Nat} {erase : Bool} :
    Along Link.Forgets (visitShadows lower upper erase) := by
  refine along_device_bind fun l => Along.bind_at (x := modifyDevice _) ?_ fun _ => Along.pure
  exact fun x hx => (ShadowTable.mem_visit.1 hx).1

/-- No more bytes are retrieved than were asked for. -/
theorem length_retrieve {l l' : Link} {target : Nat} {content : List UInt8}
    (h : Returns (retrieve target size) l content l') : content.length ≤ size := by
  rcases (returns_retrieve h).1 with ⟨-, rfl, -⟩ | ⟨m, -, read⟩
  · exact Nat.zero_le _
  · unfold DeviceMemory.read at read
    split at read
    · cases read
      exact Nat.zero_le _
    · cases located : m.locate target size with
      | error e =>
          rw [located] at read
          cases read
      | ok b =>
          rw [located] at read
          cases read
          exact List.length_take_le _ _

end Device

/-- A byte that is put back belongs to one of the pointers. -/
theorem HostMemory.byte_restored {m : HostMemory} {shadows : List ShadowPointer} (addr : Nat) :
    (m.restored shadows).byte addr = m.byte addr ∨
      ∃ x ∈ shadows, x.hostSlot ≤ addr ∧ addr < x.hostSlot + Word.bytes := by
  induction shadows generalizing m with
  | nil => exact .inl rfl
  | cons x rest ih =>
      have later := ih (m := m.write x.hostSlot (Word.toBytes x.hostValue))
      rcases later with same | ⟨y, hy, inside⟩
      · by_cases inside : x.hostSlot ≤ addr ∧ addr < x.hostSlot + Word.bytes
        · exact .inr ⟨x, List.mem_cons_self, inside⟩
        · refine .inl (same.trans (byte_write_outside ?_))
          rw [Word.length_toBytes]
          rw [Word.bytes] at inside
          omega
      · exact .inr ⟨y, List.mem_cons_of_mem _ hy, inside⟩

/-- The address lies among `S`, or in a remembered pointer that does. -/
def Device.Touches (d : Device) (S : Nat → Prop) (addr : Nat) : Prop :=
  ∃ place, S place ∧ (place = addr ∨
    ∃ x ∈ d.shadows, x.hostSlot = place ∧ place ≤ addr ∧ addr < place + Word.bytes)

/-- Host memory changes among `S` and in remembered pointers there, and nowhere else. -/
structure Writes (S : Nat → Prop) (s s' : RegionState) : Prop where
  host : ∀ addr, s'.host.byte addr = s.host.byte addr ∨ s.activation.link.device.Touches S addr
  forgets : s.activation.link.Forgets s'.activation.link
  arguments : s'.arguments = s.arguments

section Writes

variable {S T : Nat → Prop} {s s' : RegionState}

theorem Device.Touches.mono {d d' : Device} {addr : Nat} (h : d.Touches S addr)
    (hS : ∀ a, S a → T a) (shadows : ∀ x ∈ d.shadows, x ∈ d'.shadows) : d'.Touches T addr := by
  obtain ⟨place, here, same | ⟨x, hx, inside⟩⟩ := h
  · exact ⟨place, hS place here, .inl same⟩
  · exact ⟨place, hS place here, .inr ⟨x, shadows x hx, inside⟩⟩

instance : Lasting (Writes S) where
  refl _ := ⟨fun _ => .inl rfl, Lasting.refl _, rfl⟩
  trans h h' := by
    refine ⟨fun addr => ?_, Lasting.trans h.forgets h'.forgets, h'.arguments.trans h.arguments⟩
    rcases h'.host addr with same | later
    · rw [same]
      exact h.host addr
    · exact .inr (later.mono (fun _ ha => ha) h.forgets)

theorem Writes.mono (h : Writes S s s') (hS : ∀ a, S a → T a) : Writes T s s' :=
  ⟨fun addr => (h.host addr).imp_right fun touched => touched.mono hS fun _ hx => hx, h.forgets,
    h.arguments⟩

theorem Step.writes (h : Step Link.Forgets Eq s s') : Writes S s s' :=
  ⟨fun addr => .inl (congrArg (HostMemory.byte · addr) h.host.symm), h.link, h.arguments⟩

end Writes

namespace Region

open RegionM

variable {S : Nat → Prop} {settings : Settings} {padded : Bool} {region : Argument}
  {first size : Nat} {s : RegionState}

theorem along_onDevice_writes {α : Type} {x : DeviceM α} (hx : Along Link.Forgets x) :
    Along (Writes S) (onDevice x) :=
  (along_onDevice (H := Eq) hx).mono Step.writes

theorem writes_writeHost {content : List UInt8}
    (within : ∀ a, first ≤ a → a < first + content.length → S a) :
    Along (Writes S) (writeHost first content) := by
  refine Along.modify fun s => ⟨fun addr => ?_, Lasting.refl _, rfl⟩
  by_cases inside : first ≤ addr ∧ addr < first + content.length
  · exact .inr ⟨addr, within addr inside.1 inside.2, .inl rfl⟩
  · exact .inl (HostMemory.byte_write_outside (by omega))

theorem writes_copyBack {source : Nat} {removed : Bool}
    (within : region.mapType.has .fromDevice = true → ∀ a, first ≤ a → a < first + size → S a) :
    Along (Writes S) (copyBack region first size source removed) := by
  unfold copyBack
  dsimp only
  split
  · rename_i back
    have copy : Along (Writes S) (do
        writeHost first (← onDevice (Device.retrieve source size))
        return true) := by
      intro s
      refine Along.bind_returns (R := Writes S) ?_ fun content s' h => ?_
      · refine along_onDevice_writes (Device.along_retrieve.mono fun h => ?_) s
        exact Link.forgets_of_eq h.extended.shadows
      · obtain ⟨l, retrieved, rfl⟩ := lifts_onDevice.returns.1 h
        have length := Device.length_retrieve retrieved
        refine Along.bind_at (R := Writes S) (writes_writeHost (fun a lower upper => ?_) _) fun _ =>
          Along.pure
        exact within back a lower (by omega)
    have sole : Along (Writes S) (parentIsSoleOwner region) :=
      (along_parentIsSoleOwner (R := Link.Forgets) (H := Eq)).mono Step.writes
    refine Along.ite (sole.bind fun _ => ?_) (Along.pure.bind fun _ => ?_)
    · exact Along.ite copy Along.pure
    · exact Along.ite copy Along.pure
  · exact Along.pure

/-- Only sections from the device are copied back. -/
theorem fromDevice_of_copyBack {source : Nat} {removed : Bool} {s' : RegionState}
    (h : Returns (copyBack region first size source removed) s true s') :
    region.mapType.has .fromDevice = true := by
  cases back : region.mapType.has .fromDevice with
  | true => rfl
  | false =>
      unfold copyBack at h
      dsimp only at h
      rw [back] at h
      cases (returns_pure.1 h).1

theorem writes_restoreShadows {copied removed : Bool}
    (within : copied = true → ∀ a, first ≤ a → a < first + size → S a) :
    Along (Writes S) (restoreShadows settings first size copied removed) := by
  refine Along.ite (fun s => ?_) Along.pure
  have visited : Writes S s (exec (onDevice (Device.visitShadows first (first + size) removed)) s).2 :=
    along_onDevice_writes Device.along_visitShadows_forgets s
  cases copied with
  | false => exact Along.bind_at (R := Writes S) visited fun _ => Along.pure
  | true =>
      -- the pointers are put back after they were forgotten, so this is one step
      let l := (exec (Device.visitShadows first (first + size) removed) s.activation.link).2
      let pointers := s.activation.link.device.shadows.range first (first + size)
      have ran : exec (onDevice (Device.visitShadows first (first + size) removed) >>= restorePointers) s =
          (.ok ⟨⟩, { s.withLink l with host := s.host.restored pointers }) :=
        exec_restorePointers pointers (s.withLink l)
      show Writes S s (exec (onDevice (Device.visitShadows first (first + size) removed) >>=
        restorePointers) s).2
      rw [ran]
      refine ⟨fun addr => ?_, visited.forgets, rfl⟩
      refine (HostMemory.byte_restored addr).imp_right ?_
      rintro ⟨x, hx, inside⟩
      obtain ⟨known, lower, upper⟩ := AddressMap.mem_range.1 hx
      exact ⟨x.hostSlot, within rfl _ lower upper, .inr ⟨x, known, rfl, inside⟩⟩

/-- The host bytes that releasing a region may write: its section, if it is mapped from the device. -/
def Returned (settings : Settings) (padded : Bool) (region : Argument) (addr : Nat) : Prop :=
  region.isMapped = true ∧ region.mapType.has .fromDevice = true ∧
    (mappedSection settings padded region).1 ≤ addr ∧
    addr < (mappedSection settings padded region).1 + (mappedSection settings padded region).2

theorem writes_releasePointer {slot : Nat} : Along (Writes S) (releasePointer slot) := by
  refine (along_onDevice_writes Device.along_hold_forgets).bind fun held => ?_
  split
  · exact (along_unmapped (R := Link.Forgets) (H := Eq)).mono Step.writes
  · exact Along.ite (along_onDevice_writes Device.along_unmap_forgets) Along.pure

theorem writes_releaseSection (hm : region.isMapped = true) :
    Along (Writes (Returned settings padded region)) (releaseSection settings padded region) := by
  have within : region.mapType.has .fromDevice = true → ∀ a,
      (mappedSection settings padded region).1 ≤ a →
      a < (mappedSection settings padded region).1 + (mappedSection settings padded region).2 →
      Returned settings padded region a := fun back a lower upper => ⟨hm, back, lower, upper⟩
  unfold releaseSection
  refine (along_onDevice_writes Device.along_hold_forgets).bind fun held => ?_
  split
  · refine Along.ite Along.pure ?_
    exact (along_unmapped (R := Link.Forgets) (H := Eq)).mono Step.writes
  · refine fun s => Along.bind_returns (writes_copyBack within s) fun copied s₁ h => ?_
    refine Along.bind_at (writes_restoreShadows (fun copied => ?_) s₁) fun _ => ?_
    · rw [copied] at h
      exact within (fromDevice_of_copyBack h)
    · exact Along.ite (along_onDevice_writes Device.along_unmap_forgets) Along.pure

theorem writes_unmapRegion :
    Along (Writes (Returned settings padded region)) (unmapRegion settings padded region) := by
  unfold unmapRegion
  cases hm : region.isMapped with
  | false => exact Along.pure
  | true =>
      rw [Bool.not_true, if_neg Bool.false_ne_true]
      exact (writes_releaseSection hm).bind fun _ => Along.ite writes_releasePointer Along.pure

/-! ## Turns -/

theorem plan_of_mem_turnsOf {α : Type} {kind : TurnKind} {step : Argument → RegionM α}
    {plans : List RegionPlan} {t : Turn} (h : t ∈ turnsOf kind step plans s) :
    t.kind = kind ∧ ∃ plan ∈ plans, plan.resolve t.before.host = some t.region := by
  induction plans generalizing s with
  | nil => cases h
  | cons plan rest ih =>
      have later : ∀ {s'}, t ∈ turnsOf kind step rest s' →
          t.kind = kind ∧ ∃ plan' ∈ plan :: rest, plan'.resolve t.before.host = some t.region := by
        intro s' h
        obtain ⟨same, plan', hp, found⟩ := ih h
        exact ⟨same, plan', List.mem_cons_of_mem _ hp, found⟩
      rw [turnsOf] at h
      split at h
      · exact later h
      · rename_i resolved
        rcases List.mem_cons.1 h with rfl | h
        · exact ⟨rfl, plan, List.mem_cons_self, resolved⟩
        · split at h
          · exact later h
          · cases h

/-- The turn releases a region that the argument at a position stands for when the turn comes. -/
def Releases (l : ArgumentList) (index : Nat) (t : Turn) : Prop :=
  ∃ a regions, l.arguments[index]? = some a ∧ l.regions t.before.host index = .ok regions ∧
    t.region ∈ regions ∧ t.kind = .release (isPadded l index a)

theorem releases_of_mem_turnsAt {index : Nat} {t : Turn}
    (h : t ∈ turnsAt .release (unmapRegion settings) index s) : Releases s.arguments index t := by
  rw [turnsAt] at h
  split at h
  · rename_i a plans got found
    split at h
    · obtain ⟨kind, plan, hp, resolved⟩ := plan_of_mem_turnsOf h
      refine ⟨a, plans.filterMap (·.resolve t.before.host), ArgumentList.get_eq_ok.1 got, ?_, ?_, kind⟩
      · rw [ArgumentList.regions, found]
        rfl
      · exact List.mem_filterMap.2 ⟨plan, hp, resolved⟩
    · cases h
  · cases h

/-- All turns of leaving a region release regions of the argument list. -/
theorem releases_of_mem_releases {t : Turn} (h : t ∈ releases settings s) :
    ∃ index, Releases s.arguments index t := by
  have all : ∀ (indices : List Nat) {s : RegionState},
      t ∈ turnsOn (turnsAt .release (unmapRegion settings)) (unmapArgument settings) indices s →
      ∃ index, Releases s.arguments index t := by
    intro indices
    induction indices with
    | nil =>
        intro s h
        cases h
    | cons index rest ih =>
        intro s h
        rw [turnsOn] at h
        rcases List.mem_append.1 h with h | h
        · exact ⟨index, releases_of_mem_turnsAt h⟩
        · have kept : (exec (unmapArgument settings index) s).2.arguments = s.arguments :=
            (along_unmapArgument s).arguments
          split at h
          · rename_i ran
            rw [ran] at kept
            rw [← kept]
            exact ih h
          · cases h
  exact all _ h

end Region

/-- The host bytes that a turn may write. -/
def Turn.Returned (settings : Settings) (t : Turn) (addr : Nat) : Prop :=
  ∃ padded, t.kind = .release padded ∧ Region.Returned settings padded t.region addr

namespace Region

variable {settings : Settings} {s : RegionState}

/-- Leaving writes what its turns write. -/
theorem writes_leave (settings : Settings) (s : RegionState) :
    Writes (fun addr => ∃ t ∈ releases settings s, t.Returned settings addr) s
      (exec (leave settings) s).2 := by
  refine along_leave_of_turns fun t ht => ?_
  obtain ⟨index, a, regions, -, -, -, kind⟩ := releases_of_mem_releases ht
  have ran := ran_of_mem_releases ht
  rw [Ran, kind] at ran
  rw [Turned, ran]
  exact (writes_unmapRegion t.before).mono fun addr returned => ⟨t, ht, _, kind, returned⟩

end Region

/-! ## Calls -/

namespace Platform

open CallM

variable {dev : Nat}

/-- What getting a device ready leaves alone. -/
def surroundings (pl : Platform) : Settings × HostMemory := (pl.settings, pl.host)

theorem surroundings_onDevice {α : Type} {x : DeviceM α} :
    Along (Fixed surroundings) (onDevice dev x) :=
  along_onDevice fun _ _ _ => Prod.ext settings_setLink host_setLink

theorem surroundings_loadLibrary {position : Nat} :
    Along (Fixed surroundings) (loadLibrary dev position) := by
  intro pl
  refine loadLibrary_at (fun l wrap image _ => ?_) (fun _ _ _ _ _ _ _ => surroundings_onDevice)
    fun _ _ _ _ _ _ => rfl
  refine along_link_bind (fun pl l _ => Along.bind_at (R := Fixed surroundings) (x := modify _)
    (Prod.ext settings_setLink host_setLink) fun _ => ?_) pl
  split
  · exact Along.pure
  · exact Along.throw

theorem surroundings_runConstructor {hostAddr : Nat} :
    Along (Fixed surroundings) (runConstructor dev hostAddr) := by
  refine along_runConstructor_nil (fun _ _ => rfl) fun pl l entry _ => ?_
  have launched : Step Link.Moved Eq (CallState.region { platform := pl } l)
      (exec (Region.run pl.settings entry .single) (CallState.region { platform := pl } l)).2 :=
    Region.step_run_nil Region.launches_moved rfl rfl
  exact Prod.ext settings_setLink launched.host.symm

theorem surroundings_ready (id : Int) : Along (Fixed surroundings) (ready id) := by
  refine (along_deviceIndex id).bind fun dev => Along.bind ?_ fun _ => Along.pure
  apply along_checkReady
  · exact surroundings_onDevice
  · exact fun _ => surroundings_loadLibrary
  · exact fun _ _ => rfl
  · exact fun _ => surroundings_runConstructor
  · exact surroundings_onDevice

/-- A call of one phase changes host memory in its region only. -/
theorem host_phase {α β : Type} (id : Int) {x : Settings → RegionM α} {f : α → CallM β} (s : CallState)
    (hf : ∀ a, Along (Fixed fun s : CallState => s.platform.host) (f a)) :
    let after := (exec (onPlatform (ready id) >>= fun d => inRegion d x >>= f) s).2.platform.host
    after = s.platform.host ∨
      ∃ dev r, s.platform.start? dev id s.arguments = some r ∧ r.host = s.platform.host ∧
        r.arguments = s.arguments ∧ after = (exec (x s.platform.settings) r).2.host := by
  have kept : Fixed surroundings s.platform (exec (ready id) s.platform).2 := surroundings_ready id _
  rw [exec_bind, lifts_onPlatform]
  rcases hr : exec (ready id) s.platform with ⟨e | dev, pl⟩
  · rw [hr] at kept
    exact .inl (Prod.mk.inj kept).2
  · rw [hr] at kept
    obtain ⟨settings, host⟩ := Prod.mk.inj kept
    dsimp only at settings host
    cases hl : pl.link? dev with
    | none =>
        refine .inl ?_
        show (exec (inRegion dev x >>= f) { s with platform := pl }).2.platform.host = _
        rw [exec_bind_error (exec_inRegion_none hl)]
        exact host
    | some l =>
        refine .inr ⟨dev, _, start?_of_ready hr hl, host, rfl, ?_⟩
        show (exec (inRegion dev x >>= f) { s with platform := pl }).2.platform.host = _
        have ran := exec_inRegion (x := x) (s := { s with platform := pl }) hl
        rw [exec_bind, ran, ← settings]
        split
        · rename_i same
          rw [← (Prod.mk.inj same).2]
          exact hf _ _
        · rename_i same
          rw [← (Prod.mk.inj same).2]
          rfl

theorem along_record_host {p : Phase} :
    Along (Fixed fun s : CallState => s.platform.host) (onPlatform (record p)) :=
  along_record_core.mono fun h => congrArg (fun core : _ × Settings × HostMemory => core.2.2) h

/-- The host bytes that a region of the argument list may give away: those of its section, if it is
mapped from the device, and those before it up to a multiple of the struct alignment, if members of it
follow. -/
def Exposed (settings : Settings) (l : ArgumentList) (index : Nat) (region : Argument) (addr : Nat) :
    Prop :=
  region.isMapped = true ∧ region.mapType.has .fromDevice = true ∧
    (region.start ≤ addr ∧ addr < region.start + region.size ∨
      (l.arguments[index]? = some region ∧ l.headsStruct index = true ∧
        region.start - region.start % settings.config.structAlignment ≤ addr ∧ addr < region.start))

theorem exposed_of_returned {settings : Settings} {l : ArgumentList} {index addr : Nat} {t : Turn}
    (listed : Region.Releases l index t) (returned : t.Returned settings addr) :
    Exposed settings l index t.region addr := by
  obtain ⟨a, regions, ha, found, mem, kind⟩ := listed
  obtain ⟨padded, kind', hm, back, inside⟩ := returned
  rw [kind, TurnKind.release.injEq] at kind'
  subst kind'
  refine ⟨hm, back, ?_⟩
  cases hp : Region.isPadded l index a with
  | false =>
      rw [hp] at inside
      exact .inl inside
  | true =>
      rw [hp] at inside
      rw [Region.isPadded, Bool.and_eq_true, Bool.not_eq_true'] at hp
      rw [ArgumentList.regions, Region.plans_of_get ha hp.1] at found
      cases found
      obtain rfl : t.region = a := List.mem_singleton.1 mem
      have below := Nat.mod_le t.region.start settings.config.structAlignment
      simp only [Region.mappedSection, if_true] at inside
      rcases Nat.lt_or_ge addr t.region.start with before | from_start
      · exact .inr ⟨ha, hp.2, inside.1, before⟩
      · exact .inl ⟨from_start, by omega⟩

/-- Mapping changes no host byte. Releasing changes only bytes of regions from the device that the list
names, of pointers that are remembered there, and of the padding before structs whose members follow. -/
theorem host_frame (id : Int) (s : CallState) :
    (exec (dataBegin id) s).2.platform.host = s.platform.host ∧
      ∀ addr, (exec (dataEnd id) s).2.platform.host.byte addr = s.platform.host.byte addr ∨
        ∃ dev r, s.platform.start? dev id s.arguments = some r ∧
          ∃ t ∈ Region.releases s.platform.settings r, ∃ index, Region.Releases s.arguments index t ∧
            r.activation.link.device.Touches
              (Exposed s.platform.settings s.arguments index t.region) addr := by
  constructor
  · rcases host_phase id s fun _ => along_record_host with same | ⟨dev, r, -, host, -, after⟩
    · exact same
    · exact after.trans ((Region.along_enter _ r).host.trans host)
  · intro addr
    rcases host_phase id s fun _ => along_record_host with same |
      ⟨dev, r, start, host, arguments, after⟩
    · exact .inl (congrArg (HostMemory.byte · addr) same)
    · have written := (Region.writes_leave s.platform.settings r).host addr
      rw [host] at written
      refine written.imp (congrArg (HostMemory.byte · addr) after).trans ?_
      rintro ⟨place, ⟨t, ht, returned⟩, touched⟩
      obtain ⟨index, listed⟩ := Region.releases_of_mem_releases ht
      rw [arguments] at listed
      exact ⟨dev, r, start, t, ht, index, listed, place, exposed_of_returned listed returned, touched⟩

/-- The bytes before a struct that does not begin at a multiple of the alignment are overwritten with
what the device holds. -/
example :
    let s : CallState :=
      { platform := { oneDevice with host := HostMemory.write {} 64 [1, 1, 1, 1] }
        arguments := { arguments := [⟨68, 68, 12, .ofFlags [.fromDevice]⟩,
          ⟨68, 68, 4, (MapType.ofFlags [.fromDevice]).withMemberOf 0⟩] } }
    s.platform.host.byte 64 = 1 ∧
      (exec (dataEnd 0) (exec (dataBegin 0) s).2).2.platform.host.byte 64 = 0 := by cbv

end Platform

end Offloading
