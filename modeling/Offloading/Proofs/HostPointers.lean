import Offloading.Proofs.HostMemory
import Offloading.Proofs.Resolution
import Offloading.Proofs.Turns
/-!
# Host pointers

The shadow of a patched pointer lets its host value be put back when its section is copied from the
device. Releasing a region keeps the shadow as long as the mapping of its slot stays, unless the
release *strays*: it erases the shadows in its section although the mapping of the slot stays.
-/

namespace Offloading

/-- What is remembered of a slot stays remembered. -/
def Device.Keeps (slot : Nat) (d d' : Device) : Prop :=
  ∀ s ∈ d.shadows, s.hostSlot = slot → s ∈ d'.shadows

theorem Device.keeps_of_eq {slot : Nat} {d d' : Device} (h : d'.shadows = d.shadows) :
    d.Keeps slot d' := fun _ hs _ => h.symm ▸ hs

/-- A slot that is mapped afterwards was mapped before, and what was remembered of it still is. -/
def Link.Retains (slot : Nat) (l l' : Link) : Prop :=
  l.Sound → l'.Sound ∧ (l'.device.mappings.Covers slot →
    l.device.mappings.Covers slot ∧ l.device.Keeps slot l'.device)

instance {slot : Nat} : Lasting (Link.Retains slot) where
  refl _ hl := ⟨hl, fun covered => ⟨covered, Device.keeps_of_eq rfl⟩⟩
  trans h h' hl := by
    obtain ⟨hl', before⟩ := h hl
    obtain ⟨hl'', before'⟩ := h' hl'
    refine ⟨hl'', fun covered => ?_⟩
    obtain ⟨covered', kept'⟩ := before' covered
    obtain ⟨covered'', kept⟩ := before covered'
    exact ⟨covered'', fun s hs here => kept' s (kept s hs here) here⟩

namespace Device

open DeviceM

variable {l l' : Link} {first size slot : Nat} {updateRef force : Bool} {m : Mapping}

theorem retains_of_transferred (h : l.Transferred l') : l.Retains slot l' := by
  intro hl
  obtain ⟨sound, -⟩ := h.orderly hl
  rw [h.still.mappings]
  exact ⟨sound, fun covered => ⟨covered, keeps_of_eq h.extended.shadows⟩⟩

theorem retains_setCount {c : ReferenceCount} (hm : m ∈ l.device.mappings)
    (hc : l.Sound → 0 < c.value) :
    l.Retains slot (l.withMappings (l.device.mappings.setCount m c)) := by
  intro hl
  obtain ⟨sound, -⟩ := orderly_setCount hm hc hl
  exact ⟨sound, fun covered => ⟨(MappingTable.extends_setCount hm c).covers covered, keeps_of_eq rfl⟩⟩

theorem along_hold_retains : Along (Link.Retains slot) (hold first size updateRef) := 
  along_hold_of retains_setCount

/-- Without a mapping, its section is not mapped any more. -/
theorem not_covers_without (hl : l.Sound) (hm : m ∈ l.device.mappings)
    (inside : m.contains slot = true) (bound : slot < Word.greatest) :
    ¬ (l.device.without m).mappings.Covers slot := by
  rintro ⟨n, hn, inside'⟩
  obtain ⟨hn, other⟩ := (MappingTable.mem_remove hm).1 hn
  have : n = m := hl.mappings.unique hn hm inside' inside bound
  exact other (congrArg _ this)

/-- Removing a mapping forgets the pointers in its section only. -/
theorem retains_removeMapping (hm : m ∈ l.device.mappings) (bound : slot < Word.greatest) :
    l.Retains slot (exec (removeMapping m) l).2 := by
  have removed : l.Retains slot { l with device := l.device.without m } := by
    intro hl
    refine ⟨⟨hl.mappings.remove hm, hl.accelerator⟩, fun covered => ?_⟩
    have outside : ¬ (m.hostBegin ≤ slot ∧ slot < m.hostEnd) := by
      intro inside
      exact not_covers_without hl hm (Mapping.contains_iff.2 inside) bound covered
    obtain ⟨n, hn, inside⟩ := covered
    refine ⟨⟨n, ((MappingTable.mem_remove hm).1 hn).1, inside⟩, ?_⟩
    rintro s hs rfl
    exact AddressMap.mem_eraseRange.2 ⟨hs, outside⟩
  refine Along.bind_at (x := modifyDevice _) removed fun _ => ?_
  refine along_free.mono fun {k k'} h hk => ?_
  obtain ⟨sound, -⟩ := h.extended.orderly hk
  obtain ⟨_, _, device⟩ := h.device
  refine ⟨sound, fun covered => ?_⟩
  rw [device] at covered
  exact ⟨covered, keeps_of_eq h.extended.shadows⟩

theorem along_unmap_retains (bound : slot < Word.greatest) :
    Along (Link.Retains slot) (unmap first size force) := 
  along_unmap_of retains_setCount fun hm => retains_removeMapping hm bound

/-- Looking at shadows keeps those that are not in the section, and all if it does not erase. -/
theorem along_visitShadows_retains {lower upper : Nat} {erase : Bool}
    (spared : erase = true → ¬ (lower ≤ slot ∧ slot < upper)) :
    Along (Link.Retains slot) (visitShadows lower upper erase) := by
  refine along_device_bind fun l => Along.bind_at (x := modifyDevice _) ?_ fun _ => Along.pure
  refine fun hl => ⟨⟨hl.mappings, hl.accelerator⟩, fun covered => ⟨covered, ?_⟩⟩
  rintro s hs rfl
  exact ShadowTable.mem_visit.2 ⟨hs, fun ⟨erased, inside⟩ => spared erased inside⟩

/-- The last reference, or all of them, are given back to a mapping that regions hold: nothing in its
section is mapped any more. -/
theorem not_covers_unmap (hl : l.Sound)
    (hm : (l.device.mappings.lookup first size).mapping? = some m)
    (finite : m.refCount.isInfinite = false) (last : force = true ∨ m.refCount.isLast = true)
    (inside : m.contains slot = true) (bound : slot < Word.greatest) :
    ¬ (exec (unmap first size force) l).2.device.mappings.Covers slot := by
  have gone : ¬ 0 < (if force then ReferenceCount.one else m.refCount).decrement.value := by
    have one : ¬ 0 < ReferenceCount.one.decrement.value := by decide
    cases force with
    | true => exact one
    | false =>
        obtain ⟨-, none⟩ := ReferenceCount.isLast_iff.1 (last.resolve_left Bool.false_ne_true)
        rw [if_neg Bool.false_ne_true, none]
        exact Nat.lt_irrefl 0
  have ran : exec (unmap first size force) l = exec (removeMapping m) l := by
    rw [unmap, exec_device_bind, hm]
    dsimp only
    rw [finite, if_neg Bool.false_ne_true, if_neg gone]
  have freed : Link.Moved { l with device := l.device.without m }
      (exec (free m.deviceBegin) { l with device := l.device.without m }).2 := along_free _
  obtain ⟨_, _, device⟩ := freed.device
  rw [ran, exec_removeMapping, device]
  exact not_covers_without hl (MappingTable.mem_of_lookup hm) inside bound

end Device

/-! ## Putting pointers back -/

/-- The device when the shadows in a range are forgotten. -/
def Link.forgetting (l : Link) (lower upper : Nat) : Link :=
  { l with device := { l.device with shadows := l.device.shadows.eraseRange lower upper } }

namespace HostMemory

variable {m : HostMemory} {addr size slot : Nat} {bs : List UInt8} {s : ShadowPointer}
  {shadows : List ShadowPointer}

/-- The memory after the host values of pointers were put back. -/
def restored (m : HostMemory) (shadows : List ShadowPointer) : HostMemory :=
  shadows.foldl (fun m s => m.write s.hostSlot (Word.toBytes s.hostValue)) m

theorem restored_singleton : m.restored [s] = m.write s.hostSlot (Word.toBytes s.hostValue) := rfl

theorem read_write_self : (m.write addr bs).read addr bs.length = bs := by
  apply List.ext_getElem?
  intro i
  by_cases h : i < bs.length
  · rw [getElem?_read h, byte_write_inside h]
  · rw [List.getElem?_eq_none (by rw [length_read]; omega), List.getElem?_eq_none (by omega)]

theorem read_write_apart (h : addr + size ≤ slot ∨ slot + bs.length ≤ addr) :
    (m.write slot bs).read addr size = m.read addr size := by
  apply List.ext_getElem?
  intro i
  by_cases hi : i < size
  · rw [getElem?_read hi, getElem?_read hi, byte_write_outside (by omega)]
  · rw [List.getElem?_eq_none (by rw [length_read]; omega),
      List.getElem?_eq_none (by rw [length_read]; omega)]

theorem read_add (m : HostMemory) (addr size more : Nat) :
    m.read addr (size + more) = m.read addr size ++ m.read (addr + size) more := by
  rw [read, read, read, ← List.map_append, ← List.range'_append_1]

/-- Bytes that are overwritten in front leave those behind. -/
theorem read_write_front (m : HostMemory) (addr more : Nat) :
    (m.write addr bs).read addr (bs.length + more) = bs ++ m.read (addr + bs.length) more := by
  rw [read_add, read_write_self, read_write_apart (.inr (Nat.le_refl _))]

theorem read_restored_apart
    (apart : ∀ s ∈ shadows, addr + size ≤ s.hostSlot ∨ s.hostSlot + Word.bytes ≤ addr) :
    (m.restored shadows).read addr size = m.read addr size := by
  induction shadows generalizing m with
  | nil => rfl
  | cons s rest ih =>
      obtain ⟨here, others⟩ := List.forall_mem_cons.1 apart
      change ((m.write s.hostSlot (Word.toBytes s.hostValue)).restored rest).read addr size = _
      rw [ih others, read_write_apart]
      rwa [Word.length_toBytes]

/-- A pointer that is put back holds its host value, if no other one is too close. -/
theorem read_restored (hs : s ∈ shadows)
    (alone : ∀ x ∈ shadows, x ≠ s →
      s.hostSlot + Word.bytes ≤ x.hostSlot ∨ x.hostSlot + Word.bytes ≤ s.hostSlot) :
    (m.restored shadows).read s.hostSlot Word.bytes = Word.toBytes s.hostValue := by
  induction shadows generalizing m with
  | nil => cases hs
  | cons x rest ih =>
      obtain ⟨-, others⟩ := List.forall_mem_cons.1 alone
      by_cases again : s ∈ rest
      · exact ih again others
      · obtain rfl : s = x := (List.mem_cons.1 hs).resolve_right again
        change ((m.write s.hostSlot (Word.toBytes s.hostValue)).restored rest).read _ _ = _
        rw [read_restored_apart fun x hx => others x hx fun same => again (same ▸ hx)]
        exact read_write_self

/-- Pointers are put back as another memory has them: their bytes are those of that memory, and no other
byte changes. -/
theorem byte_restored_of_origin {m : HostMemory} (orig : HostMemory) {shadows : List ShadowPointer}
    (origin : ∀ x ∈ shadows, x.hostValue = orig.readPointer x.hostSlot) (addr : Nat) :
    (∃ x ∈ shadows, x.hostSlot ≤ addr ∧ addr < x.hostSlot + Word.bytes) ∧
        (m.restored shadows).byte addr = orig.byte addr ∨
      (∀ x ∈ shadows, ¬ (x.hostSlot ≤ addr ∧ addr < x.hostSlot + Word.bytes)) ∧
        (m.restored shadows).byte addr = m.byte addr := by
  induction shadows generalizing m with
  | nil => exact .inr ⟨List.forall_mem_nil _, rfl⟩
  | cons x rest ih =>
      obtain ⟨here, others⟩ := List.forall_mem_cons.1 origin
      rcases ih (m := m.write x.hostSlot (Word.toBytes x.hostValue)) others with
        ⟨⟨y, hy, inside⟩, same⟩ | ⟨outside, same⟩
      · exact .inl ⟨⟨y, List.mem_cons_of_mem _ hy, inside⟩, same⟩
      · rw [here, byte_write_readPointer] at same
        by_cases inside : x.hostSlot ≤ addr ∧ addr < x.hostSlot + Word.bytes
        · rw [if_pos inside] at same
          refine .inl ⟨⟨x, List.mem_cons_self, inside⟩, ?_⟩
          rw [← same, ← here]
          rfl
        · rw [if_neg inside] at same
          refine .inr ⟨List.forall_mem_cons.2 ⟨inside, outside⟩, ?_⟩
          rw [← same, ← here]
          rfl

end HostMemory

namespace Region

open RegionM

variable {settings : Settings} {padded : Bool} {region : Argument} {s s' : RegionState}
  {first size slot : Nat} {copied removed : Bool}

theorem exec_restorePointers (shadows : List ShadowPointer) (s : RegionState) :
    exec (restorePointers shadows) s = (.ok ⟨⟩, { s with host := s.host.restored shadows }) := by
  induction shadows generalizing s with
  | nil => rfl
  | cons x rest ih => exact ih _

/-- Restoring shadows always succeeds: it forgets them if their section is `removed`, and it puts them back if
the section was `copied`. -/
theorem exec_restoreShadows (settings : Settings) (first size : Nat) (copied removed : Bool)
    (s : RegionState) : exec (restoreShadows settings first size copied removed) s =
      (.ok (), { s.withLink (if removed && !settings.config.translatesOnDevice then
          s.activation.link.forgetting first (first + size) else s.activation.link) with
        host := if copied && !settings.config.translatesOnDevice then
          s.host.restored (s.activation.link.device.shadows.range first (first + size)) else s.host }) := by
  rw [restoreShadows]
  cases translates : settings.config.translatesOnDevice with
  | true =>
      rw [Bool.not_true, Bool.and_false, Bool.and_false, Bool.and_false]
      rfl
  | false =>
      rw [Bool.not_false, Bool.and_true, Bool.and_true, Bool.and_true]
      have visited : Returns (onDevice (Device.visitShadows first (first + size) removed)) s
          (s.activation.link.device.shadows.range first (first + size))
          (s.withLink (if removed then s.activation.link.forgetting first (first + size)
            else s.activation.link)) := by
        cases removed with
        | false => rfl
        | true => rfl
      cases copied with
      | true => exact (exec_bind_ok visited).trans (exec_restorePointers _ _)
      | false =>
          cases removed with
          | false => rfl
          | true => exact exec_bind_ok visited

theorem returns_restoreShadows (settings : Settings) (first size : Nat) (copied removed : Bool)
    (s : RegionState) : ∃ s', Returns (restoreShadows settings first size copied removed) s () s' ∧
      (copied = true → settings.config.translatesOnDevice = false →
        s'.host = s.host.restored
          (s.activation.link.device.shadows.range first (first + size))) := by
  refine ⟨_, exec_restoreShadows settings first size copied removed s, ?_⟩
  rintro rfl direct
  rw [direct]
  rfl

/-! ## Releases that keep pointers -/

/-- Releasing the region erases the shadows in its section, and the slot is one of them, although the
mapping that the section meets is never removed or does not hold the slot. -/
def Strays (settings : Settings) (padded : Bool) (region : Argument) (s : RegionState) (slot : Nat) :
    Prop :=
  region.isMapped = true ∧ isPlainMember region = false ∧
    ∃ first size m, mappedSection settings padded region = (first, size) ∧
      (s.activation.link.device.mappings.lookup first size).mapping? = some m ∧
      (m.refCount.isLast = true ∨ region.mapType.has .delete = true) ∧
      (first ≤ slot ∧ slot < first + size) ∧
      (m.refCount.isInfinite = true ∨ m.contains slot = false)

/-- A release that does not stray and erases the shadow of a slot removes the mapping of the slot. -/
private theorem released_of_straight {l : Link} {held : HeldSection} (hm : region.isMapped = true)
    (straight : ¬ Strays settings padded region s slot)
    (sec : mappedSection settings padded region = (first, size))
    (holding : Returns (Device.hold first size (!isPlainMember region)) s.activation.link (some held) l)
    (removed : isRemoved region held = true) (inside : first ≤ slot ∧ slot < first + size) :
    ∃ m, (l.device.mappings.lookup first size).mapping? = some m ∧ m.refCount.isInfinite = false ∧
      (region.mapType.has .delete = true ∨ m.refCount.isLast = true) ∧ m.contains slot = true := by
  rcases Device.returns_hold holding with ⟨-, none, -⟩ | ⟨m, found, view, rfl⟩
  · cases none
  · cases view
    rw [isRemoved, Bool.and_eq_true, Bool.or_eq_true, Bool.not_eq_true'] at removed
    obtain ⟨last, plain⟩ := removed
    have stays : m.refCount.isInfinite = false ∧ m.contains slot = true := by
      refine Classical.byContradiction fun h => straight
        ⟨hm, plain, first, size, m, sec, found, last, inside, ?_⟩
      cases hi : m.refCount.isInfinite with
      | true => exact .inl rfl
      | false => exact .inr (Bool.eq_false_iff.2 fun hc => h ⟨hi, hc⟩)
    cases only : m.refCount.isLast with
    | true =>
        rw [plain]
        exact ⟨m, found, stays.1, .inr only, stays.2⟩
    | false =>
        rw [plain]
        refine ⟨_, MappingTable.lookup_setCount found, ?_, .inl (last.resolve_left ?_), stays.2⟩
        · exact ReferenceCount.isInfinite_decrement stays.1
        · rw [only]
          exact Bool.false_ne_true

theorem retains_releaseSection (bound : slot < Word.greatest) (hm : region.isMapped = true)
    (straight : ¬ Strays settings padded region s slot) :
    Step (Link.Retains slot) Anything s (exec (releaseSection settings padded region) s).2 := by
  rcases hsec : mappedSection settings padded region with ⟨first, size⟩
  rw [releaseSection, hsec]
  refine Along.bind_returns (R := Step (Link.Retains slot) Anything)
    (along_onDevice Device.along_hold_retains s) fun held? s₁ h₁ => ?_
  obtain ⟨l, holding, rfl⟩ := lifts_onDevice.returns.1 h₁
  cases held? with
  | none => exact Along.ite Along.pure along_unmapped _
  | some held =>
      refine Along.bind_returns (R := Step (Link.Retains slot) Anything)
        ((along_copyBack.mono (Step.mono Device.retains_of_transferred)) _) fun copied s₂ h₂ => ?_
      change Step _ _ s₂ (exec (restoreShadows settings first size copied (isRemoved region held) >>=
        fun _ => if isRemoved region held then
          onDevice (Device.unmap first size (region.mapType.has .delete)) else pure ()) s₂).2
      by_cases erased : isRemoved region held = true ∧ first ≤ slot ∧ slot < first + size
      · obtain ⟨removed, inside⟩ := erased
        rw [removed]
        -- the mapping goes away with the shadows in its section, and the slot was in it
        have orderly : Step Link.Orderly Anything s₂
            (exec (restoreShadows settings first size copied true >>= fun _ =>
              onDevice (Device.unmap first size (region.mapType.has .delete))) s₂).2 :=
          ((along_restoreShadows Device.along_visitShadows).bind fun _ =>
            along_onDevice Device.along_unmap) s₂
        refine ⟨fun sound => ⟨(orderly.link sound).1, fun covered => absurd covered ?_⟩, trivial,
          orderly.arguments, orderly.queue⟩
        obtain ⟨s₃, restored, -⟩ := returns_restoreShadows settings first size copied true s₂
        rw [exec_bind_ok restored, if_pos rfl, lifts_onDevice s₃]
        have still := ((along_restoreShadows Device.along_visitShadows_still).returns restored).link
        have same := still.mappings.trans (along_copyBack.returns h₂).link.still.mappings
        obtain ⟨m, found, finite, last, held⟩ := released_of_straight hm straight hsec holding removed
          inside
        rw [← same] at found
        exact Device.not_covers_unmap
          (((along_restoreShadows Device.along_visitShadows).returns restored).link sound).1
          found finite last held bound
      · refine Along.bind_at (R := Step (Link.Retains slot) Anything) ?_ fun _ => ?_
        · refine along_restoreShadows (Device.along_visitShadows_retains fun removed inside => ?_) s₂
          exact erased ⟨removed, inside⟩
        · exact Along.ite (along_onDevice (Device.along_unmap_retains bound)) Along.pure

theorem along_releasePointer_retains {pointer : Nat} (bound : slot < Word.greatest) :
    Along (Step (Link.Retains slot) Anything) (releasePointer pointer) := by
  refine (along_onDevice Device.along_hold_retains).bind fun held => ?_
  split
  · exact along_unmapped
  · exact Along.ite (along_onDevice (Device.along_unmap_retains bound)) Along.pure

theorem retains_unmapRegion (bound : slot < Word.greatest)
    (straight : ¬ Strays settings padded region s slot) :
    Step (Link.Retains slot) Anything s (exec (unmapRegion settings padded region) s).2 := by
  rw [unmapRegion]
  cases hm : region.isMapped with
  | false => exact Lasting.refl s
  | true =>
      rw [Bool.not_true, if_neg Bool.false_ne_true]
      refine Along.bind_at (R := Step (Link.Retains slot) Anything) ?_ fun _ => ?_
      · exact retains_releaseSection bound hm straight
      · exact Along.ite (along_releasePointer_retains bound) Along.pure

end Region

namespace Turn

open RegionM Region

variable {settings : Settings} {t : Turn} {first size slot : Nat} {s : ShadowPointer}

/-- The device at a turn, before it. -/
abbrev link (t : Turn) : Link := t.before.activation.link

/-- The turn erases the shadow of a slot although the mapping of the slot stays. -/
def Strays (settings : Settings) (slot : Nat) (t : Turn) : Prop :=
  match t.kind with
  | .release padded => Region.Strays settings padded t.region t.before slot
  | .refresh => False

/-- The turn copies the section of `size` bytes at `first` from the device. -/
def CopiesBack (settings : Settings) (first size : Nat) (t : Turn) : Prop :=
  t.region.isMapped = true ∧
    match t.kind with
    | .release padded =>
      mappedSection settings padded t.region = (first, size) ∧
        ∃ held l s, Returns (Device.hold first size (!isPlainMember t.region)) t.link (some held) l ∧
          Returns (copyBack t.region first size held.addr (isRemoved t.region held))
            (t.before.withLink l) true s
    | .refresh =>
      (t.region.start, t.region.size) = (first, size) ∧ t.region.mapType.has .fromDevice = true ∧
        ∃ target content l, t.link.device.translate? first size = some target ∧
          Returns (Device.retrieve target size) t.link content l

theorem retains (ran : Ran settings t) (bound : slot < Word.greatest)
    (straight : ¬ t.Strays settings slot) : t.link.Retains slot t.after.activation.link := by
  rw [Ran] at ran
  rw [Strays] at straight
  split at ran
  · rename_i padded kind
    rw [kind] at straight
    rw [ran]
    exact (retains_unmapRegion bound straight).link
  · rw [ran]
    exact Device.retains_of_transferred (along_refreshRegion t.before).link

/-- Releasing the rest of a region does not touch host memory. -/
private theorem host_rest {region : Argument} {removed : Bool} :
    Along (Fixed RegionState.host)
      ((if removed then onDevice (Device.unmap first size (region.mapType.has .delete)) else pure ())
        >>= fun _ => if region.mapType.has .pointerAndObject && !region.mapType.isMember then
          releasePointer region.base else pure ()) := by
  have onDevice : ∀ {α : Type} {x : DeviceM α}, Along (Fixed RegionState.host) (onDevice x) :=
    fun {α x} => lifts_onDevice.along (R := Anything) (fun _ => trivial) fun _ _ _ => rfl
  have pointer : Along (Fixed RegionState.host) (releasePointer region.base) := by
    refine onDevice.bind fun held => ?_
    split
    · exact Along.get.bind fun _ => Along.throw
    · exact Along.ite onDevice Along.pure
  exact (Along.ite onDevice Along.pure).bind fun _ => Along.ite pointer Along.pure

/-- Refreshing the device does not touch host memory. -/
private theorem host_resubmit {target : Nat} {s : RegionState} {refreshed : Bool} :
    (exec (if refreshed then do
        onDevice (Device.submit target (← readHost first size))
        let _ ← onDevice (Device.resubmitShadows first (first + size))
        return true
      else pure true : RegionM Bool) s).2.host = s.host := by
  have onDevice : ∀ {α : Type} {x : DeviceM α}, Along (Fixed RegionState.host) (onDevice x) :=
    fun {α x} => lifts_onDevice.along (R := Anything) (fun _ => trivial) fun _ _ _ => rfl
  refine Along.ite (R := Fixed RegionState.host) ?_ Along.pure s
  exact Along.get.bind fun _ => onDevice.bind fun _ => onDevice.bind fun _ => Along.pure

/-- A pointer that is remembered has its host value in its slot again when a section around it has been
copied from the device, provided that no other remembered pointer is too close. -/
theorem host_after (ran : Ran settings t) (direct : settings.config.translatesOnDevice = false)
    (copies : t.CopiesBack settings first size) (hs : s ∈ t.link.device.shadows)
    (inside : first ≤ s.hostSlot ∧ s.hostSlot + Word.bytes ≤ first + size)
    (alone : ∀ x ∈ t.link.device.shadows, x ≠ s →
      s.hostSlot + Word.bytes ≤ x.hostSlot ∨ x.hostSlot + Word.bytes ≤ s.hostSlot) :
    t.after.host.read s.hostSlot Word.bytes = Word.toBytes s.hostValue := by
  have put : ∀ {m : HostMemory}, (m.restored (t.link.device.shadows.range first (first + size))).read
      s.hostSlot Word.bytes = Word.toBytes s.hostValue := by
    intro m
    refine HostMemory.read_restored (AddressMap.mem_range.2 ⟨hs, ?_⟩) fun x hx => ?_
    · change first ≤ s.hostSlot ∧ s.hostSlot < first + size
      rw [Word.bytes] at inside
      omega
    · exact alone x (AddressMap.mem_range.1 hx).1
  obtain ⟨hm, copies⟩ := copies
  rw [Ran] at ran
  split at ran
  · rename_i padded kind
    rw [kind] at copies
    obtain ⟨sec, held, l, s₁, holding, copied⟩ := copies
    obtain ⟨s₂, restored, host⟩ := returns_restoreShadows settings first size true
      (isRemoved t.region held) s₁
    have released : exec (releaseSection settings padded t.region) t.before =
        exec (if isRemoved t.region held then
          onDevice (Device.unmap first size (t.region.mapType.has .delete)) else pure ()) s₂ := by
      rw [releaseSection, sec]
      refine (exec_bind_ok (lifts_onDevice.returns.2 ⟨l, holding, rfl⟩)).trans ?_
      exact (exec_bind_ok copied).trans (exec_bind_ok restored)
    have after : t.after.host = s₂.host := by
      rw [ran, unmapRegion, hm, Bool.not_true, if_neg Bool.false_ne_true, exec_bind, released,
        ← exec_bind]
      exact host_rest s₂
    -- holding and copying back leave the shadows alone
    have shadows : s₁.activation.link.device.shadows = t.link.device.shadows := by
      rw [(along_copyBack.returns copied).link.extended.shadows]
      rcases Device.returns_hold holding with ⟨-, none, -⟩ | ⟨m, -, -, rfl⟩
      · cases none
      · split
        · rfl
        · rfl
    rw [after, host rfl direct, shadows]
    exact put
  · rename_i kind
    rw [kind] at copies
    obtain ⟨sec, outbound, target, content, l, found, retrieved⟩ := copies
    obtain ⟨rfl, rfl⟩ := Prod.mk.inj sec
    rw [ran, refreshRegion, hm, Bool.not_true, if_neg Bool.false_ne_true]
    dsimp only
    rw [exec_device_bind, found]
    dsimp only
    rw [if_pos outbound, exec_bind_ok (lifts_onDevice.returns.2 ⟨l, retrieved, rfl⟩)]
    have wrote : ∀ r, Returns (writeHost t.region.start content) r ()
        { r with host := r.host.write t.region.start content } := fun _ => rfl
    have visited : ∀ r, ∃ r', Returns (onDevice (Device.visitShadows t.region.start
        (t.region.start + t.region.size) false)) r (r.activation.link.device.shadows.range
          t.region.start (t.region.start + t.region.size)) r' := fun _ => ⟨_, rfl⟩
    rw [exec_bind_ok (wrote _)]
    obtain ⟨r, hr⟩ := visited _
    rw [exec_bind_ok hr, exec_bind_ok (exec_restorePointers _ r), host_resubmit]
    have shadows : l.device.shadows = t.link.device.shadows :=
      (Device.along_retrieve.returns retrieved).extended.shadows
    exact shadows ▸ put

end Turn

end Offloading
