import Offloading.Device.Mapping
import Offloading.Proofs.Link
import Offloading.Proofs.MappingTable
import Offloading.Proofs.ShadowHistory
/-!
# The life of a mapping

Each operation on the mappings of a device, by cases of what it did, and what all of them keep: the
table stays well-formed, and the host slot of every patched pointer stays mapped. Disassociating is
the exception to the second.
-/

namespace Offloading

namespace MappingTable

variable {t u : MappingTable} {addr : Nat}

/-- Whether some mapping of the table contains a host address. -/
def Covers (t : MappingTable) (addr : Nat) : Prop := ∃ m ∈ t, m.contains addr = true

theorem Extends.covers (h : t.Extends u) (hc : t.Covers addr) : u.Covers addr := by
  obtain ⟨m, hm, ha⟩ := hc
  obtain ⟨n, hn, same⟩ := h m hm
  exact ⟨n, hn, by rw [same.contains, ha]⟩

end MappingTable

/-- The slots of all patched pointers are mapped. -/
def Device.Tidy (d : Device) : Prop := ∀ s ∈ d.shadows, d.mappings.Covers s.hostSlot

/-- The host value of the pointer at a slot is known. -/
def Device.Remembers (d : Device) (slot : Nat) : Prop := ∃ s ∈ d.shadows, s.hostSlot = slot

theorem Device.Remembers.of_eq {d d' : Device} {slot : Nat} (h : d.Remembers slot)
    (same : d'.shadows = d.shadows) : d'.Remembers slot := by
  rw [Remembers, same]
  exact h

namespace Link

variable {l l' l'' : Link}

/-- The link with another mapping table. -/
def withMappings (l : Link) (t : MappingTable) : Link :=
  { l with device := { l.device with mappings := t } }

/-- The table and all memories are well-formed. -/
structure Sound (l : Link) : Prop where
  mappings : l.device.mappings.WellFormed
  accelerator : l.accelerator.WellFormed

/-- The slots of all patched pointers are mapped. -/
def Tidy (l : Link) : Prop := l.device.Tidy

/-- The table may have grown and memory may have changed. -/
structure Grown (l l' : Link) : Prop where
  unit : l'.device.unit = l.device.unit
  pending : l'.device.pending = l.device.pending
  mappings : l.device.mappings.Grows l'.device.mappings
  wellFormed : l.accelerator.WellFormed → l'.accelerator.WellFormed

/-- The same, while no pointer was patched. -/
structure Extended (l l' : Link) : Prop extends l.Grown l' where
  shadows : l'.device.shadows = l.device.shadows

/-- The device may have been prepared. -/
structure Prepared (l l' : Link) : Prop where
  device : ∃ prepared, l'.device = { l.device with prepared }
  memories : l.accelerator.SameMemories l'.accelerator

instance : Lasting Prepared where
  refl _ := ⟨⟨_, rfl⟩, rfl⟩
  trans h h' := by
    obtain ⟨_, device⟩ := h.device
    obtain ⟨prepared, device'⟩ := h'.device
    exact ⟨⟨prepared, by rw [device', device]⟩, h'.memories.trans h.memories⟩

instance : Lasting Grown where
  refl _ := ⟨rfl, rfl, Lasting.refl _, id⟩
  trans h h' := ⟨h'.unit.trans h.unit, h'.pending.trans h.pending,
    Lasting.trans h.mappings h'.mappings, fun hl => h'.wellFormed (h.wellFormed hl)⟩

instance : Lasting Extended where
  refl _ := ⟨Lasting.refl _, rfl⟩
  trans h h' := ⟨Lasting.trans h.toGrown h'.toGrown, h'.shadows.trans h.shadows⟩

/-- A sound link stays sound, and then a tidy one stays tidy. -/
def Orderly (l l' : Link) : Prop := l.Sound → l'.Sound ∧ (l.Tidy → l'.Tidy)

instance : Lasting Orderly where
  refl _ hl := ⟨hl, id⟩
  trans h h' hl := by
    obtain ⟨hl', tidy⟩ := h hl
    obtain ⟨hl'', tidy'⟩ := h' hl'
    exact ⟨hl'', fun ht => tidy' (tidy ht)⟩

theorem Orderly.sound (h : l.Orderly l') : Kept Sound l l' := fun hl => (h hl).1

theorem Moved.extended (h : l.Moved l') : l.Extended l' := by
  obtain ⟨_, _, device⟩ := h.device
  refine ⟨⟨?_, ?_, ?_, h.wellFormed⟩, ?_⟩
  · rw [device]
  · rw [device]
  · rw [device]
    exact Lasting.refl _
  · rw [device]

theorem Still.sound (h : l.Still l') (hl : l.Sound) : l'.Sound :=
  ⟨h.mappings ▸ hl.mappings, h.wellFormed hl.accelerator⟩

theorem Prepared.still (h : l.Prepared l') : l.Still l' := by
  obtain ⟨_, device⟩ := h.device
  have rewritten := Accelerator.rewritten_of_memories h.memories
  exact ⟨by rw [device], by rw [device], by rw [device], by rw [device], rewritten.wellFormed,
    rewritten.layouts, rewritten.failedReleases⟩

theorem Prepared.shadows (h : l.Prepared l') : l'.device.shadows = l.device.shadows := by
  obtain ⟨_, device⟩ := h.device
  rw [device]

theorem Transferred.extended (h : l.Transferred l') : l.Extended l' := h.toMoved.extended

theorem Still.grown (h : l.Still l') : l.Grown l' :=
  ⟨h.unit, h.pending, h.mappings ▸ Lasting.refl _, h.wellFormed⟩

theorem Prepared.extended (h : l.Prepared l') : l.Extended l' := ⟨h.still.grown, h.shadows⟩

theorem Grown.sound (h : l.Grown l') (hl : l.Sound) : l'.Sound :=
  ⟨h.mappings.wellFormed hl.mappings, h.wellFormed hl.accelerator⟩

theorem Extended.orderly (h : l.Extended l') : l.Orderly l' := by
  intro hl
  refine ⟨h.toGrown.sound hl, fun ht s hs => ?_⟩
  rw [h.shadows] at hs
  exact (h.mappings.sections hl.mappings).covers (ht s hs)

theorem Transferred.orderly (h : l.Transferred l') : l.Orderly l' := h.extended.orderly

theorem extended_withMappings {t : MappingTable} (h : l.device.mappings.Grows t) :
    l.Extended (l.withMappings t) := ⟨⟨rfl, rfl, h, id⟩, rfl⟩

end Link

namespace Device

open DeviceM

variable {l l' : Link} {u : Unit} {first base size target : Nat} {implicit updateRef : Bool}

/-! ## Operations that succeed -/

theorem returns_insertMapping {m : Mapping} (h : Returns (insertMapping m) l u l') :
    (l.device.mappings.insert m).1 = .ok () ∧
      l' = l.withMappings (l.device.mappings.insert m).2 := by
  rw [insertMapping, returns_device_bind] at h
  dsimp only at h
  rw [returns_bind] at h
  obtain ⟨_, l₁, hm, h⟩ := h
  have := returns_modifyMappings.1 hm
  subst this
  split at h
  · rename_i inserted
    exact ⟨inserted, (returns_pure.1 h).2⟩
  · exact absurd h not_returns_throw

/-- A section is mapped by a mapping that it meets, nowhere if it is empty, or else by a new one. -/
theorem returns_map {r : Option MappedSection}
    (h : Returns (map first base size implicit updateRef) l r l') :
    (∃ m, (l.device.mappings.lookup first size).mapping? = some m ∧
      ((l.device.mappings.lookup first size).isPartial = false ∨ implicit = true) ∧
      r = some ⟨m.translate first, false⟩ ∧
      l' = l.withMappings (l.device.mappings.setCount m
        (if updateRef then m.refCount.increment else m.refCount)).recordReuse) ∨
    ((l.device.mappings.lookup first size).mapping? = none ∧ size = 0 ∧ r = none ∧ l' = l) ∨
    ((l.device.mappings.lookup first size).mapping? = none ∧ 0 < size ∧
      ∃ addr l₁, Returns (allocate size) l addr l₁ ∧ r = some ⟨addr, true⟩ ∧
        Returns (insertMapping ⟨base, first, first + size, addr, .one⟩) l₁ () l') := by
  rw [map, returns_device_bind] at h
  dsimp only at h
  cases hm : (l.device.mappings.lookup first size).mapping? with
  | some m =>
      rw [hm] at h
      dsimp only at h
      by_cases refused : ((l.device.mappings.lookup first size).isPartial && !implicit) = true
      · rw [if_pos refused, returns_bind] at h
        obtain ⟨_, _, -, h⟩ := h
        exact absurd h not_returns_throw
      · rw [if_neg refused, returns_bind] at h
        obtain ⟨_, l₁, ht, h⟩ := h
        obtain ⟨rfl, rfl⟩ := returns_pure.1 h
        refine .inl ⟨m, rfl, ?_, rfl, returns_modifyMappings.1 ht⟩
        cases hp : (l.device.mappings.lookup first size).isPartial with
        | false => exact .inl rfl
        | true =>
            refine .inr ?_
            simpa [hp] using refused
  | none =>
      rw [hm] at h
      dsimp only at h
      by_cases empty : size = 0
      · rw [if_pos empty] at h
        obtain ⟨rfl, rfl⟩ := returns_pure.1 h
        exact .inr (.inl ⟨rfl, empty, rfl, rfl⟩)
      · rw [if_neg empty, returns_bind] at h
        obtain ⟨addr, l₁, ha, h⟩ := h
        rw [returns_bind] at h
        obtain ⟨_, l₂, hi, h⟩ := h
        obtain ⟨rfl, rfl⟩ := returns_pure.1 h
        exact .inr (.inr ⟨rfl, by omega, addr, l₁, ha, rfl, hi⟩)

/-- The first byte of a section that was mapped explicitly lies in a mapping. -/
theorem covers_of_map {mapped : MappedSection}
    (h : Returns (map first base size false updateRef) l (some mapped) l') :
    l'.device.mappings.Covers first := by
  rcases returns_map h with ⟨m, hl, whole, -, rfl⟩ | ⟨-, -, none, -⟩ | ⟨-, hs, addr, l₁, -, -, hi⟩
  · rcases whole with whole | whole
    · obtain ⟨found, -⟩ := MappingTable.containing?_of_not_isPartial hl whole
      obtain ⟨held, inside⟩ := MappingTable.containing?_mem found
      exact (MappingTable.setCount_extends held _).covers ⟨m, held, inside⟩
    · cases whole
  · cases none
  · obtain ⟨inserted, rfl⟩ := returns_insertMapping hi
    rcases MappingTable.insert_cases l₁.device.mappings ⟨base, first, first + size, addr, .one⟩ with
      ⟨e, failed, -⟩ | ⟨-, -, -, entries⟩
    · rw [failed] at inserted
      cases inserted
    · refine ⟨⟨base, first, first + size, addr, .one⟩, ?_, ?_⟩
      · refine MappingTable.mem_entries.1 ?_
        change _ ∈ (l₁.device.mappings.insert _).2.entries
        rw [entries]
        exact AddressMap.mem_insert_self
      · refine Mapping.contains_iff.2 ⟨Nat.le_refl _, ?_⟩
        change first < first + size
        omega

theorem returns_hold {r : Option HeldSection} (h : Returns (hold first size updateRef) l r l') :
    ((l.device.mappings.lookup first size).mapping? = none ∧ r = none ∧ l' = l) ∨
    ∃ m, (l.device.mappings.lookup first size).mapping? = some m ∧
      r = some ⟨m.translate first, m.refCount.isLast⟩ ∧
      l' = if updateRef && !m.refCount.isLast then
          l.withMappings (l.device.mappings.setCount m m.refCount.decrement)
        else l := by
  rw [hold, returns_device_bind] at h
  cases hm : (l.device.mappings.lookup first size).mapping? with
  | none =>
      rw [hm] at h
      obtain ⟨rfl, rfl⟩ := returns_pure.1 h
      exact .inl ⟨rfl, rfl, rfl⟩
  | some m =>
      rw [hm] at h
      dsimp only at h
      by_cases more : (updateRef && !m.refCount.isLast) = true
      · rw [if_pos more, returns_bind] at h
        obtain ⟨_, l₁, ht, h⟩ := h
        obtain ⟨rfl, rfl⟩ := returns_pure.1 h
        exact .inr ⟨m, rfl, rfl, by rw [if_pos more]; exact returns_modifyMappings.1 ht⟩
      · rw [if_neg more] at h
        obtain ⟨rfl, rfl⟩ := returns_pure.1 h
        exact .inr ⟨m, rfl, rfl, by rw [if_neg more]⟩

/-- The device without a mapping and the shadows in its section. -/
def without (d : Device) (m : Mapping) : Device :=
  { d with
    mappings := (d.mappings.remove m.hostBegin).2
    shadows := d.shadows.eraseRange m.hostBegin m.hostEnd }

theorem exec_removeMapping {m : Mapping} :
    exec (removeMapping m) l = exec (free m.deviceBegin) { l with device := l.device.without m } :=
  rfl

theorem returns_removeMapping {m : Mapping} :
    Returns (removeMapping m) l u l' ↔
      Returns (free m.deviceBegin) { l with device := l.device.without m } u l' := Iff.rfl

theorem returns_unmap {force : Bool} (h : Returns (unmap first size force) l u l') :
    ∃ m, (l.device.mappings.lookup first size).mapping? = some m ∧
      ((m.refCount.isInfinite = true ∧ l' = l) ∨
        (m.refCount.isInfinite = false ∧
          ((∃ c, c = (if force then ReferenceCount.one else m.refCount).decrement ∧ 0 < c.value ∧
              l' = l.withMappings (l.device.mappings.setCount m c)) ∨
            ((if force then ReferenceCount.one else m.refCount).decrement.value = 0 ∧
              Returns (removeMapping m) l u l')))) := by
  rw [unmap, returns_device_bind] at h
  cases hm : (l.device.mappings.lookup first size).mapping? with
  | none =>
      rw [hm] at h
      exact absurd h not_returns_throw
  | some m =>
      rw [hm] at h
      dsimp only at h
      refine ⟨m, rfl, ?_⟩
      by_cases inf : m.refCount.isInfinite = true
      · rw [if_pos inf] at h
        exact .inl ⟨inf, (returns_pure.1 h).2⟩
      · rw [if_neg inf] at h
        refine .inr ⟨by simpa using inf, ?_⟩
        by_cases more : 0 < (if force then ReferenceCount.one else m.refCount).decrement.value
        · rw [if_pos more] at h
          exact .inl ⟨_, rfl, more, returns_modifyMappings.1 h⟩
        · rw [if_neg more] at h
          exact .inr ⟨by omega, h⟩

/-! ## What operations keep -/

theorem along_device_bind {β : Type} {R : Link → Link → Prop} {f : Device → DeviceM β}
    (h : ∀ l, R l (exec (f l.device) l).2) : Along R (device >>= f) := h

theorem along_insertMapping {m : Mapping} (hne : m.hostBegin ≤ m.hostEnd)
    (hc : 0 < m.refCount.value) : Along Link.Extended (insertMapping m) := by
  refine along_device_bind fun l => ?_
  have grown : l.Extended (l.withMappings (l.device.mappings.insert m).2) :=
    Link.extended_withMappings (MappingTable.grows_insert hne hc)
  refine Along.bind_at (x := modifyMappings _) grown fun _ => ?_
  split
  · exact Along.pure
  · exact Along.throw

theorem along_map : Along Link.Extended (map first base size implicit updateRef) := by
  refine along_device_bind fun l => ?_
  dsimp only
  cases hm : (l.device.mappings.lookup first size).mapping? with
  | some m =>
      have held := MappingTable.mem_of_lookup hm
      dsimp only
      split
      · refine Along.bind_at (x := modifyMappings _) ?_ fun _ => Along.throw
        exact Link.extended_withMappings (MappingTable.grows_of_entries rfl)
      · refine Along.bind_at (x := modifyMappings _) ?_ fun _ => Along.pure
        refine Link.extended_withMappings (Lasting.trans (MappingTable.grows_setCount held ?_)
          (MappingTable.grows_of_entries rfl))
        split
        · exact .inr rfl
        · exact .inl rfl
  | none =>
      refine Along.ite Along.pure (Along.bind ?_ fun addr => Along.bind ?_ fun _ => Along.pure) l
      · exact along_allocate.mono Link.Moved.extended
      · exact along_insertMapping (Nat.le_add_right first size) Nat.one_pos

theorem along_mapGlobal : Along Link.Extended (mapGlobal first target size) := by
  refine Along.get.bind fun _ => Along.ite Along.pure (Along.bind ?_ fun _ => Along.pure)
  exact along_insertMapping (Nat.le_add_right first size) (by change 0 < Word.signBit / 2 - 1; decide)

theorem along_associate : Along Link.Extended (associate first target size) := by
  refine along_device_bind fun l => ?_
  dsimp only
  split
  · exact Along.ite Along.pure Along.throw l
  · exact along_insertMapping (Nat.le_add_right first size)
      (by change 0 < Word.signBit / 2 - 1; decide) l

/-- What a count that goes down keeps is kept when a reference is given back. -/
theorem along_hold_of {R : Link → Link → Prop} [Lasting R]
    (counted : ∀ {l : Link} {m : Mapping} {c : ReferenceCount}, m ∈ l.device.mappings →
      (l.Sound → 0 < c.value) → R l (l.withMappings (l.device.mappings.setCount m c))) :
    Along R (hold first size updateRef) := by
  refine along_device_bind fun l => ?_
  cases hm : (l.device.mappings.lookup first size).mapping? with
  | none => exact Lasting.refl l
  | some m =>
      have held := MappingTable.mem_of_lookup hm
      dsimp only
      split
      · rename_i more
        refine Along.bind_at (x := modifyMappings _) ?_ fun _ => Along.pure
        refine counted held fun hl => ReferenceCount.decrement_pos (hl.mappings.held m held) ?_
        simpa using (Bool.and_eq_true_iff.1 more).2
      · exact Lasting.refl l

/-- What is kept when a count goes down and when a mapping is removed is kept by unmapping. -/
theorem along_unmap_of {R : Link → Link → Prop} [Lasting R] {force : Bool}
    (counted : ∀ {l : Link} {m : Mapping} {c : ReferenceCount}, m ∈ l.device.mappings →
      (l.Sound → 0 < c.value) → R l (l.withMappings (l.device.mappings.setCount m c)))
    (removed : ∀ {l : Link} {m : Mapping}, m ∈ l.device.mappings → R l (exec (removeMapping m) l).2) :
    Along R (unmap first size force) := by
  refine along_device_bind fun l => ?_
  cases hm : (l.device.mappings.lookup first size).mapping? with
  | none => exact Lasting.refl l
  | some m =>
      have held := MappingTable.mem_of_lookup hm
      dsimp only
      by_cases inf : m.refCount.isInfinite = true
      · rw [if_pos inf]
        exact Lasting.refl l
      · rw [if_neg inf]
        by_cases more : 0 < (if force then ReferenceCount.one else m.refCount).decrement.value
        · rw [if_pos more]
          exact counted held fun _ => more
        · rw [if_neg more]
          exact removed held

theorem orderly_setCount {m : Mapping} {c : ReferenceCount} (hm : m ∈ l.device.mappings)
    (hc : l.Sound → 0 < c.value) : l.Orderly (l.withMappings (l.device.mappings.setCount m c)) :=
  fun hl => ⟨⟨hl.mappings.setCount hm (hc hl), hl.accelerator⟩,
    fun ht s hs => (MappingTable.setCount_extends hm c).covers (ht s hs)⟩

theorem along_hold : Along Link.Orderly (hold first size updateRef) := along_hold_of orderly_setCount

/-- The shadows in the section of a mapping go with it. -/
theorem along_removeMapping {m : Mapping} (hm : m ∈ l.device.mappings) :
    l.Orderly (exec (removeMapping m) l).2 := by
  have removed : l.Orderly { l with device := l.device.without m } := by
    intro hl
    refine ⟨⟨hl.mappings.remove hm, hl.accelerator⟩, fun ht s hs => ?_⟩
    obtain ⟨hs, outside⟩ := AddressMap.mem_eraseRange.1 hs
    obtain ⟨n, hn, inside⟩ := ht s hs
    refine ⟨n, (MappingTable.mem_remove hm).2 ⟨hn, fun same => ?_⟩, inside⟩
    have : n = m := AddressMap.eq_of_address_eq hn hm same
    subst this
    exact outside (Mapping.contains_iff.1 inside)
  refine Along.bind_at (x := modifyDevice _) removed fun _ => ?_
  exact along_free.mono fun h => h.extended.orderly

theorem along_unmap {force : Bool} : Along Link.Orderly (unmap first size force) :=
  along_unmap_of orderly_setCount along_removeMapping

theorem along_visitShadows {lower upper : Nat} {erase : Bool} :
    Along Link.Orderly (visitShadows lower upper erase) := by
  refine along_device_bind fun l => ?_
  refine Along.bind_at (x := modifyDevice _) ?_ fun _ => Along.pure
  refine fun hl => ⟨⟨hl.mappings, hl.accelerator⟩, fun ht s hs => ht s ?_⟩
  exact (ShadowTable.mem_visit.1 hs).1

/-- The table of a disassociated section stays well-formed, but shadows in the section stay too. -/
theorem along_disassociate : Along (Kept Link.Sound) (disassociate first) := by
  refine along_device_bind fun l => ?_
  cases hm : (l.device.mappings.lookup first 0).mapping? with
  | none => exact Lasting.refl l
  | some m =>
      have held := MappingTable.mem_of_lookup hm
      dsimp only
      split
      · exact fun hl => ⟨hl.mappings.remove held, hl.accelerator⟩
      · exact Lasting.refl l

theorem along_prepare : Along Link.Prepared prepare := by
  refine along_device_bind fun l => ?_
  cases hp : l.device.prepared with
  | some outcome =>
      cases outcome with
      | ok _ => exact Lasting.refl l
      | error e => exact Lasting.refl l
  | none =>
      have memories : Accelerator.SameMemories l.accelerator
          (exec (Accelerator.initialise l.device.unit) l.accelerator).2 :=
        (Accelerator.along_initialise (R := Accelerator.Quiet) (fun h => h) l.accelerator).sameMemories
      rcases hr : exec (Accelerator.initialise l.device.unit) l.accelerator with ⟨outcome, a⟩
      rw [hr] at memories
      have run : (Accelerator.initialise l.device.unit).run.run l.accelerator = (outcome, a) := hr
      dsimp only
      rw [exec_get_bind, run]
      cases outcome with
      | ok _ => exact ⟨⟨_, rfl⟩, memories⟩
      | error e => exact ⟨⟨_, rfl⟩, memories⟩

end Device

end Offloading
