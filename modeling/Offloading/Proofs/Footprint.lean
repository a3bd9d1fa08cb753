import Offloading.Proofs.MappingLife
/-!
# Footprints

The footprint of a device is its mappings and the live blocks of its accelerator, without their
contents. A reference that was taken on a section is given back by holding the section and, if that was
the last reference, unmapping it, and then the footprint is what it was before.
-/

namespace Offloading

/-- Bytes allocated, and where the live blocks lie. -/
def DeviceMemory.footprint (m : DeviceMemory) : Nat × List (Nat × Nat) := (m.used, m.extents)

/-- Freeing a block that was allocated gives the footprint back. -/
theorem DeviceMemory.footprint_free {m m' n n' : DeviceMemory} {size addr : Nat}
    (wf : m.WellFormed) (ha : m.allocate size = (some addr, m')) (same : n.footprint = m'.footprint)
    (hf : n.free addr = (true, n')) : n'.footprint = m.footprint := by
  obtain ⟨rfl, grown⟩ := allocate_eq_some ha
  have used : m'.used = m.used + max size 1 := by rw [grown]
  have extents := wf.extents_allocate ha
  rw [footprint, footprint, Prod.mk.injEq] at same
  have older : ∀ p ∈ m.extents, p.1 ≠ m.next := by
    intro p hp
    obtain ⟨b, hb, rfl⟩ := mem_extents.1 hp
    exact Nat.ne_of_lt (wf.start_lt hb)
  have remaining : n'.extents = m.extents := by
    rw [extents_free hf, same.2, extents]
    simp only [bne_self_eq_false, List.filter_cons, Bool.false_eq_true, if_false]
    exact List.filter_eq_self.2 fun p hp => bne_iff_ne.2 (older p hp)
  obtain ⟨b, hb, start, rfl⟩ := free_eq_true hf
  have length : b.bytes.length = max size 1 := by
    have listed : (b.start, b.bytes.length) ∈ n.extents := mem_extents.2 ⟨b, hb, rfl⟩
    rw [same.2, extents] at listed
    rcases List.mem_cons.1 listed with new | old
    · exact (Prod.mk.inj new).2
    · exact absurd start (older _ old)
  rw [footprint, footprint, remaining, Prod.mk.injEq]
  refine ⟨?_, rfl⟩
  change n.used - b.bytes.length = m.used
  rw [same.1, used, length]
  omega

namespace Accelerator

variable {a a' : Accelerator} {unit : Int} {m : DeviceMemory}

/-- The footprints of all devices. -/
def footprint (a : Accelerator) : List (Nat × List (Nat × Nat)) :=
  a.memories.map DeviceMemory.footprint

theorem footprint_of_layouts (h : a'.layouts = a.layouts) : a'.footprint = a.footprint := by
  have view : ∀ a : Accelerator, a.footprint = a.layouts.map fun p => (p.2.2.1, p.2.2.2) := by
    intro a
    rw [footprint, layouts, List.map_map]
    rfl
  rw [view, view, h]

theorem footprint_withMemory :
    (a.withMemory unit m).footprint = a.footprint.set unit.toNat m.footprint := List.map_set

theorem footprint_of_memory? (h : a.memory? unit = some m) :
    a.footprint[unit.toNat]? = some m.footprint := by
  obtain ⟨i, rfl, hi⟩ := memory?_eq_some_iff.1 h
  rw [footprint, List.getElem?_map, Int.toNat_natCast, hi]
  rfl

end Accelerator

namespace Link

variable {l l' : Link} {m : DeviceMemory}

/-- The mappings of the device and the live blocks of its accelerator. -/
def footprint (l : Link) : Int × AddressMap Mapping × List (Nat × List (Nat × Nat)) :=
  (l.device.unit, l.device.mappings.entries, l.accelerator.footprint)

theorem footprint_eq_iff :
    l'.footprint = l.footprint ↔
      l'.device.unit = l.device.unit ∧
        l'.device.mappings.entries = l.device.mappings.entries ∧
        l'.accelerator.footprint = l.accelerator.footprint := by
  rw [footprint, footprint, Prod.mk.injEq, Prod.mk.injEq]

theorem Still.footprint (h : l.Still l') : l'.footprint = l.footprint :=
  footprint_eq_iff.2 ⟨h.unit, by rw [h.mappings], Accelerator.footprint_of_layouts h.layouts⟩

theorem lookup_congr (h : l'.footprint = l.footprint) (first size : Nat) :
    l'.device.mappings.lookup first size = l.device.mappings.lookup first size :=
  MappingTable.lookup_congr (footprint_eq_iff.1 h).2.1

theorem Wrote.footprint (h : l.Wrote l' m) :
    l'.footprint = (l.device.unit, l.device.mappings.entries,
      l.accelerator.footprint.set l.device.unit.toNat m.footprint) := by
  rw [Link.footprint, h.unit, h.mappings, Accelerator.footprint, h.memories]
  exact congrArg _ (congrArg _ Accelerator.footprint_withMemory)

/-- Only mappings with an infinite count that were there before have one. -/
def CountsStayFinite (l l' : Link) : Prop :=
  ∀ m ∈ l'.device.mappings, m.refCount.isInfinite = true → m ∈ l.device.mappings

/-- Since infinite counts never change, it is enough to look at the two ends of a run. -/
theorem CountsStayFinite.within {l₀ l₁ : Link} (h : l₀.CountsStayFinite l₁)
    (sound : l₀.Sound) (before : l₀.Grown l) (after : l'.Grown l₁) (sound' : l'.Sound) :
    l.CountsStayFinite l' := by
  intro m hm inf
  have last := after.mappings.infinite sound'.mappings m hm inf
  exact before.mappings.infinite sound.mappings m (h m last inf) inf

end Link

namespace Device

variable {l l₁ k k₁ k₂ k₃ : Link} {u : Unit} {first base size addr : Nat}
  {implicit updateRef : Bool} {m : Mapping} {r : Option MappedSection} {h : Option HeldSection}

/-! ## Taking a reference and giving it back -/

/-- What a new mapping does to the footprint. -/
theorem footprint_insert {l₂ : Link} {n' : DeviceMemory} (wrote : l.Wrote l₂ n')
    (inserted : Returns (insertMapping m) l₂ () l₁) :
    l₁.footprint = (l.device.unit, l.device.mappings.entries.insert m,
      l.accelerator.footprint.set l.device.unit.toNat n'.footprint) := by
  obtain ⟨done, rfl⟩ := returns_insertMapping inserted
  have before := wrote.footprint
  rw [Link.footprint, Prod.mk.injEq, Prod.mk.injEq] at before
  rcases MappingTable.insert_cases l₂.device.mappings m with ⟨e, failed, -⟩ | ⟨-, -, -, entries⟩
  · rw [failed] at done
    cases done
  · rw [Link.footprint, Prod.mk.injEq, Prod.mk.injEq]
    refine ⟨before.1, ?_, before.2.2⟩
    exact entries.trans (congrArg (AddressMap.insert · m) before.2.1)

/-- What removing a mapping does to the footprint. -/
theorem footprint_remove (hm : m ∈ k.device.mappings) (removed : Returns (removeMapping m) k u k₁) :
    ∃ n n', k.memory? = some n ∧ n.free m.deviceBegin = (true, n') ∧
      k₁.footprint = (k.device.unit, k.device.mappings.entries.erase m.hostBegin,
        k.accelerator.footprint.set k.device.unit.toNat n'.footprint) := by
  obtain ⟨n, n', hn, freed, wrote⟩ := returns_free (returns_removeMapping.1 removed)
  refine ⟨n, n', hn, freed, ?_⟩
  rw [wrote.footprint, ← MappingTable.remove_entries hm]
  rfl

/-- A new mapping and its block go away together. -/
theorem footprint_remove_new {l₂ : Link} {n n' : DeviceMemory} (hs : l.Sound)
    (none : (l.device.mappings.lookup m.hostBegin size).mapping? = none) (hn : l.memory? = some n)
    (allocated : n.allocate size = (some m.deviceBegin, n')) (wrote : l.Wrote l₂ n')
    (inserted : Returns (insertMapping m) l₂ () l₁) (same : k.footprint = l₁.footprint)
    (removed : Returns (removeMapping m) k u k₁) : k₁.footprint = l.footprint := by
  rw [footprint_insert wrote inserted, Link.footprint, Prod.mk.injEq, Prod.mk.injEq] at same
  obtain ⟨unit, entries, blocks⟩ := same
  have hm : m ∈ k.device.mappings := by
    rw [← MappingTable.mem_entries, entries]
    exact AddressMap.mem_insert_self
  obtain ⟨o, o', ho, freed, after⟩ := footprint_remove hm removed
  have inUse : k.accelerator.footprint[k.device.unit.toNat]? = some o.footprint :=
    Accelerator.footprint_of_memory? ho
  obtain ⟨lt, before⟩ := List.getElem?_eq_some_iff.1 (Accelerator.footprint_of_memory? hn)
  rw [blocks, unit, List.getElem?_set_self lt, Option.some.injEq] at inUse
  have memory := DeviceMemory.footprint_free (hs.accelerator.memory hn) allocated inUse.symm freed
  have restored : (l.device.mappings.entries.insert m).erase m.hostBegin =
      l.device.mappings.entries :=
    AddressMap.erase_insert fun b hb => hs.mappings.hostBegin_ne none hb
  rw [after, unit, entries, restored, blocks, memory, List.set_set, ← before,
    List.set_getElem_self]
  rfl

/-- The reference that a section took on a mapping is given back when the section is held again. -/
theorem footprint_hold_found (hs : l.Sound)
    (found : (l.device.mappings.lookup first size).mapping? = some m)
    (finite : m.refCount.increment.isInfinite = true → m.refCount.isInfinite = true)
    (same : k.footprint =
      (l.withMappings (l.device.mappings.setCount m m.refCount.increment)).footprint)
    (held : Returns (hold first size true) k h k₁) :
    (∀ part, h = some part → part.isLast = false) ∧ k₁.footprint = l.footprint := by
  have hm := MappingTable.mem_of_lookup found
  have again := (congrArg Coverage.mapping? (Link.lookup_congr same first size)).trans
    (MappingTable.lookup_setCount found)
  have more := ReferenceCount.isLast_increment (hs.mappings.held m hm)
  rcases returns_hold held with ⟨none, -, -⟩ | ⟨n, hn, rfl, rfl⟩
  · rw [again] at none
    cases none
  · rw [again] at hn
    cases hn
    refine ⟨?_, ?_⟩
    · rintro part ⟨⟩
      exact more
    · rw [if_pos (by simp [more])]
      obtain ⟨unit, entries, blocks⟩ := Link.footprint_eq_iff.1 same
      refine Link.footprint_eq_iff.2 ⟨unit, ?_, blocks⟩
      change k.device.mappings.entries.insert { m with refCount := m.refCount.increment.decrement } = _
      rw [entries, ReferenceCount.decrement_increment finite]
      exact (MappingTable.setCount_setCount (c := m.refCount.increment)).trans
        (by rw [MappingTable.setCount_self hm])

/-- Giving a reference back undoes taking it: at once when the section is held again, or by unmapping
the section if that was the last reference. -/
theorem footprint_release (hs : l.Sound)
    (mapped : Returns (map first base size implicit true) l r l₁) (finite : l.CountsStayFinite l₁)
    (same : k.footprint = l₁.footprint) (held : Returns (hold first size true) k h k₁) :
    ((∃ part, h = some part ∧ part.isLast = true) ∧ k₁ = k ∧
      ∀ k₂ k₃, k₂.footprint = k.footprint → Returns (unmap first size false) k₂ u k₃ →
        k₃.footprint = l.footprint) ∨
    ((∀ part, h = some part → part.isLast = false) ∧ k₁.footprint = l.footprint) := by
  rcases returns_map mapped with
    ⟨m, found, -, -, rfl⟩ | ⟨none, empty, -, rfl⟩ | ⟨none, pos, addr, l₂, ha, -, hi⟩
  · refine .inr (footprint_hold_found hs found (fun inf => ?_) same held)
    have listed := finite { m with refCount := m.refCount.increment }
      (MappingTable.mem_setCount.2 (.inl rfl)) inf
    have : { m with refCount := m.refCount.increment } = m :=
      AddressMap.eq_of_address_eq listed (MappingTable.mem_of_lookup found) rfl
    rw [← this]
    exact inf
  · rcases returns_hold held with ⟨-, rfl, rfl⟩ | ⟨m, hm, -⟩
    · exact .inr ⟨fun part h => (nomatch h), same⟩
    · rw [Link.lookup_congr same, none] at hm
      cases hm
  · obtain ⟨n, n', hn, allocated, wrote⟩ := returns_allocate ha
    have fresh : ∀ k : Link, k.footprint = l₁.footprint →
        (k.device.mappings.lookup first size).mapping? =
          some ⟨base, first, first + size, addr, .one⟩ := by
      intro k same
      rw [footprint_insert wrote hi, Link.footprint, Prod.mk.injEq, Prod.mk.injEq] at same
      exact MappingTable.lookup_inserted (m := ⟨base, first, first + size, addr, .one⟩)
        (Nat.lt_add_of_pos_right pos) same.2.1
    rcases returns_hold held with ⟨none, -, -⟩ | ⟨m, hm, rfl, rfl⟩
    · rw [fresh k same] at none
      cases none
    · rw [fresh k same] at hm
      cases hm
      refine .inl ⟨⟨_, rfl, rfl⟩, rfl, fun k₂ k₃ later unmapped => ?_⟩
      have same₂ := later.trans same
      obtain ⟨m, hm, ⟨inf, -⟩ | ⟨-, ⟨c, rfl, more, -⟩ | ⟨-, removed⟩⟩⟩ := returns_unmap unmapped
      · rw [fresh k₂ same₂] at hm
        cases hm
        cases inf
      · rw [fresh k₂ same₂] at hm
        cases hm
        cases more
      · rw [fresh k₂ same₂] at hm
        cases hm
        exact footprint_remove_new (m := ⟨base, first, first + size, addr, .one⟩) hs none hn
          allocated wrote hi same₂ removed

end Device

end Offloading
