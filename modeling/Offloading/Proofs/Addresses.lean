import Offloading.Proofs.Reclamation
/-!
# Device addresses

Blocks are placed one behind the other, and the place of the next one never moves back. So an address
whose block was released is never given to another block, whatever happens to the device later on.
-/

namespace Offloading

namespace DeviceMemory

variable {m m' m'' : DeviceMemory} {addr size : Nat}

/-- Time passed for a memory: the blocks below the old place of the next one were there before. -/
structure Aged (m m' : DeviceMemory) : Prop where
  next : m.next ≤ m'.next
  old : ∀ p ∈ m'.extents, p.1 < m.next → p ∈ m.extents

theorem Aged.refl (m : DeviceMemory) : m.Aged m := ⟨Nat.le_refl _, fun _ hp _ => hp⟩

theorem Aged.trans (h : m.Aged m') (h' : m'.Aged m'') : m.Aged m'' :=
  ⟨Nat.le_trans h.next h'.next,
    fun p hp low => h.old p (h'.old p hp (Nat.lt_of_lt_of_le low h.next)) low⟩

theorem aged_of_layout (h : m'.layout = m.layout) : m.Aged m' := by
  simp only [layout, Prod.mk.injEq] at h
  obtain ⟨next, -, -, extents⟩ := h
  exact ⟨Nat.le_of_eq next.symm, fun p hp _ => extents ▸ hp⟩

theorem aged_allocate (m : DeviceMemory) (size : Nat) : m.Aged (m.allocate size).2 := by
  rcases ha : m.allocate size with ⟨_ | addr, m'⟩
  · rw [allocate_eq_none ha]
    exact .refl m
  · obtain ⟨-, rfl⟩ := allocate_eq_some ha
    refine ⟨Nat.le_add_right _ _, fun p hp low => ?_⟩
    obtain ⟨b, hb, rfl⟩ := mem_extents.1 hp
    rcases AddressMap.mem_insert.1 hb with rfl | ⟨hb, -⟩
    · exact absurd low (Nat.lt_irrefl _)
    · exact mem_extents.2 ⟨b, hb, rfl⟩

theorem aged_free (m : DeviceMemory) (addr : Nat) : m.Aged (m.free addr).2 := by
  rcases hf : m.free addr with ⟨_ | _, m'⟩
  · rw [free_eq_false hf]
    exact .refl m
  · have extents := extents_free hf
    obtain ⟨b, -, -, rfl⟩ := free_eq_true hf
    refine ⟨Nat.le_refl _, fun p hp _ => ?_⟩
    rw [extents] at hp
    exact (List.mem_filter.1 hp).1

end DeviceMemory

namespace Accelerator

variable {a a' : Accelerator} {unit : Int} {m m' : DeviceMemory} {addr : Nat}

/-- Time passed for all memories. -/
def Aged (a a' : Accelerator) : Prop :=
  ∀ unit m', a'.memory? unit = some m' → ∃ m, a.memory? unit = some m ∧ m.Aged m'

instance : Lasting Aged where
  refl _ _ m' hm' := ⟨m', hm', .refl m'⟩
  trans h h' unit m'' hm'' := by
    obtain ⟨m', hm', aged'⟩ := h' unit m'' hm''
    obtain ⟨m, hm, aged⟩ := h unit m' hm'
    exact ⟨m, hm, aged.trans aged'⟩

theorem aged_of_layouts (h : a'.layouts = a.layouts) : a.Aged a' := by
  intro unit m' hm'
  obtain ⟨m, hm, same⟩ := memory?_of_layouts h hm'
  exact ⟨m, hm, DeviceMemory.aged_of_layout same.symm⟩

theorem aged_of_memories (h : a.SameMemories a') : a.Aged a' :=
  aged_of_layouts (rewritten_of_memories h).layouts

theorem Quiet.aged (h : a.Quiet a') : a.Aged a' := aged_of_memories h.sameMemories

theorem overlooks_aged : Overlooks unit Aged := overlooks_of_memories aged_of_memories

theorem aged_withMemory (hm : a.memory? unit = some m) (aged : m.Aged m') :
    a.Aged (a.withMemory unit m') := by
  intro other n hn
  by_cases here : other = unit
  · subst here
    rw [memory?_withMemory hm, Option.some.injEq] at hn
    exact ⟨m, hm, hn ▸ aged⟩
  · rw [memory?_withMemory_ne hm here] at hn
    exact ⟨n, hn, .refl n⟩

theorem aged_call_allocate {size : Nat} : Along Aged (allocate unit size) := by
  refine along_attempt_bind Quiet.aged (along_memory_bind fun a m hm => ?_)
  refine Along.bind_at (x := setMemory _ _) ?_ fun _ => ?_
  · exact aged_withMemory hm (m.aged_allocate size)
  · split
    · exact Along.pure
    · exact Along.throw

theorem aged_call_delete : Along Aged (delete unit addr) := by
  refine Along.tryCatch ?_ fun _ => Along.bind (Along.modify fun a => ?_) fun _ => Along.throw
  · refine Along.bind (along_note overlooks_aged) fun _ => ?_
    refine along_attempt_bind Quiet.aged (along_memory_bind fun a m hm => ?_)
    refine Along.bind_at (x := setMemory _ _) ?_ fun _ => Along.ite Along.pure Along.throw
    exact aged_withMemory hm (m.aged_free addr)
  · exact aged_of_layouts (a := a) rfl

/-- No block starts at the address, and none ever will. -/
def Retired (a : Accelerator) (unit : Int) (addr : Nat) : Prop :=
  ∀ m, a.memory? unit = some m → addr < m.next ∧ ∀ p ∈ m.extents, p.1 ≠ addr

theorem Retired.aged (h : a.Retired unit addr) (aged : a.Aged a') : a'.Retired unit addr := by
  intro m' hm'
  obtain ⟨m, hm, old⟩ := aged unit m' hm'
  obtain ⟨low, free⟩ := h m hm
  refine ⟨Nat.lt_of_lt_of_le low old.next, fun p hp same => ?_⟩
  exact free p (old.old p hp (same ▸ low)) same

/-- An address is out of use when its block was released. -/
theorem retired_of_free (wellFormed : m.WellFormed) (hm : a'.memory? unit = some m')
    (freed : m.free addr = (true, m')) : a'.Retired unit addr := by
  intro n hn
  rw [hm, Option.some.injEq] at hn
  subst hn
  have extents := DeviceMemory.extents_free freed
  obtain ⟨b, hb, rfl, rfl⟩ := DeviceMemory.free_eq_true freed
  refine ⟨wellFormed.start_lt hb, fun p hp => ?_⟩
  rw [extents] at hp
  exact bne_iff_ne.1 (List.mem_filter.1 hp).2

end Accelerator

namespace Link

variable {l l' : Link}

/-- Time passed for the memories of the device's accelerator. -/
structure Aged (l l' : Link) : Prop where
  unit : l'.device.unit = l.device.unit
  accelerator : l.accelerator.Aged l'.accelerator

instance : Lasting Aged where
  refl l := ⟨rfl, Lasting.refl l.accelerator⟩
  trans h h' := ⟨h'.unit.trans h.unit, Lasting.trans h.accelerator h'.accelerator⟩

theorem Still.aged (h : l.Still l') : l.Aged l' :=
  ⟨h.unit, Accelerator.aged_of_layouts h.layouts⟩

theorem aged_withMappings {t : MappingTable} : l.Aged (l.withMappings t) :=
  ⟨rfl, Lasting.refl l.accelerator⟩

end Link

namespace Device

open DeviceM

variable {first base size addr : Nat} {implicit updateRef force : Bool}

private theorem aged_call {α : Type} {wrap : AcceleratorError → DeviceError} {x : AcceleratorM α}
    (hx : Along Accelerator.Aged x) : Along Link.Aged (call wrap x) :=
  lifts_call.along hx fun _ _ h => ⟨rfl, h⟩

private theorem aged_count {f : TransferStats → TransferStats} : Along Link.Aged (count f) :=
  along_count.mono fun h => h.still.aged

theorem aged_allocate : Along Link.Aged (allocate size) := by
  refine Along.get.bind fun _ => Along.bind ?_ fun _ => aged_count.bind fun _ => Along.pure
  exact aged_call Accelerator.aged_call_allocate

theorem aged_free : Along Link.Aged (free addr) :=
  Along.get.bind fun _ => (aged_call Accelerator.aged_call_delete).bind fun _ => aged_count

theorem aged_insertMapping {m : Mapping} : Along Link.Aged (insertMapping m) := by
  refine along_device_bind fun l => ?_
  refine Along.bind_at (x := modifyMappings _) Link.aged_withMappings fun _ => ?_
  split
  · exact Along.pure
  · exact Along.throw

theorem aged_mapGlobal {target : Nat} : Along Link.Aged (mapGlobal first target size) :=
  Along.get.bind fun _ => Along.ite Along.pure (aged_insertMapping.bind fun _ => Along.pure)

theorem aged_unmap : Along Link.Aged (unmap first size force) := by
  refine along_unmap_of (fun _ _ => Link.aged_withMappings) fun _ => ?_
  exact Along.bind (Along.modify fun l => ⟨rfl, Lasting.refl l.accelerator⟩) (fun _ => aged_free) _

end Device

namespace Region

open RegionM

/-- Launching a kernel lets time pass. -/
theorem launches_aged : Launches Link.Aged where
  transferred h := h.still.aged
  allocate := Device.aged_allocate
  free := Device.aged_free

end Region

end Offloading
