import Offloading.Proofs.Backing
import Offloading.Proofs.SharedSections
/-!
# Blocks of a family

The mappings of a family's sections without all other mappings of the device: each of them has a block of
its own, whatever else is mapped, and the blocks lie where device addresses do not wrap around.
-/

namespace Offloading

namespace MappingTable

variable {t u : MappingTable} {m : Mapping} {family : SectionFamily}

/-- The mappings of sections in the family. -/
def ofFamily (t : MappingTable) (family : SectionFamily) : MappingTable where
  entries := t.entries.filter fun m => decide (⟨m.hostBegin, m.length⟩ ∈ family)

theorem mem_ofFamily : m ∈ t.ofFamily family ↔ m ∈ t ∧ ⟨m.hostBegin, m.length⟩ ∈ family :=
  AddressMap.mem_filter.trans (and_congr Iff.rfl decide_eq_true_iff)

theorem isOf_of_mem_ofFamily (h : m ∈ t.ofFamily family) : ∃ s ∈ family, m.IsOf s := by
  obtain ⟨-, inside⟩ := mem_ofFamily.1 h
  refine ⟨_, inside, rfl, ?_⟩
  have pos : 0 < m.length := SectionFamily.size_pos inside
  rw [Mapping.length] at pos
  rw [HostSection.stop, Mapping.length]
  dsimp only
  omega

theorem mem_ofFamily_of_isOf {s : HostSection} (hm : m ∈ t) (hs : s ∈ family) (own : m.IsOf s) :
    m ∈ t.ofFamily family := by
  have same : (⟨m.hostBegin, m.length⟩ : HostSection) = s := by
    rw [Mapping.length, own.first, own.stop, HostSection.stop, Nat.add_sub_cancel_left]
  exact mem_ofFamily.2 ⟨hm, same ▸ hs⟩

theorem ofFamily_extends (h : t.Extends u) : (t.ofFamily family).Extends (u.ofFamily family) := by
  intro m hm
  obtain ⟨ht, inside⟩ := mem_ofFamily.1 hm
  obtain ⟨n, hn, same⟩ := h m ht
  refine ⟨n, mem_ofFamily.2 ⟨hn, ?_⟩, same⟩
  rwa [same.hostBegin, same.length]

end MappingTable

namespace Mapping

variable {m : Mapping} {s : HostSection}

theorem IsOf.length (h : m.IsOf s) : m.length = s.size := by
  rw [Mapping.length, h.first, h.stop, HostSection.stop, Nat.add_sub_cancel_left]

end Mapping

namespace Link

variable {l l' : Link} {family : SectionFamily} {sections : List HostSection}

/-- The device with the mappings of the family and no others. -/
def within (l : Link) (family : SectionFamily) : Link :=
  l.withMappings (l.device.mappings.ofFamily family)

theorem Sound.within (h : l.Sound) : (l.within family).Sound :=
  ⟨h.mappings.within fun _ hm => (MappingTable.mem_ofFamily.1 hm).1, h.accelerator⟩

/-- The mappings of the family have blocks of their own. -/
def Houses (family : SectionFamily) (l : Link) : Prop := (l.within family).Backed

theorem Houses.still (h : l.Houses family) (still : l.Still l') : l'.Houses family := by
  refine Backed.of_places h ?_ fun n _ block => ?_
  · change (l'.device.mappings.ofFamily family).Extends (l.device.mappings.ofFamily family)
    rw [still.mappings]
    exact .refl _
  · change _ ∈ l'.extents
    rw [extents_of_still still]
    exact block

/-- Blocks for the sections can be made at device addresses that are words: the counter from which the
device takes them does not leave the words. -/
def HasRoom (sections : List HostSection) (l : Link) : Prop :=
  ∀ m, l.memory? = some m →
    m.next + (sections.map fun s => DeviceMemory.stride s.size).sum ≤ Word.modulus

theorem HasRoom.still (h : l.HasRoom sections) (still : l.Still l') : l'.HasRoom sections := by
  intro k hk
  obtain ⟨m, hm, same⟩ := still.memory?_eq_some hk
  rw [← show m.next = k.next from congrArg Prod.fst same]
  exact h m hm

/-- The copies of the family's sections end before the next block begins. -/
theorem Houses.inSpace (h : l.Houses family) (sound : l.Sound) (room : l.HasRoom []) :
    (l.device.mappings.ofFamily family).InSpace := by
  intro m hm
  obtain ⟨s, hs, own⟩ := MappingTable.isOf_of_mem_ofFamily hm
  obtain ⟨k, hk, b, hb, start, length⟩ := Backed.block? h hm
  refine ⟨own.stop ▸ SectionFamily.stop_le hs, ?_⟩
  have below := (sound.accelerator.memory hk).below b hb
  have last := room k hk
  rw [← start, ← length]
  simp only [List.map_nil, List.sum_nil] at last
  omega

end Link

namespace Device

variable {l l' : Link} {first base size : Nat} {implicit updateRef force : Bool} {u : Unit}
  {r : Option MappedSection} {m : Mapping} {family : SectionFamily} {s : HostSection}
  {sections rest : List HostSection}

theorem houses_map (hl : l.Sound) (h : l.Houses family)
    (mapped : Returns (map first base size implicit updateRef) l r l') : l'.Houses family := by
  rcases blocks_map mapped with
    ⟨places, memory⟩ | ⟨e, k, k', length, hs, cases, before, allocated, after⟩
  · refine Link.Backed.of_places h (MappingTable.ofFamily_extends places) fun n _ block => ?_
    rwa [show (l'.within family).extents = (l.within family).extents from Link.extents_congr memory]
  · refine Link.Backed.allocated (l := l.within family) h hl.accelerator (length ▸ hs) (fun n hn => ?_)
      before allocated after
    obtain ⟨hn, inside⟩ := MappingTable.mem_ofFamily.1 hn
    exact (cases n hn).imp_right fun old => MappingTable.mem_ofFamily.2 ⟨old, inside⟩

/-- Mapping the first of the sections leaves room for the others. -/
theorem hasRoom_map (h : l.HasRoom (s :: rest))
    (mapped : Returns (map s.first base s.size implicit updateRef) l r l') : l'.HasRoom rest := by
  intro m hm
  rcases blocks_map mapped with ⟨-, memory⟩ | ⟨e, k, k', length, hs, -, before, allocated, after⟩
  · have enough := h m (memory ▸ hm)
    rw [List.map_cons, List.sum_cons] at enough
    omega
  · have enough := h k before
    rw [after, Option.some.injEq] at hm
    subst hm
    rw [(DeviceMemory.allocate_eq_some allocated).2, length, Nat.max_eq_left hs]
    rw [List.map_cons, List.sum_cons] at enough
    dsimp only
    omega

/-- Unmapping a section removes the mapping that it meets with its block and the shadows in it, or leaves
blocks and shadows alone. -/
theorem blocks_unmap (unmapped : Returns (unmap first size force) l u l') :
    (l'.device.mappings.Extends l.device.mappings ∧ l'.memory? = l.memory? ∧
        l'.device.shadows = l.device.shadows) ∨
      ∃ m k k', (l.device.mappings.lookup first size).mapping? = some m ∧ l.memory? = some k ∧
        k.free m.deviceBegin = (true, k') ∧ l'.memory? = some k' ∧
        l'.device.mappings = (l.device.without m).mappings ∧
        l'.device.shadows = (l.device.without m).shadows := by
  obtain ⟨m, hm, ⟨-, rfl⟩ | ⟨-, ⟨c, -, -, rfl⟩ | ⟨-, removed⟩⟩⟩ := returns_unmap unmapped
  · exact .inl ⟨.refl _, rfl, rfl⟩
  · exact .inl ⟨MappingTable.extends_setCount (MappingTable.mem_of_lookup hm) _, rfl, rfl⟩
  · obtain ⟨k, k', before, freed, wrote⟩ := returns_free (returns_removeMapping.1 removed)
    exact .inr ⟨m, k, k', hm, before, freed, wrote.memory? before, wrote.mappings, wrote.shadows⟩

/-- No shadow is forgotten with a mapping that has none. -/
theorem mem_shadows_unmap (here : (l.device.mappings.lookup first size).mapping? = some m)
    (outside : ∀ x ∈ l.device.shadows, ¬ (m.hostBegin ≤ x.hostSlot ∧ x.hostSlot < m.hostEnd))
    (unmapped : Returns (unmap first size force) l u l') {x : ShadowPointer} :
    x ∈ l'.device.shadows ↔ x ∈ l.device.shadows := by
  rcases blocks_unmap unmapped with ⟨-, -, shadows⟩ | ⟨n, k, k', hn, -, -, -, -, shadows⟩
  · rw [shadows]
  · rw [here, Option.some.injEq] at hn
    subst hn
    rw [shadows]
    exact AddressMap.mem_eraseRange.trans ⟨And.left, fun hx => ⟨hx, outside x hx⟩⟩

theorem fades_unmap (hl : l.Sound) (unmapped : Returns (unmap first size force) l u l') :
    l.Fades l' := by
  rcases blocks_unmap unmapped with ⟨-, memory, -⟩ | ⟨m, k, k', -, before, freed, after, -⟩
  · exact Link.fades_of_memory? memory
  · exact Link.fades_of_free (hl.accelerator.memory before) before freed after

theorem hasRoom_unmap (h : l.HasRoom sections) (unmapped : Returns (unmap first size force) l u l') :
    l'.HasRoom sections := by
  intro n hn
  rcases blocks_unmap unmapped with ⟨-, memory, -⟩ | ⟨m, k, k', -, before, freed, after, -⟩
  · exact h n (memory ▸ hn)
  · rw [after, Option.some.injEq] at hn
    subst hn
    obtain ⟨b, -, -, rfl⟩ := DeviceMemory.free_eq_true freed
    exact h k before

/-- The other mappings of the family keep their blocks. -/
theorem houses_unmap (h : l.Houses family) (hs : s ∈ family) (hm : m ∈ l.device.mappings)
    (own : m.IsOf s) (here : (l.device.mappings.lookup first size).mapping? = some m)
    (unmapped : Returns (unmap first size force) l u l') : l'.Houses family := by
  rcases blocks_unmap unmapped with
    ⟨places, memory, -⟩ | ⟨n, k, k', hn, before, freed, after, mappings, -⟩
  · refine Link.Backed.of_places h (MappingTable.ofFamily_extends places) fun n _ block => ?_
    rwa [show (l'.within family).extents = (l.within family).extents from Link.extents_congr memory]
  · rw [here, Option.some.injEq] at hn
    subst hn
    have stays : ∀ e ∈ l'.device.mappings.ofFamily family,
        e ∈ l.device.mappings.ofFamily family ∧ e.hostBegin ≠ m.hostBegin := by
      intro e he
      obtain ⟨he, inside⟩ := MappingTable.mem_ofFamily.1 he
      rw [mappings] at he
      obtain ⟨he, other⟩ := (MappingTable.mem_remove hm).1 he
      exact ⟨MappingTable.mem_ofFamily.2 ⟨he, inside⟩, other⟩
    refine Link.Backed.freed h (fun e he => ⟨e, (stays e he).1, .refl e⟩) (fun e he same => ?_) before
      freed after
    obtain ⟨he, other⟩ := stays e he
    exact other (h.own e he m (MappingTable.mem_ofFamily_of_isOf hm hs own) same)

end Device

end Offloading
