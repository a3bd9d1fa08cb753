import Offloading.Proofs.NestedReleases
import Offloading.Proofs.OwnBlocks
/-!
# Blocks of places

The places that were mapped since some earlier time have blocks of their own, whatever else is mapped on the
device. So what was given an address in a place has it in the block of the place, and the blocks of different
places have no byte in common.
-/

namespace Offloading

namespace MappingTable

variable {t : MappingTable} {places : List Mapping} {m : Mapping}

/-- The mappings that begin where a place does. -/
def among (t : MappingTable) (places : List Mapping) : MappingTable where
  entries := t.entries.filter fun m => places.any fun p => p.hostBegin == m.hostBegin

theorem mem_among : m ∈ t.among places ↔ m ∈ t ∧ ∃ p ∈ places, p.hostBegin = m.hostBegin := by
  refine AddressMap.mem_filter.trans (and_congr Iff.rfl ?_)
  simp

/-- Nothing is found for a section that no mapping touches. -/
theorem lookup_untouched {s : HostSection} (wf : t.WellFormed) (untouched : ∀ m ∈ t, m.Untouched s) :
    (t.lookup s.first s.size).mapping? = none := by
  refine Option.eq_none_iff_forall_ne_some.2 fun m found => ?_
  obtain ⟨misses, outside⟩ := untouched m (mem_of_lookup found)
  rcases lookup_cases found with inside | ⟨-, above, reaches⟩
  · rw [(containing?_mem inside).2] at outside
    cases outside
  · obtain ⟨hm, higher, -⟩ := AddressMap.above?_eq_some_iff.1 above
    rw [Mapping.address_eq] at higher
    have nonempty := wf.nonempty m hm
    have stop : Word.saturatingAdd s.first s.size ≤ s.stop := Nat.min_le_left _ _
    rcases misses with before | after
    · omega
    · omega

end MappingTable

namespace Link

variable {l k : Link} {places : List Mapping} {n : Mapping → Nat} {p q m : Mapping}
  {first size target : Nat}

namespace Occupied

variable (h : Occupied places n l k) (fit : Places places l)

include h fit

/-- The mappings among the places are the places that are held. -/
theorem mem_among : m ∈ k.device.mappings.among places ↔ ∃ p ∈ places, 0 < n p ∧ m = p.counted (n p) := by
  rw [MappingTable.mem_among, h.mappings]
  constructor
  · rintro ⟨held | old, p, hp, same⟩
    · exact held
    · have begins := fit.nonempty p hp
      have begins' := h.sound.mappings.nonempty m (h.old old)
      rcases fit.free p hp m old with before | after
      · omega
      · omega
  · rintro ⟨p, hp, pos, rfl⟩
    exact ⟨.inl ⟨p, hp, pos, rfl⟩, p, hp, rfl⟩

theorem backed : (k.withMappings (k.device.mappings.among places)).Backed := by
  have place : ∀ e ∈ k.device.mappings.among places, ∃ p ∈ places, 0 < n p ∧ e = p.counted (n p) :=
    fun e he => (h.mem_among fit).1 he
  refine ⟨fun e he => ?_, fun e he e' he' same => ?_⟩
  · obtain ⟨p, hp, pos, rfl⟩ := place e he
    obtain ⟨o, b, hk, hb, start, length⟩ := h.exists_block fit hp pos
    exact mem_extents.2 ⟨o, hk, DeviceMemory.mem_extents.2 ⟨b, hb, Prod.ext start length⟩⟩
  · obtain ⟨p, hp, -, rfl⟩ := place e he
    obtain ⟨q, hq, -, rfl⟩ := place e' he'
    by_contra ne
    have other : p ≠ q := fun same => ne (same ▸ rfl)
    exact fit.deviceBegin_ne hp hq other same

omit fit in
theorem sound_among : (k.withMappings (k.device.mappings.among places)).Sound :=
  ⟨h.sound.mappings.within fun _ hm => (MappingTable.mem_among.1 hm).1, h.sound.accelerator⟩

/-- The blocks of different places have no byte in common. -/
theorem unaliased : (k.device.mappings.among places).Unaliased :=
  (h.backed fit).unaliased h.sound_among

/-- Where nothing was mapped before, an address is given because of a place. -/
theorem mem_among_of_gives (untouched : ∀ m ∈ l.device.mappings, m.Untouched ⟨first, size⟩)
    (hm : m ∈ k.device.mappings) (gives : m.Gives first size target) :
    m ∈ k.device.mappings.among places := by
  rcases (h.mappings m).1 hm with held | old
  · exact (h.mem_among fit).2 held
  · obtain ⟨misses, outside⟩ := untouched m old
    rcases gives with ⟨inside, -⟩ | ⟨below, above⟩
    · rw [inside] at outside
      cases outside
    · have begins := h.sound.mappings.nonempty m hm
      rw [Mapping.Misses, HostSection.stop] at misses
      dsimp only at misses
      omega

theorem inSpace_among (space : ∀ p ∈ places, p.InSpace) : (k.device.mappings.among places).InSpace := by
  intro m hm
  obtain ⟨p, hp, -, rfl⟩ := (h.mem_among fit).1 hm
  exact ⟨(space p hp).host, (space p hp).device⟩

/-- What a place holds lies in a mapping among the places. -/
theorem holds_among (hp : p ∈ places) (pos : 0 < n p) (lower : p.hostBegin ≤ first)
    (upper : first + size ≤ p.hostEnd) : (k.device.mappings.among places).Holds first size :=
  ⟨p.counted (n p), (h.mem_among fit).2 ⟨p, hp, pos, rfl⟩, lower, upper⟩

/-- The blocks of places are new. -/
theorem byte?_fresh (sound : l.Sound) (hp : p ∈ places) (pos : 0 < n p) {addr : Nat}
    (lower : p.deviceBegin ≤ addr) : l.byte? addr = none := by
  obtain ⟨o, o', hl, hk, older, same⟩ := h.memory fit hp
  rw [Link.byte?_of_memory? hl]
  refine Option.not_isSome_iff_eq_none.1 fun there => ?_
  obtain ⟨b, hb, -, last⟩ := (sound.accelerator.memory hl).byte?_isSome_iff.1 there
  -- an old block still lies where it was, in front of the block of the place
  have held : p.block ∈ heldBlocks places n :=
    List.mem_map_of_mem (List.mem_filter.2 ⟨hp, decide_eq_true pos⟩)
  have listed : ∀ e ∈ heldBlocks places n ++ o.extents, e ∈ o'.extents := by
    rw [← (Prod.mk.inj same).2]
    exact fun _ he => he
  have old : (b.start, b.bytes.length) ∈ o.extents := DeviceMemory.mem_extents.2 ⟨b, hb, rfl⟩
  obtain ⟨c, hc, stays⟩ := DeviceMemory.mem_extents.1 (listed _ (List.mem_append_right _ old))
  obtain ⟨d, hd, own⟩ := DeviceMemory.mem_extents.1 (listed _ (List.mem_append_left _ held))
  obtain ⟨start, length⟩ := Prod.mk.inj stays
  obtain ⟨start', -⟩ := Prod.mk.inj own
  have before := older _ old
  have apart := (h.sound.accelerator.memory hk).apart c hc d hd (by omega)
  omega

/-- A byte of a section that a place holds lies in the block of the place, which is new. -/
theorem exists_among_at (sound : l.Sound) (hp : p ∈ places) (pos : 0 < n p) (space : p.InSpace)
    (inside : p.contains first = true) {i : Nat} (upper : first + i < p.hostEnd) :
    ∃ m ∈ k.device.mappings.among places, ∃ j < m.length,
      p.translate first + i = m.deviceBegin + j ∧ first + i = m.hostBegin + j ∧
        l.byte? (m.deviceBegin + j) = none := by
  obtain ⟨lower, -⟩ := Mapping.contains_iff.1 inside
  have place := Mapping.translate_eq space inside
  refine ⟨p.counted (n p), (h.mem_among fit).2 ⟨p, hp, pos, rfl⟩, first + i - p.hostBegin, ?_, ?_, ?_,
    h.byte?_fresh fit sound hp pos (Nat.le_add_right _ _)⟩
  · change _ < p.hostEnd - p.hostBegin
    omega
  · change _ = p.deviceBegin + _
    omega
  · change _ = p.hostBegin + _
    omega

end Occupied

end Link

end Offloading
