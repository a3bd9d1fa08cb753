import Offloading.Proofs.Operation
import Offloading.Proofs.Resolution
/-!
# Backed mappings

While no user memory is associated, every mapping has a block of its own, which is as long as its
section. So the copies of different sections do not meet, and what is written at a copy stays within
it.
-/

namespace Offloading

theorem Mapping.SamePlace.length {m n : Mapping} (h : m.SamePlace n) : m.length = n.length := by
  rw [Mapping.length, Mapping.length, h.hostBegin, h.hostEnd]

/-- An address below the section is displaced from the copy, and it may wrap around. -/
theorem Mapping.translate_before {m : Mapping} {addr : Nat} (space : m.InSpace)
    (nonempty : m.hostBegin < m.hostEnd) (before : addr < m.hostBegin) :
    m.translate addr + (m.hostBegin - addr) = m.deviceBegin ∨
      m.translate addr + (m.hostBegin - addr) = m.deviceBegin + Word.modulus := by
  have host := space.host
  have device := space.device
  rw [length] at device
  rw [Word.greatest] at host
  have distance : Word.sub addr m.hostBegin = Word.modulus - (m.hostBegin - addr) := by
    rw [Word.sub, Nat.mod_eq_of_lt (show m.hostBegin < Word.modulus by omega),
      Nat.mod_eq_of_lt (by omega)]
    omega
  rw [translate, distance, Word.add]
  by_cases wraps : m.deviceBegin < m.hostBegin - addr
  · rw [Nat.mod_eq_of_lt (by omega)]
    exact .inr (by omega)
  · have : m.deviceBegin + (Word.modulus - (m.hostBegin - addr)) =
        m.deviceBegin - (m.hostBegin - addr) + Word.modulus := by omega
    rw [this, Nat.add_mod_right, Nat.mod_eq_of_lt (by omega)]
    exact .inl (by omega)

namespace Link

variable {l l' : Link} {m n : Mapping} {addr first size : Nat} {content : List UInt8} {u : Unit}

/-- Every mapping has a block of its own. -/
structure Backed (l : Link) : Prop where
  /-- The block is as long as the section. -/
  block : ∀ e ∈ l.device.mappings, (e.deviceBegin, e.length) ∈ l.extents
  /-- No two mappings share a block. -/
  own : ∀ e ∈ l.device.mappings, ∀ n ∈ l.device.mappings, e.deviceBegin = n.deviceBegin →
    e.hostBegin = n.hostBegin

theorem mem_extents {p : Nat × Nat} :
    p ∈ l.extents ↔ ∃ m, l.memory? = some m ∧ p ∈ m.extents := by
  rw [extents]
  cases l.memory? with
  | none => simp
  | some m => simp

/-- Mappings that were there before stay backed as long as their blocks do. -/
theorem Backed.of_places (h : l.Backed) (places : l'.device.mappings.Extends l.device.mappings)
    (blocks : ∀ e ∈ l'.device.mappings, (e.deviceBegin, e.length) ∈ l.extents →
      (e.deviceBegin, e.length) ∈ l'.extents) : l'.Backed := by
  refine ⟨fun e he => blocks e he ?_, fun e he n hn same => ?_⟩
  · obtain ⟨d, hd, place⟩ := places e he
    rw [← place.deviceBegin, ← place.length]
    exact h.block d hd
  · obtain ⟨d, hd, place⟩ := places e he
    obtain ⟨k, hk, place'⟩ := places n hn
    rw [← place.hostBegin, ← place'.hostBegin]
    exact h.own d hd k hk (by rw [place.deviceBegin, place'.deviceBegin, same])

/-- The memory of a device as it was when only bytes have changed. -/
theorem Still.memory?_eq_some {k : DeviceMemory} (h : l.Still l') (hk : l'.memory? = some k) :
    ∃ m, l.memory? = some m ∧ m.layout = k.layout := by
  rw [Link.memory?, h.unit] at hk
  exact Accelerator.memory?_of_layouts h.layouts hk

/-- Moving bytes keeps the blocks where they are. -/
theorem extents_of_still (h : l.Still l') : l'.extents = l.extents := by
  rw [extents, extents]
  cases hm : l'.memory? with
  | some m =>
      obtain ⟨m', hm', same⟩ := h.memory?_eq_some hm
      rw [hm']
      exact (congrArg (fun layout => layout.2.2.2) same).symm
  | none =>
      cases hm' : l.memory? with
      | none => rfl
      | some m' =>
          rw [Link.memory?, ← h.unit] at hm'
          obtain ⟨m, found, -⟩ := Accelerator.memory?_of_layouts h.layouts.symm hm'
          rw [Link.memory?, found] at hm
          cases hm

theorem Backed.still (h : l.Backed) (still : l.Still l') : l'.Backed := by
  refine h.of_places (by rw [still.mappings]; exact .refl _) fun e _ block => ?_
  rwa [extents_of_still still]

/-- The memory of a device with a backed mapping, and the block of the mapping. -/
theorem Backed.block? (h : l.Backed) (hm : m ∈ l.device.mappings) :
    ∃ k, l.memory? = some k ∧ ∃ b ∈ k.blocks, b.start = m.deviceBegin ∧ b.bytes.length = m.length := by
  obtain ⟨k, hk, live⟩ := mem_extents.1 (h.block m hm)
  obtain ⟨b, hb, same⟩ := DeviceMemory.mem_extents.1 live
  obtain ⟨start, length⟩ := Prod.mk.inj same
  exact ⟨k, hk, b, hb, start, length⟩

/-- The copies of different sections do not meet. -/
theorem Backed.unaliased (h : l.Backed) (hl : l.Sound) : l.device.mappings.Unaliased := by
  intro m hm n hn ne
  obtain ⟨k, hk, b, hb, start, length⟩ := h.block? hm
  obtain ⟨k', hk', c, hc, start', length'⟩ := h.block? hn
  rw [hk, Option.some.injEq] at hk'
  subst hk'
  have apart := (hl.accelerator.memory hk).apart
  rw [← start, ← start', ← length, ← length']
  rcases Nat.lt_trichotomy b.start c.start with lower | same | upper
  · exact .inl (apart b hb c hc lower)
  · refine absurd (AddressMap.eq_of_address_eq hm hn (h.own m hm n hn ?_)) ne
    rw [← start, ← start', same]
  · exact .inr (apart c hc b hb upper)

/-- All of the copy of a section can be read. -/
theorem Backed.byte?_isSome (h : l.Backed) (hl : l.Sound) (hm : m ∈ l.device.mappings) {i : Nat}
    (hi : i < m.length) : (l.byte? (m.deviceBegin + i)).isSome := by
  obtain ⟨k, hk, b, hb, start, length⟩ := h.block? hm
  rw [byte?_of_memory? hk, (hl.accelerator.memory hk).byte?_isSome_iff]
  exact ⟨b, hb, by omega, by omega⟩

/-- What lies in a mapping can be read from its block. -/
theorem Backed.read {target : Nat} (h : l.Backed) (sound : l.Sound)
    (lodged : l.device.mappings.Lodges first content.length target) (some : 0 < content.length)
    (bytes : ∀ i < content.length, l.byte? (target + i) = content[i]?) :
    ∃ k, l.memory? = Option.some k ∧ k.read target content.length = .ok content := by
  obtain ⟨m, hm, inside, upper, rfl⟩ := lodged
  obtain ⟨lower, -⟩ := Mapping.contains_iff.1 inside
  obtain ⟨k, hk, b, hb, start, length⟩ := h.block? hm
  rw [Mapping.length] at length
  refine ⟨k, hk, (sound.accelerator.memory hk).read_eq hb (by omega) (by omega) some fun i hi => ?_⟩
  rw [← Link.byte?_of_memory? hk]
  exact bytes i hi

/-- A section is sent to where the mapping that it meets has it. If that meets the copy of a mapping, it
is the same mapping, and the section lies in it. -/
theorem Backed.lodges_of_submit (h : l.Backed) (hl : l.Sound) (space : l.device.mappings.InSpace)
    (hm : (l.device.mappings.lookup first size).mapping? = some m)
    (sent : Returns (Device.submit (m.translate first) content) l u l') (length : content.length = size)
    (hn : n ∈ l.device.mappings) {i : Nat} (hi : i < n.length)
    (meets : m.translate first ≤ n.deviceBegin + i ∧ n.deviceBegin + i < m.translate first + size) :
    n.contains first = true ∧ first + size ≤ n.hostEnd ∧
      m.translate first = n.deviceBegin + (first - n.hostBegin) := by
  have held := MappingTable.mem_of_lookup hm
  have unaliased := h.unaliased hl
  -- what is sent stays in the block of the mapping
  have within : n.deviceBegin ≤ m.translate first ∧
      m.translate first + size ≤ n.deviceBegin + n.length := by
    rcases Device.returns_submit sent with ⟨none, -⟩ | ⟨k, k', hk, written, -⟩
    · rw [none, List.length_nil] at length
      omega
    · obtain ⟨b, hb, lower, upper⟩ := DeviceMemory.write_block written fun none => by
        rw [none, List.length_nil] at length
        omega
      obtain ⟨k₂, hk₂, c, hc, start, long⟩ := h.block? hn
      rw [hk, Option.some.injEq] at hk₂
      subst hk₂
      have wf := hl.accelerator.memory hk
      have here := wf.atOrBelow?_eq hb (a := n.deviceBegin + i) (by omega) (by omega)
      rw [wf.atOrBelow?_eq hc (by omega) (by omega), Option.some.injEq] at here
      subst here
      omega
  have spaceM := space m held
  have spaceN := space n hn
  rcases MappingTable.lookup_cases hm with found | ⟨-, above, reaches⟩
  · obtain ⟨-, inside⟩ := MappingTable.containing?_mem found
    have target := Mapping.translate_eq spaceM inside
    obtain ⟨lower, upper⟩ := Mapping.contains_iff.1 inside
    have same : m = n := by
      refine (unaliased.eq held hn (i := first - m.hostBegin)
        (j := m.translate first - n.deviceBegin) ?_ ?_ ?_).1
      · rw [Mapping.length]
        omega
      · omega
      · omega
    subst same
    rw [Mapping.length] at within
    exact ⟨inside, by omega, target⟩
  · -- the section begins before the mapping, so its copy would begin outside of the block
    have before := (AddressMap.above?_eq_some_iff.1 above).2.1
    rw [Mapping.address_eq] at before
    rw [Word.saturatingAdd] at reaches
    have lower : first < m.hostBegin ∧ m.hostBegin < first + size := by omega
    rcases Mapping.translate_before spaceM (hl.mappings.nonempty m held) lower.1 with same | same
    · refine absurd (unaliased.eq held hn (i := 0) (j := m.deviceBegin - n.deviceBegin) ?_ ?_ ?_).1 ?_
      · have := hl.mappings.nonempty m held
        rw [Mapping.length]
        omega
      · omega
      · omega
      · rintro rfl
        omega
    · have := spaceN.device
      omega

/-- A new block for a new mapping is its own. -/
theorem Backed.allocated {k k' : DeviceMemory} (h : l.Backed) (wf : l.accelerator.WellFormed)
    (nonempty : 0 < m.length) (cases : ∀ n ∈ l'.device.mappings, n = m ∨ n ∈ l.device.mappings)
    (before : l.memory? = some k) (allocated : k.allocate m.length = (some m.deviceBegin, k'))
    (after : l'.memory? = some k') : l'.Backed := by
  have extents : l'.extents = (m.deviceBegin, m.length) :: l.extents := by
    rw [Link.extents_of_memory? after, Link.extents_of_memory? before,
      (wf.memory before).extents_allocate allocated, (DeviceMemory.allocate_eq_some allocated).1,
      Nat.max_eq_left nonempty]
  have older : ∀ n ∈ l.device.mappings, n.deviceBegin < m.deviceBegin := by
    intro n hn
    obtain ⟨k₀, hk, b, hb, start, -⟩ := h.block? hn
    rw [before, Option.some.injEq] at hk
    subst hk
    rw [← start, (DeviceMemory.allocate_eq_some allocated).1]
    exact (wf.memory before).start_lt hb
  refine ⟨fun n hn => ?_, fun n hn o ho same => ?_⟩
  · rw [extents]
    rcases cases n hn with rfl | hn
    · exact List.mem_cons_self ..
    · exact List.mem_cons_of_mem _ (h.block n hn)
  · rcases cases n hn with rfl | hn
    · rcases cases o ho with rfl | ho
      · rfl
      · exact absurd same (Nat.ne_of_gt (older o ho))
    · rcases cases o ho with rfl | ho
      · exact absurd same (Nat.ne_of_lt (older n hn))
      · exact h.own n hn o ho same

/-- Blocks that no mapping needs may be freed. -/
theorem Backed.freed {k k' : DeviceMemory} (h : l.Backed)
    (places : l'.device.mappings.Extends l.device.mappings)
    (spare : ∀ e ∈ l'.device.mappings, e.deviceBegin ≠ addr) (before : l.memory? = some k)
    (freed : k.free addr = (true, k')) (after : l'.memory? = some k') : l'.Backed := by
  refine h.of_places places fun e he block => ?_
  rw [extents_of_memory? before] at block
  rw [extents_of_memory? after, DeviceMemory.extents_free freed]
  exact List.mem_filter.2 ⟨block, bne_iff_ne.2 (spare e he)⟩

/-- The memories of other devices stay as they are. -/
theorem Confined.others (h : l.Confined l') {unit : Int} (other : unit ≠ l.device.unit) :
    l'.accelerator.memory? unit = l.accelerator.memory? unit := by
  rcases h.memories with same | ⟨m, m', hm, same⟩
  · exact Accelerator.memory?_congr same
  · rw [Accelerator.memory?_congr same]
    exact Accelerator.memory?_withMemory_ne hm other

/-! ## Giving back -/

/-- Bytes of the device may get lost and do not change otherwise. -/
def Fades (l l' : Link) : Prop := ∀ addr, l'.byte? addr = none ∨ l'.byte? addr = l.byte? addr

instance : Lasting Fades where
  refl _ _ := .inr rfl
  trans h h' addr := by
    rcases h' addr with none | same
    · exact .inl none
    · rw [same]
      exact h addr

theorem Fades.byte? {v : UInt8} (h : l.Fades l') (hv : l'.byte? addr = some v) :
    l.byte? addr = some v := by
  rcases h addr with none | same
  · rw [none] at hv
    cases hv
  · rw [← same, hv]

theorem fades_of_memory? (h : l'.memory? = l.memory?) : l.Fades l' := fun _ => .inr (byte?_congr h)

theorem fades_of_free {k k' : DeviceMemory} (wf : k.WellFormed) (before : l.memory? = some k)
    (freed : k.free addr = (true, k')) (after : l'.memory? = some k') : l.Fades l' := by
  intro a
  rw [byte?_of_memory? after, byte?_of_memory? before]
  cases hv : k'.byte? a with
  | none => exact .inl rfl
  | some v => exact .inr (wf.byte?_of_free freed hv).symm

/-- Nothing happened but that mappings, blocks and shadows went away. -/
structure Dwindled (l l' : Link) : Prop where
  confined : l.Confined l'
  places : l'.device.mappings.Extends l.device.mappings
  shadows : ∀ s ∈ l'.device.shadows, s ∈ l.device.shadows
  bytes : ∀ addr, l'.byte? addr = none ∨ l'.byte? addr = l.byte? addr

/-- A device on which mappings are backed only loses some of them, and the others stay backed. -/
def Sheds (l l' : Link) : Prop := l.Sound ∧ l.Backed → (l'.Sound ∧ l'.Backed) ∧ l.Dwindled l'

theorem dwindled_of_memories (unit : l'.device.unit = l.device.unit)
    (memories : l'.accelerator.memories = l.accelerator.memories)
    (places : l'.device.mappings.Extends l.device.mappings)
    (shadows : ∀ s ∈ l'.device.shadows, s ∈ l.device.shadows) : l.Dwindled l' := by
  refine ⟨.of_memories unit memories, places, shadows, fun addr => .inr ?_⟩
  refine byte?_congr ?_
  rw [memory?, memory?, unit, Accelerator.memory?_congr memories]

instance : Lasting Dwindled where
  refl l := dwindled_of_memories rfl rfl (.refl _) fun _ hs => hs
  trans {l l' l''} h h' := by
    exact ⟨Lasting.trans h.confined h'.confined, h'.places.trans h.places,
      fun s hs => h.shadows s (h'.shadows s hs), Lasting.trans (R := Fades) h.bytes h'.bytes⟩

instance : Lasting Sheds where
  refl l h := ⟨h, Lasting.refl l⟩
  trans h h' start := by
    obtain ⟨between, first⟩ := h start
    obtain ⟨done, second⟩ := h' between
    exact ⟨done, Lasting.trans first second⟩

/-- Everything of a device that its user can tell, but the counters. -/
def holdings (l : Link) : Int × MappingTable × ShadowTable × List DeviceMemory :=
  (l.device.unit, l.device.mappings, l.device.shadows, l.accelerator.memories)

theorem sheds_of_memories (unit : l'.device.unit = l.device.unit)
    (memories : l'.accelerator.memories = l.accelerator.memories)
    (wellFormed : l.device.mappings.WellFormed → l'.device.mappings.WellFormed)
    (places : l'.device.mappings.Extends l.device.mappings)
    (shadows : ∀ s ∈ l'.device.shadows, s ∈ l.device.shadows) : l.Sheds l' := by
  intro h
  have memory : l'.memory? = l.memory? := by
    rw [memory?, memory?, unit, Accelerator.memory?_congr memories]
  refine ⟨⟨⟨wellFormed h.1.mappings, ?_⟩, h.2.of_places places fun e _ block => ?_⟩,
    dwindled_of_memories unit memories places shadows⟩
  · intro m hm
    rw [memories] at hm
    exact h.1.accelerator m hm
  · rwa [extents_congr memory]

theorem sheds_of_holdings (h : l'.holdings = l.holdings) : l.Sheds l' := by
  simp only [holdings, Prod.mk.injEq] at h
  obtain ⟨unit, mappings, shadows, memories⟩ := h
  refine sheds_of_memories unit memories ?_ ?_ ?_
  · rw [mappings]
    exact id
  · rw [mappings]
    exact .refl _
  · rw [shadows]
    exact fun _ hs => hs

end Link

namespace Device

open DeviceM

variable {l l' : Link} {m : Mapping} {first size target : Nat} {updateRef force : Bool}

theorem along_retrieve_holdings : Along (Fixed Link.holdings) (retrieve target size) := by
  have counted : ∀ f, Along (Fixed Link.holdings) (count f) := fun _ => Along.modify fun _ => rfl
  refine Along.ite Along.pure (Along.get.bind fun _ => Along.bind ?_ fun _ =>
    (counted _).bind fun _ => Along.pure)
  have same : ∀ unit, Along Accelerator.SameMemories (Accelerator.retrieve unit target size) :=
    fun _ => (Accelerator.notes_retrieve Accelerator.Quiet.sameMemories).along
      (Accelerator.overlooks_of_memories fun h => h)
  refine lifts_call.along (same _) ?_
  intro l a same
  rw [Fixed, Link.holdings, Link.holdings, (Prod.mk.inj same).1]

theorem sheds_setCount {c : ReferenceCount} (hm : m ∈ l.device.mappings)
    (hc : l.Sound → 0 < c.value) : l.Sheds (l.withMappings (l.device.mappings.setCount m c)) := by
  intro h
  refine Link.sheds_of_memories rfl rfl (fun wf => wf.setCount hm (hc h.1))
    (MappingTable.extends_setCount hm c) (fun _ hs => hs) h

theorem along_hold_sheds : Along Link.Sheds (hold first size updateRef) := along_hold_of sheds_setCount

/-- Mapping a section uses a mapping that is there, or adds one with a new block. -/
theorem blocks_map {base : Nat} {implicit : Bool} {r : Option MappedSection}
    (mapped : Returns (map first base size implicit updateRef) l r l') :
    (l'.device.mappings.Extends l.device.mappings ∧ l'.memory? = l.memory?) ∨
      ∃ e k k', e.length = size ∧ 0 < size ∧
        (∀ n ∈ l'.device.mappings, n = e ∨ n ∈ l.device.mappings) ∧ l.memory? = some k ∧
        k.allocate e.length = (some e.deviceBegin, k') ∧ l'.memory? = some k' := by
  rcases returns_map mapped with ⟨m, hm, -, -, rfl⟩ | ⟨-, -, -, rfl⟩ | ⟨-, hs, addr, l₁, ha, -, hi⟩
  · exact .inl ⟨MappingTable.extends_setCount (MappingTable.mem_of_lookup hm) _, rfl⟩
  · exact .inl ⟨.refl _, rfl⟩
  · obtain ⟨k, k', before, allocated, wrote⟩ := returns_allocate ha
    obtain ⟨-, rfl⟩ := returns_insertMapping hi
    have length : Mapping.length ⟨base, first, first + size, addr, .one⟩ = size :=
      Nat.add_sub_cancel_left ..
    refine .inr ⟨⟨base, first, first + size, addr, .one⟩, k, k', length, hs, fun e he => ?_, before, ?_,
      wrote.memory? before⟩
    · rcases MappingTable.insert_cases l₁.device.mappings ⟨base, first, first + size, addr, .one⟩ with
        ⟨_, -, entries⟩ | ⟨-, -, -, entries⟩
      · rw [← wrote.mappings]
        exact .inr ((MappingTable.mem_congr entries).1 he)
      · rw [← MappingTable.mem_entries] at he
        change e ∈ (l₁.device.mappings.insert _).2.entries at he
        rw [entries] at he
        rw [← wrote.mappings]
        exact (AddressMap.mem_insert.1 he).imp_right (·.1)
    · rw [length]
      exact allocated

/-- A section that is mapped gets a block of its own. -/
theorem backed_map {base : Nat} {implicit : Bool} {r : Option MappedSection} (hl : l.Sound)
    (h : l.Backed) (mapped : Returns (map first base size implicit updateRef) l r l') : l'.Backed := by
  rcases blocks_map mapped with
    ⟨places, memory⟩ | ⟨e, k, k', length, hs, cases, before, allocated, after⟩
  · exact h.of_places places fun _ _ block => by rwa [Link.extents_congr memory]
  · exact h.allocated hl.accelerator (length ▸ hs) cases before allocated after

/-- A block that no mapping needs may be freed. -/
theorem sheds_free (spare : ∀ e ∈ l.device.mappings, e.deviceBegin ≠ target) :
    l.Sheds (exec (free target) l).2 := by
  intro h
  have moved : l.Moved (exec (free target) l).2 := along_free l
  rcases hf : exec (free target) l with ⟨e | _, l'⟩
  · obtain ⟨idle, -⟩ := free_error hf
    rw [hf] at moved
    obtain ⟨_, _, device⟩ := moved.device
    refine Link.sheds_of_memories idle.unit idle.memories ?_ ?_ ?_ h
    · rw [device]
      exact fun wf => wf
    · rw [device]
      exact .refl _
    · rw [device]
      exact fun _ hs => hs
  · obtain ⟨m, m', before, freed, wrote⟩ := returns_free hf
    rw [hf] at moved
    have after := wrote.memory? before
    have wf := h.1.accelerator.memory before
    have places : l'.device.mappings.Extends l.device.mappings := by
      rw [wrote.mappings]
      exact .refl _
    rw [← wrote.mappings] at spare
    refine ⟨⟨moved.extended.toGrown.sound h.1, h.2.freed places spare before freed after⟩,
      ⟨wrote.confined before, places, ?_, Link.fades_of_free wf before freed after⟩⟩
    rw [wrote.shadows]
    exact fun _ hs => hs

/-- A mapping that is removed takes its block along, or the block stays without an owner. -/
theorem sheds_removeMapping (hm : m ∈ l.device.mappings) : l.Sheds (exec (removeMapping m) l).2 := by
  intro h
  have stays : ∀ e ∈ (l.device.without m).mappings, e ∈ l.device.mappings ∧ e ≠ m := by
    intro e he
    obtain ⟨he, other⟩ := (MappingTable.mem_remove hm).1 he
    exact ⟨he, fun same => other (congrArg _ same)⟩
  have forgot : l.Sheds { l with device := l.device.without m } :=
    Link.sheds_of_memories rfl rfl (fun wf => wf.remove hm)
      (fun e he => ⟨e, (stays e he).1, .refl e⟩) fun s hs => (AddressMap.mem_eraseRange.1 hs).1
  have freed := sheds_free (l := { l with device := l.device.without m }) fun e he same => by
    obtain ⟨he, other⟩ := stays e he
    exact other (AddressMap.eq_of_address_eq he hm (h.2.own e he m hm same))
  rw [exec_removeMapping]
  exact Lasting.trans (R := Link.Sheds) forgot freed h

theorem along_unmap_sheds : Along Link.Sheds (unmap first size force) := 
  along_unmap_of sheds_setCount sheds_removeMapping

theorem along_visitShadows_sheds {lower upper : Nat} {erase : Bool} :
    Along Link.Sheds (visitShadows lower upper erase) := by
  refine along_device_bind fun l => Along.bind_at (x := modifyDevice _) ?_ fun _ => Along.pure
  refine Link.sheds_of_memories rfl rfl (fun wf => wf) (.refl _) fun s hs => ?_
  exact (ShadowTable.mem_visit.1 hs).1

end Device

end Offloading
