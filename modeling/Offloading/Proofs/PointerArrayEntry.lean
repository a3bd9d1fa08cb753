import Offloading.Proofs.EnteredBytes
import Offloading.Proofs.PointerArrays
import Offloading.Proofs.Recording
/-!
# Entering with pointer arrays

What a device holds of an array when a region with it was entered. The pointers of the elements that are not
null are remembered, if they were patched; an element that is null stays null there, whether the array was
copied or not.
-/

namespace Offloading

namespace Argument

variable {a : Argument} {host : HostMemory} {size slot other addr : Nat}

/-- The address belongs to an element of the array that is not null. -/
def InElement (a : Argument) (host : HostMemory) (addr : Nat) : Prop :=
  ∃ slot ∈ a.slots, host.readPointer slot ≠ 0 ∧ slot ≤ addr ∧ addr < slot + Word.bytes

/-- Every address of an array that consists of whole elements belongs to one of them. -/
theorem exists_slot (whole : a.size % Word.bytes = 0) (h : a.hostSection.Holds addr) :
    ∃ slot ∈ a.slots, slot ≤ addr ∧ addr < slot + Word.bytes := by
  obtain ⟨lower, upper⟩ := h
  change a.start ≤ addr at lower
  change addr < a.start + a.size at upper
  have there : (addr - a.start) / Word.bytes < a.size / Word.bytes := by
    rw [Word.bytes] at whole ⊢
    omega
  refine ⟨_, List.mem_map.2 ⟨(addr - a.start) / Word.bytes, List.mem_range.2 there, rfl⟩, ?_⟩
  rw [Word.bytes]
  omega

end Argument

namespace HostMemory

/-- A null pointer consists of zeros. -/
theorem byte_null {m : HostMemory} {slot addr : Nat} (null : m.readPointer slot = 0) (lower : slot ≤ addr)
    (upper : addr < slot + Word.bytes) : m.byte addr = 0 := by
  have bytes : Word.toBytes 0 = m.read slot Word.bytes := null ▸ m.toBytes_readPointer slot
  have here : (Word.toBytes 0)[addr - slot]? = some (m.byte addr) := by
    rw [bytes, getElem?_read (by omega), Nat.add_sub_cancel' lower]
  rw [show Word.toBytes 0 = List.replicate Word.bytes 0 from rfl] at here
  exact List.eq_of_mem_replicate (List.mem_of_getElem? here)

end HostMemory

/-! ## What is remembered -/

/-- Since `l`, an array and its rows were mapped, and what is remembered in them are pointers of the array. -/
structure ArrayHeld (settings : Settings) (a : Argument) (size : Nat) (host : HostMemory) (l : Link)
    (places : List Mapping) (k : Link) : Prop where
  outstanding : l.Outstanding places (a.arraySections host size) k
  own : ∀ p ∈ places, ∃ e ∈ a.arraySections host size, p.IsOf e
  remembers : settings.config.translatesOnDevice = false → ∀ slot ∈ a.slots, host.readPointer slot ≠ 0 →
    k.device.Remembers slot
  faithful : ∀ x ∈ k.device.shadows, (∀ e ∈ a.arraySections host size, ¬ e.Holds x.hostSlot) ∨
    x.hostSlot ∈ a.slots ∧ host.readPointer x.hostSlot ≠ 0 ∧ x.hostValue = host.readPointer x.hostSlot

/-- Each place is held for a section that starts in it. -/
theorem ArrayHeld.touches_pos {settings : Settings} {a : Argument} {size : Nat} {host : HostMemory}
    {l k : Link} {places : List Mapping} {p : Mapping} (h : ArrayHeld settings a size host l places k)
    (hp : p ∈ places) : 0 < p.touches (a.arraySections host size) := by
  obtain ⟨e, he, own⟩ := h.own p hp
  have begins := h.outstanding.fit.nonempty p hp
  refine List.countP_pos_iff.2 ⟨e, he, Mapping.contains_iff.2 ?_⟩
  rw [← own.first]
  exact ⟨Nat.le_refl _, begins⟩

namespace Region

open RegionM

variable {settings : Settings} {a : Argument} {s s' : RegionState} {u : Unit} {size : Nat}

/-- The placements of an array are those of its plans. -/
theorem placements_array (list : s.arguments.IsPointerArray a size) :
    placements settings s = placementsOf settings false (a.arrayPlans size) s := by
  have unpadded : isPadded s.arguments 0 a = false := by
    rw [isPadded, list.array.nested]
    rfl
  rw [placements, show s.arguments.size = 1 from congrArg List.length list.arguments]
  change placementsAt settings 0 s ++ [] = _
  rw [List.append_nil, placementsAt, ArgumentList.get_eq_ok.2 list.getElem?, list.plans]
  dsimp only
  rw [list.array.isMapped, if_pos rfl, unpadded]

/-- The placements of an array have its sections and the slots of its elements. -/
theorem of_placements_array (list : s.arguments.IsPointerArray a size)
    (entered : Returns (enter settings) s u s') :
    (∀ p ∈ placements settings s, p.Of settings false a.unnested ∨
      ∃ slot ∈ a.slots, s.host.readPointer slot ≠ 0 ∧
        p.Of settings false (a.rowRegion size slot (s.host.readPointer slot))) ∧
    ∀ slot ∈ a.slots, s.host.readPointer slot ≠ 0 → ∃ p ∈ placements settings s,
      p.Of settings false (a.rowRegion size slot (s.host.readPointer slot)) := by
  obtain ⟨s₁, mapped, -⟩ := returns_enter_array list entered
  obtain ⟨sources, reached⟩ := placementsOf_of_mapPlans (fun plan hp host r found => by
    rcases Argument.resolve_arrayPlans hp found with rfl | ⟨slot, -, -, rfl⟩
    · exact list.array.isMapped_unnested
    · exact Argument.isMapped_rowRegion) mapped
  rw [placements_array list]
  refine ⟨fun p hp => ?_, fun slot mem live => ?_⟩
  · obtain ⟨plan, hp, r, found, of⟩ := sources p hp
    rcases Argument.resolve_arrayPlans hp found with rfl | ⟨slot, mem, live, rfl⟩
    · exact .inl of
    · exact .inr ⟨slot, mem, live, of⟩
  · have plan : RegionPlan.pointee slot size a.rowType ∈ a.arrayPlans size :=
      List.mem_cons_of_mem _ (List.mem_map_of_mem mem)
    exact reached _ plan _ (Argument.resolve_pointee live)

/-- The placement of an array has no pointer. -/
theorem pointer?_array {p : Placement} (array : a.PointerArray) (h : p.Of settings false a.unnested) :
    p.pointer? = none := by
  have pointer := h.pointer
  rw [array.pointer_unnested] at pointer
  exact Option.map_eq_none_iff.1 pointer

/-- The placement of a row has the slot of the element as its pointer. -/
theorem pointer?_row {p : Placement} {slot start : Nat}
    (h : p.Of settings false (a.rowRegion size slot start)) :
    ∃ q, p.pointer? = some q ∧ q.hostSlot = slot := by
  have pointer := h.pointer
  rw [show (a.rowRegion size slot start).mapType.has .pointerAndObject = true from
    Argument.pointer_rowType, if_pos rfl] at pointer
  exact Option.map_eq_some_iff.1 pointer

/-- An array that goes to the device is copied as a whole, since it is mapped anew. -/
theorem exists_placement_array (sound : s.activation.link.Sound) (list : s.arguments.IsPointerArray a size)
    (untouched : ∀ m ∈ s.activation.link.device.mappings, m.Untouched a.hostSection)
    (goes : a.mapType.has .toDevice = true) (pos : 0 < a.size) (entered : Returns (enter settings) s u s') :
    ∃ p ∈ placements settings s, ∃ target, p.first = a.start ∧ p.size = a.size ∧
      p.target? = some target ∧ p.content = s.host.read a.start a.size := by
  obtain ⟨s₁, mapped, -⟩ := returns_enter_array list entered
  rw [Argument.arrayPlans, mapPlans, returns_get_bind] at mapped
  obtain ⟨base, s₂, seed, -⟩ := returns_bind.1 mapped
  obtain ⟨p, s₃, placed, -, -⟩ := returns_mapRegion_place seed list.array.isMapped_unnested
  have there : p ∈ placements settings s := by
    rw [placements_array list, Argument.arrayPlans, placementsOf]
    refine List.mem_append_left _ (Option.mem_toList.2 ?_)
    rw [placement?, list.array.isMapped_unnested, if_pos rfl, placed]
    rfl
  refine ⟨p, there, ?_⟩
  obtain ⟨pointer?, s₄, mapped?, l, content, first, bytes, base, sec, pointer, -, took, decided, rfl⟩ :=
    returns_place.1 placed
  obtain ⟨rfl, rfl⟩ := Prod.mk.inj sec
  rcases returns_mapPointer pointer with ⟨-, -, rfl⟩ | ⟨owns, -⟩
  · rcases Device.returns_map took with ⟨m, found, -⟩ | ⟨-, empty, -⟩ | ⟨-, -, addr, l₁, -, rfl, -⟩
    · cases found.symm.trans (MappingTable.lookup_untouched sound.mappings untouched)
    · exact absurd empty (Nat.ne_of_gt pos)
    · refine ⟨addr, rfl, rfl, rfl, ?_⟩
      rw [contentIn, Argument.has_unnested (by decide) (by decide), goes, if_pos rfl] at decided
      obtain ⟨copies, s₅, asked, read⟩ := returns_bind.1 decided
      obtain ⟨rfl, rfl⟩ := returns_pure.1 asked
      obtain ⟨rfl, -⟩ := returns_pure.1 read
      rfl
  · rw [list.array.pointer_unnested] at owns
    cases owns

section entered

variable (sound : s.activation.link.Sound) (idle : s.activation.queue = {})
  (list : s.arguments.IsPointerArray a size) (entered : Returns (enter settings) s u s')

include list entered

/-- A pointer of a placement is the slot of an element that is not null. -/
theorem slot_of_placement {p : Placement} {q : MappedPointer} (hp : p ∈ placements settings s)
    (hq : p.pointer? = some q) : q.hostSlot ∈ a.slots ∧ s.host.readPointer q.hostSlot ≠ 0 := by
  rcases (of_placements_array list entered).1 p hp with seed | ⟨slot, mem, live, row⟩
  · rw [pointer?_array list.array seed] at hq
    cases hq
  · obtain ⟨q', hq', rfl⟩ := pointer?_row row
    cases hq.symm.trans hq'
    exact ⟨mem, live⟩

include sound idle

/-- When a region with a pointer array was entered where nothing touches its sections, the device holds the
array and its rows and remembers the pointers of the elements. -/
theorem arrayHeld_enter (apart : a.RowsApart s.host size)
    (clear : s.activation.link.Clear (a.arraySections s.host size)) :
    s'.arguments = s.arguments ∧ ∃ places,
      ArrayHeld settings a size s.host s.activation.link places s'.activation.link := by
  obtain ⟨arguments, places, outstanding, own⟩ := outstanding_enter sound list apart clear.untouched entered
  refine ⟨arguments, places, outstanding, own, fun direct slot mem live => ?_, fun x hx => ?_⟩
  · obtain ⟨p, hp, of⟩ := (of_placements_array list entered).2 slot mem live
    obtain ⟨q, hq, same⟩ := pointer?_row of
    obtain ⟨x, hx, there, -⟩ := recorded_enter sound idle direct entered ⟨p, hp, q, hq, same, rfl⟩
    exact ⟨x, hx, there⟩
  · have records := (records_enter settings idle).shadows x
    rw [entered] at records
    rcases records hx with old | points
    · exact .inl fun e he => clear.forgotten e he x old
    · have value := points.value
      obtain ⟨p, hp, q, hq, same, -⟩ := points
      obtain ⟨mem, live⟩ := slot_of_placement list entered hp hq
      rw [same] at mem live
      exact .inr ⟨mem, live, value⟩

/-! ## What the copy of the array holds -/

variable {places : List Mapping} {p : Mapping} {i : Nat} {v : UInt8}
  (held : ArrayHeld settings a size s.host s.activation.link places s'.activation.link)
  (space : ∀ p ∈ places, p.InSpace)

include held space

omit idle in
/-- The array and its rows are placed in the places that were made for them. -/
theorem placedIn_array : PlacedIn (s'.activation.link.device.mappings.among places) s.host
    (placements settings s) := by
  have outstanding := held.outstanding
  refine outstanding.placedIn outstanding.fit (fun p hp => held.touches_pos hp) space (given_enter sound entered)
    (fun p hp => outstanding.lodged _ (Argument.mem_arraySections.2 ?_))
    fun p hp q hq => outstanding.lodged _ (Argument.mem_arraySections.2 ?_)
  · rcases (of_placements_array list entered).1 p hp with seed | ⟨slot, mem, live, row⟩
    · obtain ⟨first, size⟩ := Prod.mk.inj seed.frame
      rw [← first, ← size]
      exact .inl rfl
    · obtain ⟨first, size⟩ := Prod.mk.inj row.frame
      rw [← first, ← size]
      exact .inr ⟨slot, mem, live, .inr rfl⟩
  · obtain ⟨mem, live⟩ := slot_of_placement list entered hp hq
    exact .inr ⟨_, mem, live, .inl rfl⟩

variable (hp : p ∈ places) (inside : p.contains a.start = true) (hi : i < a.size)

include idle hp inside hi

/-- A byte of the array's copy is the host's, if it belongs to no element that is patched: where an element is
null, it is zero anyway. -/
theorem null_enter (hv : s'.activation.link.byte? (p.translate a.start + i) = some v)
    (outside : ¬ a.InElement s.host (a.start + i)) : v = s.host.byte (a.start + i) := by
  have outstanding := held.outstanding
  have lodged := outstanding.lodged a.hostSection (Argument.mem_arraySections.2 (.inl rfl))
  have stop : a.start + a.size ≤ p.hostEnd := outstanding.fit.stop_le lodged hp inside
  obtain ⟨m, hm, j, hj, place, same, fresh⟩ :=
    outstanding.exists_among_at outstanding.fit sound hp (held.touches_pos hp) (space p hp) inside (i := i)
      (by omega)
  have within : ∀ m ∈ s'.activation.link.device.mappings.among places,
      m ∈ s'.activation.link.device.mappings := fun m hm => (MappingTable.mem_among.1 hm).1
  have holds : a.hostSection.Holds (a.start + i) := ⟨Nat.le_add_right _ _, Nat.add_lt_add_left hi _⟩
  obtain ⟨slot, mem, lower, upper⟩ := Argument.exists_slot list.array.whole holds
  have null : s.host.readPointer slot = 0 :=
    Classical.byContradiction fun live => outside ⟨slot, mem, live, lower, upper⟩
  rw [place] at hv
  rcases byte_enter sound idle entered (placedIn_array sound list entered held space) within hm hj fresh hv
    with rfl | rfl | ⟨q, hq, x, hx, begins, ends⟩
  · rw [HostMemory.byte_null null lower upper]
  · rw [same]
  · obtain ⟨pointer, hp, rfl⟩ := Placement.patch?_eq_some hx
    obtain ⟨mem, live⟩ := slot_of_placement list entered hq hp
    rw [← same] at begins ends
    exact absurd ⟨_, mem, live, begins, ends⟩ outside

/-- An array that goes to the device is copied there, unless pointers are patched. -/
theorem copied_enter (translates : settings.config.translatesOnDevice = true)
    (goes : a.mapType.has .toDevice = true) :
    s'.activation.link.byte? (p.translate a.start + i) = some (s.host.byte (a.start + i)) := by
  have outstanding := held.outstanding
  have lodged := outstanding.lodged a.hostSection (Argument.mem_arraySections.2 (.inl rfl))
  have placed := placedIn_array sound list entered held space
  have within : ∀ m ∈ s'.activation.link.device.mappings.among places,
      m ∈ s'.activation.link.device.mappings := fun m hm => (MappingTable.mem_among.1 hm).1
  have unpatched : ∀ p ∈ placements settings s, p.patch? settings = none := fun p _ => by
    rw [Placement.patch?, translates, if_pos rfl]
  obtain ⟨q, hq, target, first, bytes, ht, content⟩ := exists_placement_array sound list lodged.untouched goes
    (Nat.lt_of_le_of_lt (Nat.zero_le i) hi) entered
  -- the copy of the array lies in the place that the array starts in
  have same : target = p.translate a.start := by
    obtain ⟨m, hm, inside', -, rfl⟩ := placed.lodges_section hq ht
    obtain ⟨p', hp', -, rfl⟩ := (outstanding.mem_among outstanding.fit).1 hm
    rw [first] at inside' ⊢
    obtain rfl := outstanding.fit.eq_of_contains hp hp' inside inside'
    exact (Mapping.translate_eq (space p hp) inside).symm
  refine byte_enter_copied placed unpatched sound idle entered within hq ht ?_
  rw [Chunk.byte?_eq_some_iff, content, same]
  refine ⟨Nat.le_add_right _ _, ?_⟩
  dsimp only
  rw [Nat.add_sub_cancel_left, HostMemory.getElem?_read hi]

end entered

end Region

end Offloading
