import Offloading.Proofs.Recording
import Offloading.Proofs.StructEntry
/-!
# What kernels find

When the arguments of a region are structs with pointers, their placements do not get in each other's way:
no section is sent over a pointer that was patched before, and no two pointers share a slot. So what kernels
find does not depend on how parcels are queued. Every byte is a copy of the host's, except that each pointer
leads to the copy of its section.
-/

namespace Offloading

/-- The byte at an address belongs to a pointer of the arguments. -/
def ArgumentList.InSlot (args : ArgumentList) (addr : Nat) : Prop :=
  ∃ a ∈ args.arguments, a.isPointer = true ∧ a.slot.Has addr

/-- What the device copy of the argument's pointer holds when the copy of the section lies at `target`: it is as
far from there as the host's pointer is from the section. -/
def Argument.deviceValue (a : Argument) (host : HostMemory) (target : Nat) : Nat :=
  Word.sub target (Word.sub a.start (host.readPointer a.base))

/-- A device holds the bytes of host sections as kernels are to find them: all bytes are copies of the host's,
except that each pointer points at the copy of its section as the host's pointer points at the section. -/
structure Link.Presents (host : HostMemory) (args : ArgumentList) (l : Link) : Prop where
  bytes : ∀ a ∈ args.arguments, ∃ target, l.device.translate? a.start a.size = some target ∧
    ∀ i < a.size, ¬ args.InSlot (a.start + i) →
      l.byte? (target + i) = some (host.byte (a.start + i))
  pointers : ∀ a ∈ args.arguments, a.isPointer = true → ∃ slot target m,
    l.device.translate? a.base Word.bytes = some slot ∧
    l.device.translate? a.start a.size = some target ∧ l.memory? = some m ∧
    m.read slot Word.bytes = .ok (Word.toBytes (a.deviceValue host target))

namespace MappingTable

variable {t : MappingTable} {first size target i j : Nat}

theorem Lodges.part (h : t.Lodges first size target) (le : i + j ≤ size) (pos : 0 < j) :
    t.Lodges (first + i) j (target + i) := by
  obtain ⟨m, hm, inside, upper, rfl⟩ := h
  obtain ⟨lower, -⟩ := Mapping.contains_iff.1 inside
  exact ⟨m, hm, Mapping.contains_iff.2 ⟨by omega, by omega⟩, by omega, by omega⟩

end MappingTable

theorem Placement.Sends.slot {host : HostMemory} {a : Argument} {p : Placement}
    {q : Region.MappedPointer} (h : p.Sends host a) (hq : p.pointer? = some q) :
    a.isPointer = true ∧ q.hostSlot = a.base := by
  have pointer := h.pointer
  rw [hq] at pointer
  split at pointer
  · rename_i isPointer
    exact ⟨isPointer, Option.some.inj pointer⟩
  · cases pointer

/-- The placement of an argument, whose section and pointer lie in mappings of a table with their copies at
`target` and `slot`. -/
structure Placement.Laid (t : MappingTable) (host : HostMemory) (a : Argument) (target slot : Nat)
    (p : Placement) : Prop where
  sends : p.Sends host a
  lodges : t.Lodges a.start a.size target
  pointer : a.isPointer = true → p.pointer? = some ⟨a.base, slot⟩ ∧ t.Lodges a.base Word.bytes slot
  mapped : p.target? = some target

namespace Region

variable {settings : Settings} {s s' start : RegionState} {u : Unit} {alignment k : Nat} {a : Argument}
  {p : Placement} {ps : List Placement} {l : Link} {host : HostMemory}

/-- Entering a region with structs gives all sections mappings and blocks of their own. -/
theorem entered_structs (structs : start.arguments.PointerStructs alignment)
    (aligned : settings.config.structAlignment = alignment)
    (unmapped : start.activation.link.Accommodates structs.family [] start.arguments.sections)
    (entered : Returns (enter settings) start u s') :
    Entering structs start.arguments.size s' ∧
      List.Forall₂ (fun a p => p.Sends start.host a) start.arguments.arguments
        (placements settings start) := by
  rw [enter, returns_get_bind, returns_bind] at entered
  obtain ⟨_, s, mapped, flushed⟩ := entered
  obtain ⟨done, sends⟩ := entering_mapArguments structs aligned (Nat.zero_le _) ⟨unmapped, rfl, rfl⟩ mapped
  have sent := along_flush.returns flushed
  exact ⟨⟨done.device.still sent.link, sent.arguments.trans done.arguments, sent.host.trans done.host⟩,
    sends⟩

section placed

variable {args : ArgumentList} (structs : args.PointerStructs alignment)
  (device : l.Accommodates structs.family args.sections [])
  (sends : List.Forall₂ (fun a p => p.Sends host a) args.arguments ps)

include sends in
theorem sender_at {i : Nat} (hp : ps[i]? = some p) :
    ∃ a, args.arguments[i]? = some a ∧ p.Sends host a := by
  obtain ⟨lt, rfl⟩ := List.getElem?_eq_some_iff.1 hp
  have lt' : i < args.arguments.length := by rwa [sends.length_eq]
  exact ⟨args.arguments[i], List.getElem?_eq_getElem lt', sends.get lt' lt⟩

include structs device in
theorem holds_section {s : HostSection} (hs : s ∈ args.sections) :
    (l.device.mappings.ofFamily structs.family).Holds s.first s.size := by
  obtain ⟨m, hm, own, -⟩ := device.shares.exists_isOf (s := s) hs hs
  exact ⟨m, MappingTable.mem_ofFamily_of_isOf hm (structs.mem_family_iff.2 hs) own, Nat.le_of_eq own.first,
    Nat.le_of_eq own.stop.symm⟩

include sends in
theorem sender_of_mem (hp : p ∈ ps) : ∃ a ∈ args.arguments, p.Sends host a := by
  obtain ⟨i, hi⟩ := List.mem_iff_getElem?.1 hp
  obtain ⟨a, ha, sender⟩ := sender_at sends hi
  exact ⟨a, List.mem_of_getElem? ha, sender⟩

include structs device sends in
/-- The placements of structs and of what their pointers point at do not get in each other's way. -/
theorem undisturbed_structs (settings : Settings) :
    Undisturbed settings (l.device.mappings.ofFamily structs.family) ps where
  space := device.houses.inSpace device.shares.sound device.room
  sections p hp _ := by
    obtain ⟨a, ha, sender⟩ := sender_of_mem sends hp
    rw [sender.first, sender.size]
    exact holds_section structs device (structs.mem_family ha)
  slots p hp q hq := by
    obtain ⟨a, ha, sender⟩ := sender_of_mem sends hp
    obtain ⟨pointer, slot⟩ := sender.slot hq
    obtain ⟨i, hi⟩ := List.mem_iff_getElem?.1 ha
    obtain ⟨struct, mem, within⟩ := structs.slot_inside hi pointer
    obtain ⟨m, hm, lower, upper⟩ := holds_section structs device (List.mem_of_mem_take mem)
    obtain ⟨begins, ends⟩ := Argument.slot_inside.1 within
    rw [slot]
    exact ⟨m, hm, by omega, by omega⟩
  pointees p hp _ := by
    obtain ⟨a, -, sender⟩ := sender_of_mem sends hp
    exact sender.mapped
  spared := by
    refine List.pairwise_iff_getElem.2 fun i j hi hj lt x hx _ => ?_
    obtain ⟨a, ha, sender⟩ := sender_at sends (List.getElem?_eq_getElem hi)
    obtain ⟨b, hb, later⟩ := sender_at sends (List.getElem?_eq_getElem hj)
    obtain ⟨q, hq, rfl⟩ := Placement.patch?_eq_some hx
    obtain ⟨pointer, slot⟩ := sender.slot hq
    obtain ⟨struct, mem, within⟩ := structs.slot_inside ha pointer
    -- the struct comes before the pointer, and so before the later section
    have ne : struct ≠ b.hostSection := by
      intro same
      have fresh := structs.fresh hb
      rw [← same] at fresh
      exact fresh ((List.take_subset_take_left _ (Nat.le_of_lt lt)) mem)
    have apart := SectionFamily.apart_of_ne (structs.mem_family_iff.2 (List.mem_of_mem_take mem))
      (structs.mem_family (List.mem_of_getElem? hb)) ne
    obtain ⟨begins, ends⟩ := Argument.slot_inside.1 within
    rw [HostSection.Apart, HostSection.stop, HostSection.stop] at apart
    rw [later.first, later.size]
    dsimp only [Argument.hostSection] at apart ⊢
    rw [slot]
    omega
  unaliased := Link.Backed.unaliased device.houses device.shares.sound.within

include structs device in
private theorem mem_ofFamily_of_gives {t : HostSection} {m : Mapping} {first size target : Nat}
    (hs : t ∈ args.sections) (hm : m ∈ l.device.mappings) (gives : m.Gives first size target)
    (lower : t.first ≤ first) (upper : first + size ≤ t.stop) (pos : 0 < size) :
    m ∈ l.device.mappings.ofFamily structs.family := by
  refine MappingTable.mem_ofFamily_of_isOf hm (s := t) hs
    (device.shares.isOf (s := t) hs hm ?_).1
  rw [Mapping.Misses]
  rcases gives with ⟨inside, -⟩ | ⟨before, meets⟩
  · have bounds := Mapping.contains_iff.1 inside
    omega
  · have pos := device.shares.sound.mappings.nonempty m hm
    omega

include structs device sends in
/-- The mappings that placements were given are mappings of the sections. -/
theorem given_structs (given : ∀ p ∈ ps, p.Given l.device.mappings host) :
    ∀ p ∈ ps, p.Given (l.device.mappings.ofFamily structs.family) host := by
  intro p hp
  obtain ⟨a, ha, sender⟩ := sender_of_mem sends hp
  refine ⟨fun target ht => ?_, fun q hq => ?_, (given p hp).content⟩
  · obtain ⟨m, hm, gives⟩ := (given p hp).target target ht
    have mem := structs.mem_family ha
    refine ⟨m, mem_ofFamily_of_gives structs device mem hm gives ?_ ?_ ?_, gives⟩
    · exact Nat.le_of_eq sender.first.symm
    · rw [sender.first, sender.size]
      exact Nat.le_refl _
    · rw [sender.size]
      exact SectionFamily.size_pos mem
  · obtain ⟨m, hm, gives⟩ := (given p hp).pointer q hq
    obtain ⟨pointer, slot⟩ := sender.slot hq
    obtain ⟨i, hi⟩ := List.mem_iff_getElem?.1 ha
    obtain ⟨struct, mem, within⟩ := structs.slot_inside hi pointer
    obtain ⟨begins, ends⟩ := Argument.slot_inside.1 within
    rw [← slot] at begins ends
    exact ⟨m, mem_ofFamily_of_gives structs device (List.mem_of_mem_take mem) hm gives begins ends
      (by decide), gives⟩

include structs device sends in
/-- Each placement belongs to an argument, whose section and pointer lie in mappings of the sections. -/
theorem laid_structs (given : ∀ p ∈ ps, p.Given l.device.mappings host) {i : Nat}
    (hp : ps[i]? = some p) : ∃ a target slot, args.arguments[i]? = some a ∧
      p.Laid (l.device.mappings.ofFamily structs.family) host a target slot := by
  obtain ⟨a, ha, sender⟩ := sender_at sends hp
  have mem := List.mem_of_getElem? hp
  have undisturbed := undisturbed_structs structs device sends {}
  have given := given_structs structs device sends given
  have wf : (l.device.mappings.ofFamily structs.family).WellFormed :=
    device.shares.sound.within.mappings
  obtain ⟨target, ht⟩ := Option.isSome_iff_exists.1 sender.mapped
  have lodged := undisturbed.lodges_section wf given mem ht
  rw [sender.first, sender.size] at lodged
  cases hq : p.pointer? with
  | none =>
      refine ⟨a, target, 0, ha, sender, lodged, fun pointer => ?_, ht⟩
      have pointed := sender.pointer
      rw [hq, pointer] at pointed
      cases pointed
  | some q =>
      obtain ⟨-, slot⟩ := sender.slot hq
      have lodged' := undisturbed.lodges_slot wf given mem hq
      rw [slot] at lodged'
      exact ⟨a, target, q.deviceSlot, ha, sender, lodged, fun _ => ⟨by rw [hq, ← slot], lodged'⟩, ht⟩

end placed

end Region

section Laid

variable {settings : Settings} {alignment : Nat} {args : ArgumentList} {ps : List Placement}
  {t : MappingTable} {host : HostMemory} {a b : Argument} {p : Placement} {target slot addr : Nat}
  {c : Chunk} {v : UInt8}

theorem Placement.Laid.chunk_of_patch {x : PointerPatch} (h : p.Laid t host a target slot)
    (hx : p.patch? settings = some x) :
    a.isPointer = true ∧ x.chunk = ⟨slot, Word.toBytes (a.deviceValue host target)⟩ := by
  obtain ⟨q, hq, rfl⟩ := Placement.patch?_eq_some hx
  obtain ⟨pointer, -⟩ := h.sends.slot hq
  have same := (h.pointer pointer).1
  rw [hq, Option.some.injEq] at same
  subst same
  refine ⟨pointer, ?_⟩
  rw [PointerPatch.chunk, PointerPatch.deviceValue, h.mapped, h.sends.first, h.sends.base pointer]
  rfl

/-- The placements of the arguments in order. -/
def LaidOut (t : MappingTable) (host : HostMemory) (args : ArgumentList) (ps : List Placement) : Prop :=
  ∀ (i : Nat) (p : Placement), ps[i]? = some p → ∃ a target slot, args.arguments[i]? = some a ∧ p.Laid t host a target slot

theorem LaidOut.of_argument (h : LaidOut t host args ps) (length : args.arguments.length = ps.length)
    (ha : a ∈ args.arguments) : ∃ p ∈ ps, ∃ target slot, p.Laid t host a target slot := by
  obtain ⟨i, hi⟩ := List.mem_iff_getElem?.1 ha
  obtain ⟨lt, -⟩ := List.getElem?_eq_some_iff.1 hi
  have hp := List.getElem?_eq_getElem (length ▸ lt : i < ps.length)
  obtain ⟨b, target, slot, hb, laid⟩ := h i _ hp
  cases hi.symm.trans hb
  exact ⟨_, List.mem_of_getElem? hp, target, slot, laid⟩

/-- A patch writes the slot of a pointer. -/
theorem LaidOut.slot_of_patch (h : LaidOut t host args ps)
    (hc : c ∈ (Parcel.patches (ps.flatMap (Placement.parcels settings))).map PointerPatch.chunk)
    (hv : c.byte? addr = some v) : ∃ (i : Nat) (a : Argument) (p : Placement) (target slot : Nat),
      ps[i]? = some p ∧ args.arguments[i]? = some a ∧ p.Laid t host a target slot ∧
      a.isPointer = true ∧ c = ⟨slot, Word.toBytes (a.deviceValue host target)⟩ ∧
      slot ≤ addr ∧ addr < slot + Word.bytes := by
  obtain ⟨x, hx, rfl⟩ := List.mem_map.1 hc
  obtain ⟨p, hp, mem⟩ := List.mem_flatMap.1 (Parcel.mem_patches.1 hx)
  obtain ⟨i, hi⟩ := List.mem_iff_getElem?.1 hp
  obtain ⟨a, target, slot, ha, laid⟩ := h i p hi
  obtain ⟨pointer, chunk⟩ := laid.chunk_of_patch (Placement.mem_parcels_patch mem)
  rw [chunk] at hv ⊢
  obtain ⟨lower, upper⟩ := Chunk.bounds_of_byte? hv
  rw [Word.length_toBytes] at upper
  exact ⟨i, a, p, target, slot, hi, ha, laid, pointer, rfl, lower, upper⟩

/-- The slots of different pointers do not meet on the device. -/
theorem LaidOut.consistent_patches (settings : Settings) (structs : args.PointerStructs alignment) (unaliased : t.Unaliased)
    (h : LaidOut t host args ps) :
    Chunk.Consistent
      ((Parcel.patches (ps.flatMap (Placement.parcels settings))).map PointerPatch.chunk) := by
  rintro addr v w ⟨c, hc, hv⟩ ⟨d, hd, hw⟩
  obtain ⟨i, a, p, target, slot, hi, ha, laid, pointer, rfl, lower, upper⟩ := h.slot_of_patch hc hv
  obtain ⟨j, b, p', target', slot', hj, hb, laid', pointer', rfl, lower', upper'⟩ := h.slot_of_patch hd hw
  obtain ⟨pointed, first⟩ := laid.pointer pointer
  obtain ⟨pointed', second⟩ := laid'.pointer pointer'
  by_cases same : i = j
  · subst same
    cases hi.symm.trans hj
    cases ha.symm.trans hb
    cases pointed.symm.trans pointed'
    cases laid.mapped.symm.trans laid'.mapped
    exact Option.some.inj (hv.symm.trans hw)
  · have apart : a.base + Word.bytes ≤ b.base ∨ b.base + Word.bytes ≤ a.base :=
      structs.slots_apart ha hb same pointer pointer'
    exact absurd (show slot + (addr - slot) = slot' + (addr - slot') by omega)
      (first.apart second unaliased apart (by omega) (by omega))

/-- A byte outside of all slots is not patched. -/
theorem LaidOut.unpatched (unaliased : t.Unaliased) (h : LaidOut t host args ps)
    (lodges : t.Lodges a.start a.size target) {i : Nat} (hi : i < a.size)
    (outside : ¬ args.InSlot (a.start + i)) :
    Chunk.written ((Parcel.patches (ps.flatMap (Placement.parcels settings))).map PointerPatch.chunk)
      (target + i) = none := by
  refine Option.eq_none_iff_forall_ne_some.2 fun v hv => ?_
  obtain ⟨c, hc, shown⟩ := Chunk.shows_of_written hv
  obtain ⟨j, b, p, target', slot, hj, hb, laid, pointer, rfl, lower, upper⟩ := h.slot_of_patch hc shown
  obtain ⟨-, lodges'⟩ := laid.pointer pointer
  have apart : a.start + i + 1 ≤ b.base ∨ b.base + Word.bytes ≤ a.start + i := by
    refine Classical.byContradiction fun meets => outside ⟨b, List.mem_of_getElem? hb, pointer, ?_⟩
    have inside : b.base ≤ a.start + i ∧ a.start + i < b.base + Word.bytes := by omega
    exact inside
  exact (lodges.part (j := 1) hi Nat.one_pos).apart lodges' unaliased apart (i := 0)
    (j := target + i - slot) Nat.one_pos (by omega) (by omega)

/-- A section is copied byte by byte. -/
theorem Placement.Laid.copied (h : p.Laid t host a target slot) (hp : p ∈ ps)
    (consistent : Chunk.Consistent (Parcel.copies (ps.flatMap (Placement.parcels settings)))) {i : Nat}
    (hi : i < a.size) :
    Chunk.written (Parcel.copies (ps.flatMap (Placement.parcels settings))) (target + i) =
      some (host.byte (a.start + i)) := by
  refine consistent.written_eq_some_iff.2 ⟨⟨target, p.content⟩, Parcel.mem_copies.2 ⟨?_, ?_⟩, ?_⟩
  · refine List.mem_flatMap.2 ⟨p, hp, List.mem_append_left _ ?_⟩
    rw [h.mapped]
    exact List.mem_cons_self ..
  · intro none
    dsimp only at none
    rw [h.sends.content] at none
    have length := HostMemory.length_read host a.start a.size
    rw [none, List.length_nil] at length
    omega
  · rw [Chunk.byte?_eq_some_iff]
    refine ⟨Nat.le_add_right _ _, ?_⟩
    dsimp only
    rw [Nat.add_sub_cancel_left, h.sends.content, HostMemory.getElem?_read hi]

/-- A pointer is patched byte by byte. -/
theorem Placement.Laid.patched (direct : settings.config.translatesOnDevice = false)
    (h : p.Laid t host a target slot) (hp : p ∈ ps) (pointer : a.isPointer = true)
    (consistent : Chunk.Consistent
      ((Parcel.patches (ps.flatMap (Placement.parcels settings))).map PointerPatch.chunk)) {i : Nat}
    (hi : i < Word.bytes) :
    Chunk.written ((Parcel.patches (ps.flatMap (Placement.parcels settings))).map PointerPatch.chunk)
      (slot + i) = (Word.toBytes (a.deviceValue host target))[i]? := by
  obtain ⟨pointed, -⟩ := h.pointer pointer
  obtain ⟨x, found⟩ : ∃ x, p.patch? settings = some x :=
    ⟨_, Placement.patch?_of_pointer? direct pointed⟩
  obtain ⟨-, chunk⟩ := h.chunk_of_patch found
  have sent : Parcel.patch x ∈ ps.flatMap (Placement.parcels settings) := by
    refine List.mem_flatMap.2 ⟨p, hp, List.mem_append_right _ ?_⟩
    rw [found]
    exact List.mem_cons_self ..
  have lt : i < (Word.toBytes (a.deviceValue host target)).length := by
    rw [Word.length_toBytes]
    exact hi
  rw [List.getElem?_eq_getElem lt]
  refine consistent.written_eq_some_iff.2
    ⟨x.chunk, List.mem_map_of_mem (Parcel.mem_patches.2 sent), ?_⟩
  rw [chunk, Chunk.byte?_eq_some_iff]
  refine ⟨Nat.le_add_right _ _, ?_⟩
  dsimp only
  rw [Nat.add_sub_cancel_left, List.getElem?_eq_getElem lt]

/-- When all parcels have arrived, kernels find the bytes of the host and pointers to device copies. -/
theorem presents_structs {l before : Link} (structs : args.PointerStructs alignment)
    (direct : settings.config.translatesOnDevice = false)
    (device : l.Accommodates structs.family args.sections [])
    (length : args.arguments.length = ps.length)
    (laid : LaidOut (l.device.mappings.ofFamily structs.family) host args ps)
    (orderless : Orderless l.device (ps.flatMap (Placement.parcels settings)))
    (settled : Settled before (ps.flatMap (Placement.parcels settings)) l) : l.Presents host args := by
  have unaliased := Link.Backed.unaliased device.houses device.shares.sound.within
  have patches := laid.consistent_patches settings structs unaliased
  have translates : ∀ {first size target}, (l.device.mappings.ofFamily structs.family).Lodges first size
      target → l.device.translate? first size = some target := fun lodges =>
    lodges.translate? (device.houses.inSpace device.shares.sound device.room)
      (fun _ hm => (MappingTable.mem_ofFamily.1 hm).1) device.shares.sound.mappings
  constructor
  · intro a ha
    obtain ⟨p, hp, target, slot, here⟩ := laid.of_argument length ha
    refine ⟨target, translates here.lodges, fun i hi outside => ?_⟩
    rw [settled.bytes, laid.unpatched unaliased here.lodges hi outside,
      here.copied hp orderless.consistent hi]
    rfl
  · intro a ha pointer
    obtain ⟨p, hp, target, slot, here⟩ := laid.of_argument length ha
    obtain ⟨-, lodges⟩ := here.pointer pointer
    have long : (Word.toBytes (a.deviceValue host target)).length = Word.bytes := Word.length_toBytes _
    have bytes : ∀ i < (Word.toBytes (a.deviceValue host target)).length,
        (l.within structs.family).byte? (slot + i) = (Word.toBytes (a.deviceValue host target))[i]? := by
      intro i hi
      change l.byte? (slot + i) = _
      rw [settled.bytes, here.patched direct hp pointer patches (long ▸ hi), List.getElem?_eq_getElem hi]
      rfl
    obtain ⟨m, hm, read⟩ := Link.Backed.read device.houses device.shares.sound.within (long ▸ lodges)
      (by rw [long]; decide) bytes
    exact ⟨slot, target, m, translates lodges, translates here.lodges, hm, long ▸ read⟩

end Laid

namespace Region

variable {settings : Settings} {start s' : RegionState} {u : Unit} {alignment : Nat}

/-- What entering a region with structs leaves: every section has a mapping and a block of its own, kernels
find the bytes of the host there, and the host values of all pointers are remembered. -/
structure Offered (structs : start.arguments.PointerStructs alignment) (s : RegionState) : Prop where
  device : s.activation.link.Accommodates structs.family start.arguments.sections []
  arguments : s.arguments = start.arguments
  host : s.host = start.host
  presents : s.activation.link.Presents start.host start.arguments
  remembers : ∀ a ∈ start.arguments.arguments, a.isPointer = true →
    s.activation.link.device.Remembers a.base
  faithful : ∀ x ∈ s.activation.link.device.shadows, x ∈ start.activation.link.device.shadows ∨
    ∃ a ∈ start.arguments.arguments, a.isPointer = true ∧ x.hostSlot = a.base ∧
      x.hostValue = start.host.readPointer a.base

theorem offered_enter (structs : start.arguments.PointerStructs alignment)
    (aligned : settings.config.structAlignment = alignment)
    (direct : settings.config.translatesOnDevice = false) (idle : start.activation.queue = {})
    (unmapped : start.activation.link.Accommodates structs.family [] start.arguments.sections)
    (entered : Returns (enter settings) start u s') : Offered structs s' := by
  have sound := unmapped.shares.sound
  obtain ⟨entering, sends⟩ := entered_structs structs aligned unmapped entered
  have device := entering.device
  rw [ArgumentList.take_sections_size, ArgumentList.drop_sections_size] at device
  -- the placements are given by the mappings of the sections
  obtain ⟨s₁, n, mapped, flushed⟩ := returns_enter entered
  have given := given_mapArguments sound mapped
  rw [← ((Strategy.along_flush settings.strategy).returns flushed).mappings] at given
  have within : ∀ m ∈ s'.activation.link.device.mappings.ofFamily structs.family,
      m ∈ s'.activation.link.device.mappings := fun _ hm => (MappingTable.mem_ofFamily.1 hm).1
  have given' := given_structs structs device sends given
  have undisturbed := undisturbed_structs structs device sends settings
  have settled := settled_enter_within sound idle entered within given' undisturbed
  have orderless := undisturbed.orderless device.shares.sound.within.mappings given' within
    device.shares.sound.mappings
  have laid : LaidOut _ start.host start.arguments (placements settings start) :=
    fun _ _ hp => laid_structs structs device sends given hp
  refine ⟨device, entering.arguments, entering.host, ?_, fun a ha pointer => ?_, fun x hx => ?_⟩
  · exact presents_structs structs direct device sends.length_eq laid orderless settled
  · obtain ⟨p, hp, target, slot, here⟩ := laid.of_argument sends.length_eq ha
    obtain ⟨x, hx, same, -⟩ := recorded_enter sound idle direct entered
      ⟨p, hp, _, (here.pointer pointer).1, rfl, rfl⟩
    exact ⟨x, hx, same⟩
  · have records := (records_enter settings idle).shadows x
    rw [entered] at records
    rcases records hx with old | ⟨p, hp, q, hq, slot, value⟩
    · exact .inl old
    · obtain ⟨a, ha, sender⟩ := sender_of_mem sends hp
      obtain ⟨pointer, same⟩ := sender.slot hq
      exact .inr ⟨a, ha, pointer, slot.symm.trans same, value.symm.trans (sender.base pointer)⟩

end Region

end Offloading
