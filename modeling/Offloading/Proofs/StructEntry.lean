import Offloading.Proofs.PointerStructs
/-!
# Mapping structs with pointers

Entering a region maps its arguments one by one. Before the argument at a position is mapped, the device
shares the sections of the arguments before it, and there is room for the blocks of those from it on. So the
argument gets a new mapping, and all bytes of its section are to be sent.
-/

namespace Offloading

/-! ## Sections and their blocks -/

/-- The device shares the sections of the family as listed, their mappings have blocks of their own, and
there is room for the blocks of the sections to come. -/
structure Link.Accommodates (family : SectionFamily) (listed coming : List HostSection) (l : Link) :
    Prop where
  shares : l.Shares family listed
  houses : l.Houses family
  room : l.HasRoom coming

namespace Link

variable {l l' : Link} {family : SectionFamily} {s : HostSection} {listed coming : List HostSection}

theorem Accommodates.still (h : l.Accommodates family listed coming) (still : l.Still l') :
    l'.Accommodates family listed coming :=
  ⟨h.shares.still still, h.houses.still still, h.room.still still⟩

/-- What is shared depends on the mappings alone. -/
theorem Shares.of_entries (h : l.Shares family listed) (sound : l'.Sound)
    (same : l'.device.mappings.entries = l.device.mappings.entries) : l'.Shares family listed := by
  refine ⟨sound, fun s hs => ⟨fun none m hm => ?_, fun some => ?_⟩⟩
  · exact (h.hosts s hs).free none m ((MappingTable.mem_congr same).1 hm)
  · obtain ⟨m, hm, own, count⟩ := (h.hosts s hs).held some
    exact ⟨m, (MappingTable.mem_congr same).2 hm, own, count⟩

end Link

namespace Device

variable {l l' : Link} {family : SectionFamily} {s : HostSection} {listed coming : List HostSection}
  {first base size : Nat} {implicit : Bool} {r : Option MappedSection}

/-- A section that is not listed gets a mapping and a block. -/
theorem accommodates_map (h : l.Accommodates family listed (s :: coming)) (hs : s ∈ family)
    (fresh : s ∉ listed) (mapped : Returns (map s.first base s.size false true) l r l') :
    l'.Accommodates family (s :: listed) coming ∧ ∃ addr, r = some ⟨addr, true⟩ := by
  have none : listed.count s < ReferenceCount.infinite.value / 2 := by
    rw [List.count_eq_zero.2 fresh]
    decide
  obtain ⟨shares, addr, rfl⟩ := shares_map h.shares hs none mapped
  exact ⟨⟨shares, houses_map h.shares.sound h.houses mapped, hasRoom_map h.room mapped⟩,
    addr, by simp [fresh]⟩

/-- A part of a listed section is found in the mapping of the section. -/
theorem accommodates_inside (h : l.Accommodates family listed coming) (hs : s ∈ family)
    (already : s ∈ listed) (lower : s.first ≤ first) (upper : first + size ≤ s.stop) (some : 0 < size)
    (mapped : Returns (map first base size implicit false) l r l') :
    l'.Accommodates family listed coming := by
  have sound' : l'.Sound := (along_map.returns mapped).toGrown.sound h.shares.sound
  have houses := houses_map h.shares.sound h.houses mapped
  have same : l'.device.mappings.entries = l.device.mappings.entries ∧ l'.memory? = l.memory? := by
    rcases returns_map mapped with ⟨m, found, -, -, rfl⟩ | ⟨-, empty, -⟩ | ⟨none, -⟩
    · refine ⟨?_, rfl⟩
      change (l.device.mappings.setCount m _).entries = _
      rw [if_neg Bool.false_ne_true, MappingTable.setCount_self (MappingTable.mem_of_lookup found)]
    · exact absurd empty (Nat.ne_of_gt some)
    · obtain ⟨n, hn, own, -⟩ := h.shares.exists_isOf hs already
      have begins := own.first
      have ends := own.stop
      have bound := SectionFamily.stop_le hs
      rcases h.shares.sound.mappings.lookup_none_apart none hn with ⟨-, before⟩ | ⟨after, -⟩
      · have := before (by omega)
        omega
      · omega
  refine ⟨h.shares.of_entries sound' same.1, houses, fun m hm => h.room m ?_⟩
  rw [← same.2]
  exact hm

end Device

/-! ## Placements -/

/-- The placement of an argument whose section is mapped and goes to the device as a whole. -/
structure Placement.Sends (host : HostMemory) (a : Argument) (p : Placement) : Prop where
  first : p.first = a.start
  size : p.size = a.size
  mapped : p.target?.isSome
  content : p.content = host.read a.start a.size
  pointer : p.pointer?.map (·.hostSlot) = if a.isPointer then some a.base else none
  base : a.isPointer = true → p.base = host.readPointer a.base

namespace Region

open RegionM

variable {settings : Settings} {s s' start : RegionState} {u : Unit} {alignment k : Nat} {a : Argument}
  {p : Placement}

/-- All bytes go to the device when the mapping is new. -/
theorem contentIn_of_new {first size addr : Nat} {content : List UInt8}
    (inbound : a.mapType.has .toDevice = true)
    (h : Returns (contentIn a first size (some ⟨addr, true⟩)) s content s') :
    content = s.host.read first size ∧ s' = s := by
  rw [contentIn, inbound, if_pos rfl] at h
  obtain ⟨copies, s₁, decided, h⟩ := returns_bind.1 h
  obtain ⟨rfl, rfl⟩ : copies = true ∧ s₁ = s := returns_pure.1 decided
  exact returns_pure.1 h

/-- Where the run through the arguments is at position `k`. -/
structure Entering (structs : start.arguments.PointerStructs alignment) (k : Nat) (s : RegionState) :
    Prop where
  device : s.activation.link.Accommodates structs.family (start.arguments.sections.take k)
    (start.arguments.sections.drop k)
  arguments : s.arguments = start.arguments
  host : s.host = start.host

variable (structs : start.arguments.PointerStructs alignment)

/-- The pointer of the argument at a position is found in the mapping of its struct. -/
theorem entering_mapPointer (ha : start.arguments.arguments[k]? = some a) (h : Entering structs k s)
    {pointer? : Option MappedPointer} (pointed : Returns (mapPointer a) s pointer? s') :
    Entering structs k s' ∧
      pointer?.map (·.hostSlot) = if a.isPointer then some a.base else none := by
  rcases returns_mapPointer pointed with ⟨plain, rfl, rfl⟩ | ⟨pointer, slot, l, mapped, rfl, rfl⟩
  · refine ⟨h, ?_⟩
    rw [show a.isPointer = false from plain]
    rfl
  · obtain ⟨struct, already, within⟩ := structs.slot_inside ha pointer
    rw [structs.isMember_eq_isPointer ha, show a.isPointer = true from pointer] at mapped
    have inside := structs.mem_family_iff.2 (List.mem_of_mem_take already)
    refine ⟨⟨?_, h.arguments, h.host⟩, ?_⟩
    · exact Device.accommodates_inside h.device inside already within.1 within.2
        (show 0 < Word.bytes by decide) mapped
    · rw [show a.isPointer = true from pointer]
      rfl

theorem entering_place (ha : start.arguments.arguments[k]? = some a) (h : Entering structs k s)
    {padded : Bool} (sec : mappedSection settings padded a = (a.start, a.size))
    (placed : Returns (place settings padded a) s p s') :
    p.Sends start.host a ∧ Entering structs (k + 1) s' := by
  have exchanged := structs.exchanged (List.mem_of_getElem? ha)
  have inside := structs.mem_family (List.mem_of_getElem? ha)
  obtain ⟨pointer?, s₁, mapped?, l, content, first, size, base, sec', pointed, rfl, mapped, decided, rfl⟩ :=
    returns_place.1 placed
  cases sec.symm.trans sec'
  obtain ⟨entering, slot⟩ := entering_mapPointer structs ha h pointed
  have device := entering.device
  rw [ArgumentList.sections_drop ha] at device
  have counts : (pointer?.isSome || !a.mapType.isMember) = true := by
    have some : pointer?.isSome = a.isPointer := by
      rw [← Option.isSome_map, slot]
      split
      · exact Eq.symm ‹_›
      · exact (Bool.eq_false_iff.2 ‹_›).symm
    rw [structs.isMember_eq_isPointer ha, some, Bool.or_not_self]
  rw [exchanged.implicit, counts] at mapped
  obtain ⟨device', addr, rfl⟩ := Device.accommodates_map (s := a.hostSection) device inside
    (structs.fresh ha) mapped
  obtain ⟨rfl, rfl⟩ := contentIn_of_new exchanged.toDevice decided
  have shares := device'.shares.congr (ArgumentList.count_sections_take ha)
  refine ⟨⟨rfl, rfl, rfl, ?_, slot, fun pointer => ?_⟩, ⟨shares, device'.houses, device'.room⟩,
    entering.arguments, entering.host⟩
  · rw [← entering.host]
    rfl
  · rw [pointer, if_pos rfl] at slot
    obtain ⟨q, rfl, here⟩ := Option.map_eq_some_iff.1 slot
    dsimp only
    rw [objectBase, here, entering.host]

/-- Mapping the argument at a position places its section. -/
theorem entering_mapArgument (aligned : settings.config.structAlignment = alignment)
    (ha : start.arguments.arguments[k]? = some a) (h : Entering structs k s)
    (ran : Returns (mapArgument settings k) s u s') :
    Entering structs (k + 1) s' ∧
      ∃ p, placementsAt settings k s = [p] ∧ p.Sends start.host a := by
  have exchanged := structs.exchanged (List.mem_of_getElem? ha)
  have here : s.arguments.arguments[k]? = some a := by rw [h.arguments, ha]
  have sec := structs.mappedSection aligned ha
  rw [← h.arguments] at sec
  rcases returns_mapArgument ran here exchanged.nested with ⟨unmapped, -⟩ | ⟨-, base?, s₁, l, mapped, rfl, same, -⟩
  · rw [exchanged.isMapped] at unmapped
    cases unmapped
  obtain ⟨p, s₂, placed, shipped, rfl⟩ := returns_mapRegion_place mapped exchanged.isMapped
  obtain rfl := same (by rw [exchanged.returnParam]; rfl)
  obtain ⟨sends, entering⟩ := entering_place structs ha h sec placed
  have sent := shipped.sent
  refine ⟨⟨entering.device.still sent.link, sent.arguments.trans entering.arguments,
    sent.host.trans entering.host⟩, p, ?_, sends⟩
  have found : placement? settings (isPadded s.arguments k a) a s = some p := by
    rw [placement?, if_pos exchanged.isMapped, placed]
    rfl
  rw [placementsAt, ArgumentList.get_eq_ok.2 here, plans_of_get here exchanged.nested]
  dsimp only [placementsOf, RegionPlan.resolve]
  rw [if_pos exchanged.isMapped, found]
  rfl

/-- Mapping the arguments from a position on places their sections one by one. -/
theorem entering_mapArguments (aligned : settings.config.structAlignment = alignment)
    (le : k ≤ start.arguments.size) (h : Entering structs k s)
    (ran : Returns (((List.range start.arguments.size).drop k).forM (mapArgument settings)) s u s') :
    Entering structs start.arguments.size s' ∧
      List.Forall₂ (fun a p => p.Sends start.host a) (start.arguments.arguments.drop k)
        (placementsOn settings ((List.range start.arguments.size).drop k) s) := by
  induction left : start.arguments.size - k generalizing k s with
  | zero =>
      have all : k = start.arguments.size := by omega
      subst all
      rw [List.drop_of_length_le (Nat.le_of_eq List.length_range)] at ran ⊢
      obtain ⟨-, rfl⟩ := returns_pure.1 ran
      rw [ArgumentList.size, List.drop_length]
      exact ⟨h, .nil⟩
  | succ n ih =>
      have lt : k < start.arguments.size := by omega
      have ha := List.getElem?_eq_getElem lt
      rw [drop_range lt] at ran ⊢
      obtain ⟨s₁, first, rest⟩ := returns_forM_cons.1 ran
      obtain ⟨entering, p, placed, sends⟩ := entering_mapArgument structs aligned ha h first
      obtain ⟨done, others⟩ := ih lt entering rest (by omega)
      have after : (exec (mapArgument settings k) s).2 = s₁ := congrArg Prod.snd first
      refine ⟨done, ?_⟩
      rw [List.drop_eq_getElem_cons lt, placementsOn, placed, after]
      exact .cons sends others

end Region

end Offloading
