import Offloading.Proofs.Addresses
/-!
# Shared sections

Sections of host memory that several holders map as a whole and without overlaps. A device shares them
as listed if the sections that are listed have mappings of their own, held as often as they are listed,
and nothing is mapped where the others lie. Mapping a section lists it once more, and releasing it strikes
it from the list once.
-/

namespace Offloading

/-- A section of host memory. -/
structure HostSection where
  /-- The first byte. -/
  first : Nat
  /-- The number of bytes. -/
  size : Nat
  deriving DecidableEq, Repr

namespace HostSection

/-- One past the last byte. -/
def stop (s : HostSection) : Nat := s.first + s.size

/-- The sections have no byte in common. -/
def Apart (s s' : HostSection) : Prop := s.stop ≤ s'.first ∨ s'.stop ≤ s.first

instance : DecidableRel Apart := fun s s' =>
  inferInstanceAs (Decidable (s.stop ≤ s'.first ∨ s'.stop ≤ s.first))

end HostSection

/-- Finitely many non-empty sections that do not overlap and whose ends are words. -/
structure SectionFamily where
  /-- The sections. -/
  sections : List HostSection
  /-- No section is empty. -/
  nonempty : ∀ s ∈ sections, 0 < s.size
  /-- The sections end within the address space. -/
  bounded : ∀ s ∈ sections, s.stop ≤ Word.greatest
  /-- Any two sections are apart. -/
  apart : sections.Pairwise HostSection.Apart

namespace SectionFamily

variable {family : SectionFamily} {s s' : HostSection}

instance : Membership HostSection SectionFamily := ⟨fun family s => s ∈ family.sections⟩

instance : Decidable (s ∈ family) := inferInstanceAs (Decidable (s ∈ family.sections))

theorem size_pos (hs : s ∈ family) : 0 < s.size := family.nonempty s hs

theorem first_lt (hs : s ∈ family) : s.first < s.stop := Nat.lt_add_of_pos_right (size_pos hs)

theorem stop_le (hs : s ∈ family) : s.stop ≤ Word.greatest := family.bounded s hs

theorem apart_of_ne (hs : s ∈ family) (hs' : s' ∈ family) (ne : s ≠ s') : s.Apart s' := by
  obtain ⟨i, hi, rfl⟩ := List.getElem_of_mem hs
  obtain ⟨j, hj, rfl⟩ := List.getElem_of_mem hs'
  have apart := List.pairwise_iff_getElem.1 family.apart
  rcases Nat.lt_trichotomy i j with lt | rfl | gt
  · exact apart i j hi hj lt
  · exact absurd rfl ne
  · exact (apart j i hj hi gt).symm

theorem first_ne (hs : s ∈ family) (hs' : s' ∈ family) (ne : s ≠ s') : s.first ≠ s'.first := by
  intro same
  have lt := first_lt hs
  have lt' := first_lt hs'
  rcases apart_of_ne hs hs' ne with h | h
  · omega
  · omega

end SectionFamily

/-! ## Mappings of sections -/

namespace Mapping

variable {m n : Mapping} {s s' : HostSection}

/-- No byte of the section is mapped by the mapping. -/
def Misses (m : Mapping) (s : HostSection) : Prop := m.hostEnd ≤ s.first ∨ s.stop ≤ m.hostBegin

/-- The mapping is one of this very section. -/
structure IsOf (m : Mapping) (s : HostSection) : Prop where
  first : m.hostBegin = s.first
  stop : m.hostEnd = s.stop

theorem IsOf.of_samePlace (h : m.IsOf s) (same : n.SamePlace m) : n.IsOf s :=
  ⟨same.hostBegin.trans h.first, same.hostEnd.trans h.stop⟩

theorem IsOf.not_misses {family : SectionFamily} (h : m.IsOf s) (hs : s ∈ family) :
    ¬ m.Misses s := by
  have lt := SectionFamily.first_lt hs
  rw [Misses, h.first, h.stop]
  omega

theorem IsOf.misses (h : m.IsOf s) (apart : s.Apart s') : m.Misses s' := by
  rw [Misses, h.first, h.stop]
  exact apart

end Mapping

namespace MappingTable

variable {t u : MappingTable} {m n : Mapping} {s s' : HostSection} {family : SectionFamily} {k : Nat}

/-- The section is held `k` times: by a mapping of its own, or by none if `k` is zero. -/
structure Hosts (t : MappingTable) (s : HostSection) (k : Nat) : Prop where
  free : k = 0 → ∀ m ∈ t, m.Misses s
  held : 0 < k → ∃ m ∈ t, m.IsOf s ∧ m.refCount.value = k

/-- The mapping of a section is found by looking the section up. -/
theorem WellFormed.containing?_isOf (h : t.WellFormed) (hs : s ∈ family) (hm : m ∈ t)
    (here : m.IsOf s) : t.containing? s.first = some m := by
  have lt := SectionFamily.first_lt hs
  have le := SectionFamily.stop_le hs
  refine h.containing?_eq hm (Mapping.contains_iff.2 ⟨?_, ?_⟩) (by omega)
  · exact Nat.le_of_eq here.first
  · rw [here.stop]
    exact lt

theorem WellFormed.lookup_isOf (h : t.WellFormed) (hs : s ∈ family) (hm : m ∈ t) (here : m.IsOf s) :
    (t.lookup s.first s.size).mapping? = some m := by
  rw [lookup_of_containing? (h.containing?_isOf hs hm here)]

/-- Nothing is mapped where a section lies that meets no mapping. -/
theorem WellFormed.misses_of_lookup (h : t.WellFormed) (hs : s ∈ family)
    (none : (t.lookup s.first s.size).mapping? = none) (hm : m ∈ t) : m.Misses s := by
  have lt := SectionFamily.first_lt hs
  have le := SectionFamily.stop_le hs
  rcases h.lookup_none_apart none hm with ⟨-, before⟩ | ⟨-, after⟩
  · exact .inl (before (by omega))
  · by_cases far : m.hostBegin < Word.greatest
    · exact .inr (after far)
    · exact .inr (by omega)

/-- All other mappings miss the section of a mapping. -/
theorem WellFormed.misses_of_ne (h : t.WellFormed) (hs : s ∈ family) (hm : m ∈ t) (here : m.IsOf s)
    (hn : n ∈ t) (ne : n.hostBegin ≠ m.hostBegin) : n.Misses s := by
  have lt := SectionFamily.first_lt hs
  have le := SectionFamily.stop_le hs
  have first := here.first
  rcases Nat.lt_or_gt_of_ne ne with below | above
  · exact .inl (here.first ▸ h.apart n hn m hm below (by omega))
  · by_cases far : n.hostBegin < Word.greatest
    · exact .inr (here.stop ▸ h.apart m hm n hn above far)
    · exact .inr (by omega)

/-- A mapping of a section joins the table, in the place of one that the section had before. -/
theorem Hosts.insert (hs : s ∈ family) (hs' : s' ∈ family) (own : n.IsOf s)
    (entries : u.entries = t.entries.insert n) (pos : 0 < n.refCount.value)
    (here : s = s' → k = n.refCount.value) (there : s ≠ s' → t.Hosts s' k) : u.Hosts s' k := by
  have changed : ∀ m, m ∈ u ↔ m = n ∨ (m ∈ t ∧ m.hostBegin ≠ n.hostBegin) := by
    intro m
    rw [← mem_entries, entries]
    exact AddressMap.mem_insert
  by_cases same : s = s'
  · subst same
    refine ⟨fun zero => ?_, fun _ => ⟨n, (changed n).2 (.inl rfl), own, (here rfl).symm⟩⟩
    rw [here rfl] at zero
    omega
  · have old := there same
    refine ⟨fun zero m hm => ?_, fun pos => ?_⟩
    · rcases (changed m).1 hm with rfl | ⟨hm, -⟩
      · exact own.misses (SectionFamily.apart_of_ne hs hs' same)
      · exact old.free zero m hm
    · obtain ⟨m, hm, other, count⟩ := old.held pos
      refine ⟨m, (changed m).2 (.inr ⟨hm, ?_⟩), other, count⟩
      rw [other.first, own.first]
      exact (SectionFamily.first_ne hs hs' same).symm

/-- Without its mapping nothing is mapped where a section lies. -/
theorem WellFormed.hosts_remove (h : t.WellFormed) (hs : s ∈ family) (hs' : s' ∈ family) (hm : m ∈ t)
    (own : m.IsOf s) (here : s = s' → k = 0) (there : s ≠ s' → t.Hosts s' k) :
    (t.remove m.hostBegin).2.Hosts s' k := by
  by_cases same : s = s'
  · subst same
    refine ⟨fun _ n hn => ?_, fun pos => ?_⟩
    · obtain ⟨hn, ne⟩ := (mem_remove hm).1 hn
      exact h.misses_of_ne hs hm own hn ne
    · rw [here rfl] at pos
      omega
  · have old := there same
    refine ⟨fun zero n hn => old.free zero n ((mem_remove hm).1 hn).1, fun pos => ?_⟩
    obtain ⟨n, hn, other, count⟩ := old.held pos
    refine ⟨n, (mem_remove hm).2 ⟨hn, ?_⟩, other, count⟩
    rw [other.first, own.first]
    exact (SectionFamily.first_ne hs hs' same).symm

end MappingTable

/-! ## Devices that share sections -/

namespace Link

variable {l l' l'' : Link} {m : Mapping} {s : HostSection} {family : SectionFamily}
  {listed listed' : List HostSection}

/-- Every section of the family is held as often as it is listed. -/
structure Shares (family : SectionFamily) (listed : List HostSection) (l : Link) : Prop where
  sound : l.Sound
  hosts : ∀ s ∈ family, l.device.mappings.Hosts s (listed.count s)

theorem Shares.congr (h : l.Shares family listed) (same : ∀ s, listed'.count s = listed.count s) :
    l.Shares family listed' :=
  ⟨h.sound, fun s hs => (same s).symm ▸ h.hosts s hs⟩

theorem Shares.still (h : l.Shares family listed) (still : l.Still l') : l'.Shares family listed :=
  ⟨still.sound h.sound, fun s hs => still.mappings ▸ h.hosts s hs⟩

/-- A section that is listed has a mapping. -/
theorem Shares.exists_isOf (h : l.Shares family listed) (hs : s ∈ family) (mem : s ∈ listed) :
    ∃ m ∈ l.device.mappings, m.IsOf s ∧ m.refCount.value = listed.count s :=
  (h.hosts s hs).held (List.count_pos_iff.2 mem)

/-- A section that meets a mapping is listed. -/
theorem Shares.mem_listed (h : l.Shares family listed) (hs : s ∈ family)
    (hm : m ∈ l.device.mappings) (meets : ¬ m.Misses s) : s ∈ listed := by
  rcases Nat.eq_zero_or_pos (listed.count s) with none | some
  · exact absurd ((h.hosts s hs).free none m hm) meets
  · exact List.count_pos_iff.1 some

/-- A mapping that meets a section is the section's own, and its count says how often it is listed. -/
theorem Shares.isOf (h : l.Shares family listed) (hs : s ∈ family) (hm : m ∈ l.device.mappings)
    (meets : ¬ m.Misses s) : m.IsOf s ∧ m.refCount.value = listed.count s := by
  obtain ⟨n, hn, own, count⟩ := h.exists_isOf hs (h.mem_listed hs hm meets)
  by_cases same : m.hostBegin = n.hostBegin
  · rw [AddressMap.eq_of_address_eq hm hn same]
    exact ⟨own, count⟩
  · exact absurd (h.sound.mappings.misses_of_ne hs hn own hm same) meets

/-- The mapping of a section is made, or its count changes, and the list changes with it. -/
theorem Shares.insert (h : l.Shares family listed) (hs : s ∈ family) (sound : l'.Sound)
    (own : m.IsOf s)
    (entries : l'.device.mappings.entries = l.device.mappings.entries.insert m)
    (count : m.refCount.value = listed'.count s) (mem : s ∈ listed')
    (others : ∀ s', s ≠ s' → listed'.count s' = listed.count s') : l'.Shares family listed' := by
  refine ⟨sound, fun s' hs' => ?_⟩
  refine MappingTable.Hosts.insert hs hs' own entries ?_ (fun same => same ▸ count.symm) fun ne => ?_
  · rw [count]
    exact List.count_pos_iff.2 mem
  · rw [others s' ne]
    exact h.hosts s' hs'

/-- The mappings of all sections stay in place, or their blocks were released. -/
structure Follows (family : SectionFamily) (l l' : Link) : Prop extends l.Aged l' where
  kept : ∀ m ∈ l.device.mappings, ∀ s ∈ family, m.IsOf s →
    (∃ n ∈ l'.device.mappings, n.SamePlace m) ∨
      l'.accelerator.Retired l'.device.unit m.deviceBegin

instance : Lasting (Follows family) where
  refl l := ⟨Lasting.refl l, fun m hm _ _ _ => .inl ⟨m, hm, .refl m⟩⟩
  trans h h' := by
    refine ⟨Lasting.trans h.toAged h'.toAged, fun m hm s hs here => ?_⟩
    rcases h.kept m hm s hs here with ⟨n, hn, same⟩ | retired
    · rcases h'.kept n hn s hs (here.of_samePlace same) with ⟨n', hn', same'⟩ | retired
      · exact .inl ⟨n', hn', same'.trans same⟩
      · exact .inr (same.deviceBegin ▸ retired)
    · right
      rw [h'.unit]
      exact retired.aged h'.accelerator

theorem follows_of_extends (aged : l.Aged l')
    (grown : l.device.mappings.Extends l'.device.mappings) : l.Follows family l' :=
  ⟨aged, fun m hm _ _ _ => .inl (grown m hm)⟩

/-- The same, while nothing was mapped. -/
structure Releases (family : SectionFamily) (l l' : Link) : Prop extends l.Follows family l' where
  places : l'.device.mappings.Extends l.device.mappings

instance : Lasting (Releases family) where
  refl l := ⟨Lasting.refl l, .refl _⟩
  trans h h' := ⟨Lasting.trans h.toFollows h'.toFollows, h'.places.trans h.places⟩

theorem Still.releases (h : l.Still l') : l.Releases family l' := by
  refine ⟨follows_of_extends h.aged ?_, ?_⟩
  · rw [h.mappings]
    exact .refl _
  · rw [h.mappings]
    exact .refl _

end Link

/-! ## Mapping and releasing a section -/

namespace Device

variable {l l' : Link} {s : HostSection} {family : SectionFamily} {listed : List HostSection}

/-- Mapping a section lists it once more. The mapping is new exactly if the section was not listed. -/
theorem shares_map {base : Nat} {r : Option MappedSection} (shares : l.Shares family listed)
    (hs : s ∈ family) (room : listed.count s < ReferenceCount.infinite.value / 2)
    (mapped : Returns (map s.first base s.size false true) l r l') :
    l'.Shares family (s :: listed) ∧ ∃ addr, r = some ⟨addr, decide (s ∉ listed)⟩ := by
  have sound' : l'.Sound := (along_map.returns mapped).toGrown.sound shares.sound
  have wf := shares.sound.mappings
  have others : ∀ s', s ≠ s' → (s :: listed).count s' = listed.count s' :=
    fun _ ne => List.count_cons_of_ne ne
  have mem : s ∈ s :: listed := List.mem_cons_self ..
  rcases returns_map mapped with ⟨m, found, whole, rfl, after⟩ | ⟨-, empty, -⟩ |
    ⟨none, -, addr, l₁, allocated, rfl, inserted⟩
  · -- the section begins in the mapping that is found, so this is the section's own mapping
    obtain ⟨inside, -⟩ := MappingTable.containing?_of_not_isPartial found
      (whole.resolve_right Bool.false_ne_true)
    obtain ⟨hm, contains⟩ := MappingTable.containing?_mem inside
    have begins := Mapping.contains_iff.1 contains
    have already : s ∈ listed := shares.mem_listed hs hm (by
      have lt := SectionFamily.first_lt hs
      rw [Mapping.Misses]
      omega)
    obtain ⟨n, hn, own, count⟩ := shares.exists_isOf hs already
    have same : n = m := Option.some.inj ((wf.containing?_isOf hs hn own).symm.trans inside)
    subst same
    refine ⟨shares.insert (m := { n with refCount := n.refCount.increment }) hs sound'
      ⟨own.first, own.stop⟩ ?_ ?_ mem others, n.translate s.first, by simp [already]⟩
    · rw [after]
      rfl
    · rw [List.count_cons_self, ← count]
      exact ReferenceCount.value_increment (by omega)
  · exact absurd empty (Nat.ne_of_gt (SectionFamily.size_pos hs))
  · -- nothing is mapped where the section lies, so it gets a mapping of its own
    have absent : s ∉ listed := fun already => by
      obtain ⟨m, hm, own, -⟩ := shares.exists_isOf hs already
      exact own.not_misses hs (wf.misses_of_lookup hs none hm)
    obtain ⟨_, _, _, _, wrote⟩ := returns_allocate allocated
    obtain ⟨accepted, after⟩ := returns_insertMapping inserted
    refine ⟨shares.insert (m := ⟨base, s.first, s.first + s.size, addr, .one⟩) hs sound' ⟨rfl, rfl⟩
      ?_ ?_ mem others, addr, by simp [absent]⟩
    · rw [after, ← wrote.mappings]
      rcases MappingTable.insert_cases l₁.device.mappings
        ⟨base, s.first, s.first + s.size, addr, .one⟩ with ⟨e, failed, -⟩ | ⟨-, -, -, entries⟩
      · rw [failed] at accepted
        cases accepted
      · exact entries
    · rw [List.count_cons_self, List.count_eq_zero.2 absent]
      rfl

/-- Holding a section strikes it from the list once, except that the last time it stays. -/
theorem shares_hold {r : Option HeldSection} (shares : l.Shares family (s :: listed))
    (hs : s ∈ family) (finite : listed.count s < ReferenceCount.infinite.value / 2)
    (held : Returns (hold s.first s.size true) l r l') :
    (∃ addr, r = some ⟨addr, decide (s ∉ listed)⟩) ∧
      ((s ∈ listed ∧ l'.Shares family listed ∧ l.Releases family l') ∨ (s ∉ listed ∧ l' = l)) := by
  obtain ⟨m, hm, own, count⟩ := shares.exists_isOf hs (List.mem_cons_self ..)
  rw [List.count_cons_self] at count
  have found := shares.sound.mappings.lookup_isOf hs hm own
  rcases returns_hold held with ⟨none, -⟩ | ⟨n, found', rfl, after⟩
  · rw [found] at none
    cases none
  rw [found, Option.some.injEq] at found'
  subst found'
  have last : m.refCount.isLast = decide (s ∉ listed) := by
    rw [ReferenceCount.isLast_eq (by omega), count]
    refine decide_eq_decide.2 ?_
    rw [← List.count_eq_zero]
    omega
  refine ⟨⟨m.translate s.first, by rw [last]⟩, ?_⟩
  rw [last, Bool.true_and] at after
  by_cases more : s ∈ listed
  · rw [if_pos (by simp [more])] at after
    refine .inl ⟨more, shares.insert (m := { m with refCount := m.refCount.decrement }) hs ?_
      ⟨own.first, own.stop⟩ ?_ ?_ more fun s' ne => (List.count_cons_of_ne ne).symm, ?_⟩
    · exact ((along_hold.returns held) shares.sound).1
    · rw [after]
      rfl
    · exact (ReferenceCount.value_decrement (by omega)).trans (by rw [count, Nat.add_sub_cancel])
    · rw [after]
      exact ⟨Link.follows_of_extends Link.aged_withMappings (MappingTable.setCount_extends hm _),
        MappingTable.extends_setCount hm _⟩
  · rw [if_neg (by simp [more])] at after
    exact .inr ⟨more, after⟩

/-- Unmapping a section that is listed for the last time strikes it from the list, and its device address
is out of use. -/
theorem shares_unmap {u : Unit} (shares : l.Shares family (s :: listed)) (hs : s ∈ family)
    (last : s ∉ listed) (unmapped : Returns (unmap s.first s.size false) l u l') :
    l'.Shares family listed ∧ l.Releases family l' := by
  obtain ⟨m, hm, own, count⟩ := shares.exists_isOf hs (List.mem_cons_self ..)
  rw [List.count_cons_self, List.count_eq_zero.2 last] at count
  have found := shares.sound.mappings.lookup_isOf hs hm own
  have one : m.refCount.value ≤ ReferenceCount.infinite.value / 2 := by
    rw [count]
    decide
  have aged := aged_unmap.returns unmapped
  have sound' := ((along_unmap.returns unmapped) shares.sound).1
  obtain ⟨n, found', cases⟩ := returns_unmap unmapped
  rw [found, Option.some.injEq] at found'
  subst found'
  rcases cases with ⟨infinite, -⟩ | ⟨-, ⟨c, rfl, more, -⟩ | ⟨-, removed⟩⟩
  · rw [ReferenceCount.isInfinite_eq_false_iff.2 one] at infinite
    cases infinite
  · rw [if_neg Bool.false_ne_true, ReferenceCount.value_decrement one, count] at more
    cases more
  obtain ⟨k, k', before, freed, wrote⟩ := returns_free (returns_removeMapping.1 removed)
  have table : l'.device.mappings = (l.device.mappings.remove m.hostBegin).2 := wrote.mappings
  refine ⟨⟨sound', fun s' hs' => ?_⟩, ⟨aged, fun n hn s' hs' here => ?_⟩, fun n hn => ?_⟩
  · rw [table]
    refine shares.sound.mappings.hosts_remove hs hs' hm own (fun same => ?_) fun ne => ?_
    · rw [← same]
      exact List.count_eq_zero.2 last
    · have old := shares.hosts s' hs'
      rwa [List.count_cons_of_ne ne] at old
  · by_cases same : n = m
    · subst same
      have wf : k.WellFormed := shares.sound.accelerator.memory before
      exact .inr (Accelerator.retired_of_free wf (wrote.memory? before) freed)
    · rw [table]
      refine .inl ⟨n, (MappingTable.mem_remove hm).2 ⟨hn, fun begin => same ?_⟩, .refl n⟩
      exact AddressMap.eq_of_address_eq hn hm begin
  · rw [table] at hn
    exact ⟨n, ((MappingTable.mem_remove hm).1 hn).1, .refl n⟩

end Device

end Offloading
