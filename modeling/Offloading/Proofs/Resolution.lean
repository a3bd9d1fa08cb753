import Offloading.Proofs.HostMemory
import Offloading.Proofs.Placement
/-!
# Resolution

Where a map request was given a place, a later look-up finds the same place, however much the table has
grown meanwhile, as long as one mapping holds all of the section. That is why patches can be resolved
late, and why copies that overlap on the device carry the same host bytes.
-/

namespace Offloading

namespace Word

theorem sub_eq {a b : Nat} (ha : a < modulus) (hb : b ≤ a) : sub a b = a - b := by
  rw [sub, Nat.mod_eq_of_lt (Nat.lt_of_le_of_lt hb ha)]
  have : a + (modulus - b) = (a - b) + modulus := by omega
  rw [this, Nat.add_mod_right, Nat.mod_eq_of_lt (by omega)]

theorem add_eq {a b : Nat} (h : a + b < modulus) : add a b = a + b := Nat.mod_eq_of_lt h

end Word

/-! ## Places -/

namespace Mapping

variable {m n : Mapping} {addr first size target : Nat}

/-- The section and its copy end within the address space. -/
structure InSpace (m : Mapping) : Prop where
  host : m.hostEnd ≤ Word.greatest
  device : m.deviceBegin + m.length ≤ Word.modulus

theorem translate_eq (space : m.InSpace) (inside : m.contains addr = true) :
    m.translate addr = m.deviceBegin + (addr - m.hostBegin) := by
  obtain ⟨lower, upper⟩ := contains_iff.1 inside
  have host := space.host
  have device := space.device
  rw [length] at device
  rw [Word.greatest] at host
  rw [translate, Word.sub_eq (by omega) lower, Word.add_eq (by omega)]

/-- A request to map the section was given the address `target` because of this mapping, which contains
the first byte of the section or begins inside of it. -/
def Gives (m : Mapping) (first size target : Nat) : Prop :=
  m.contains first = true ∧ (target = m.translate first ∨ m.hostBegin = first ∧ target = m.deviceBegin) ∨
    first < m.hostBegin ∧ m.hostBegin < first + size

theorem Gives.same (h : m.Gives first size target) (same : n.SamePlace m) :
    n.Gives first size target := by
  unfold Gives
  rw [same.contains, same.translate, same.hostBegin, same.deviceBegin]
  exact h

end Mapping

namespace MappingTable

variable {t u : MappingTable} {m n : Mapping} {first size target k : Nat} {host : HostMemory}
  {addr : Nat} {v w : UInt8}

/-- All sections and their copies end within the address space. -/
def InSpace (t : MappingTable) : Prop := ∀ m ∈ t, m.InSpace

/-- One mapping holds the whole section. -/
def Holds (t : MappingTable) (first size : Nat) : Prop :=
  ∃ m ∈ t, m.hostBegin ≤ first ∧ first + size ≤ m.hostEnd

/-- No two mappings share device bytes. -/
def Unaliased (t : MappingTable) : Prop :=
  ∀ m ∈ t, ∀ n ∈ t, m ≠ n →
    m.deviceBegin + m.length ≤ n.deviceBegin ∨ n.deviceBegin + n.length ≤ m.deviceBegin

/-- The whole section lies in one mapping, with its copy at `target`. -/
def Lodges (t : MappingTable) (first size target : Nat) : Prop :=
  ∃ m ∈ t, m.contains first = true ∧ first + size ≤ m.hostEnd ∧
    target = m.deviceBegin + (first - m.hostBegin)

/-- The host byte whose copy lies at a device address. -/
def Mirrors (t : MappingTable) (host : HostMemory) (addr : Nat) (v : UInt8) : Prop :=
  ∃ m ∈ t, ∃ i, i < m.length ∧ addr = m.deviceBegin + i ∧ v = host.byte (m.hostBegin + i)

theorem Unaliased.eq (h : t.Unaliased) (hm : m ∈ t) (hn : n ∈ t) {i j : Nat} (hi : i < m.length)
    (hj : j < n.length) (same : m.deviceBegin + i = n.deviceBegin + j) : m = n ∧ i = j := by
  have : m = n := by
    refine Classical.byContradiction fun ne => ?_
    rcases h m hm n hn ne with apart | apart
    · omega
    · omega
  subst this
  exact ⟨rfl, by omega⟩

theorem Unaliased.mirrors (h : t.Unaliased) (hv : t.Mirrors host addr v)
    (hw : t.Mirrors host addr w) : v = w := by
  obtain ⟨m, hm, i, hi, rfl, rfl⟩ := hv
  obtain ⟨n, hn, j, hj, same, rfl⟩ := hw
  obtain ⟨rfl, rfl⟩ := h.eq hm hn hi hj same
  rfl

/-- Some of the mappings of a well-formed table make a well-formed table. -/
theorem WellFormed.within (h : u.WellFormed) (within : ∀ m ∈ t, m ∈ u) : t.WellFormed :=
  ⟨fun m hm => h.nonempty m (within m hm),
    fun m hm n hn => h.apart m (within m hm) n (within n hn), fun m hm => h.held m (within m hm)⟩

theorem WellFormed.unique (h : t.WellFormed) (hm : m ∈ t) (hn : n ∈ t) (inside : m.contains addr = true)
    (inside' : n.contains addr = true) (bound : addr < Word.greatest) : m = n := by
  have found := h.containing?_eq hm inside bound
  rw [h.containing?_eq hn inside' bound, Option.some.injEq] at found
  exact found.symm

/-- A place that was given is where the mapping that holds the section has it. -/
theorem WellFormed.lodges (wf : t.WellFormed) (space : t.InSpace) (hm : m ∈ t)
    (gives : m.Gives first size target) (holds : 0 < size → t.Holds first size) :
    t.Lodges first size target := by
  have place : m.contains first = true →
      (target = m.translate first ∨ m.hostBegin = first ∧ target = m.deviceBegin) →
      target = m.deviceBegin + (first - m.hostBegin) := by
    intro inside given
    rcases given with rfl | ⟨rfl, rfl⟩
    · exact Mapping.translate_eq (space m hm) inside
    · rw [Nat.sub_self, Nat.add_zero]
  by_cases empty : size = 0
  · subst empty
    rcases gives with ⟨inside, given⟩ | ⟨below, above⟩
    · exact ⟨m, hm, inside, Nat.le_of_lt (Mapping.contains_iff.1 inside).2, place inside given⟩
    · omega
  · obtain ⟨n, hn, lower, upper⟩ := holds (by omega)
    have bound := (space n hn).host
    have first_in : n.contains first = true := Mapping.contains_iff.2 ⟨lower, by omega⟩
    rcases gives with ⟨inside, given⟩ | ⟨below, above⟩
    · have := wf.unique hm hn inside first_in (by omega)
      subst this
      exact ⟨m, hm, inside, upper, place inside given⟩
    · -- a mapping that began inside the section would meet the one that holds it
      have begins : m.contains m.hostBegin = true :=
        Mapping.contains_iff.2 ⟨Nat.le_refl _, wf.nonempty m hm⟩
      have meets : n.contains m.hostBegin = true := Mapping.contains_iff.2 ⟨by omega, by omega⟩
      have := wf.unique hm hn begins meets (by omega)
      subst this
      omega

/-- A section that has its place among the mappings of a table is found there. -/
theorem Lodges.translate? (h : t.Lodges first size target) (space : t.InSpace)
    (within : ∀ m ∈ t, m ∈ u) (wf : u.WellFormed) :
    (u.lookup first k).mapping?.map (·.translate first) = some target := by
  obtain ⟨m, hm, inside, -, rfl⟩ := h
  have bound := (space m hm).host
  have upper := (Mapping.contains_iff.1 inside).2
  rw [lookup_of_containing? (wf.containing?_eq (within m hm) inside (by omega)), Option.map_some,
    Mapping.translate_eq (space m hm) inside]

/-- The bytes of a section mirror the host where its copy lies. -/
theorem Lodges.mirrors (h : t.Lodges first size target) (host : HostMemory) {i : Nat} (hi : i < size) :
    t.Mirrors host (target + i) (host.byte (first + i)) := by
  obtain ⟨m, hm, inside, upper, rfl⟩ := h
  obtain ⟨lower, -⟩ := Mapping.contains_iff.1 inside
  refine ⟨m, hm, first - m.hostBegin + i, ?_, by omega, ?_⟩
  · rw [Mapping.length]
    omega
  · congr 1
    omega

/-- Sections that do not meet have copies that do not meet. -/
theorem Lodges.apart {first' size' target' i j : Nat} (h : t.Lodges first size target)
    (h' : t.Lodges first' size' target') (unaliased : t.Unaliased)
    (apart : first + size ≤ first' ∨ first' + size' ≤ first) (hi : i < size) (hj : j < size') :
    target + i ≠ target' + j := by
  obtain ⟨m, hm, inside, upper, rfl⟩ := h
  obtain ⟨n, hn, inside', upper', rfl⟩ := h'
  obtain ⟨lower, -⟩ := Mapping.contains_iff.1 inside
  obtain ⟨lower', -⟩ := Mapping.contains_iff.1 inside'
  intro same
  have := unaliased.eq hm hn (i := first - m.hostBegin + i) (j := first' - n.hostBegin + j)
    (by rw [Mapping.length]; omega) (by rw [Mapping.length]; omega) (by omega)
  obtain ⟨rfl, offset⟩ := this
  omega

end MappingTable

/-! ## Placements -/

/-- What the table says of a placement that was made from it, or when it was smaller. -/
structure Placement.Given (t : MappingTable) (host : HostMemory) (p : Placement) : Prop where
  target : ∀ target, p.target? = some target → ∃ m ∈ t, m.Gives p.first p.size target
  pointer : ∀ q, p.pointer? = some q → ∃ m ∈ t, m.Gives q.hostSlot Word.bytes q.deviceSlot
  content : p.content = [] ∨ p.target?.isSome ∧ p.content = host.read p.first p.size

theorem Placement.Given.mono {t u : MappingTable} {host : HostMemory} {p : Placement}
    (h : p.Given t host) (extends' : t.Extends u) : p.Given u host := by
  refine ⟨fun target ht => ?_, fun q hq => ?_, h.content⟩
  · obtain ⟨m, hm, gives⟩ := h.target target ht
    obtain ⟨n, hn, same⟩ := extends' m hm
    exact ⟨n, hn, gives.same same⟩
  · obtain ⟨m, hm, gives⟩ := h.pointer q hq
    obtain ⟨n, hn, same⟩ := extends' m hm
    exact ⟨n, hn, gives.same same⟩

namespace Device

/-- Every address that a map request is given comes from a mapping. -/
theorem gives_of_map {l l' : Link} {first base size : Nat} {implicit updateRef : Bool}
    {mapped : MappedSection}
    (h : Returns (map first base size implicit updateRef) l (some mapped) l') :
    ∃ m ∈ l'.device.mappings, m.Gives first size mapped.addr := by
  rcases returns_map h with ⟨m, hl, -, r, rfl⟩ | ⟨-, -, none, -⟩ | ⟨-, hs, addr, l₁, -, r, hi⟩
  · cases r
    obtain ⟨n, hn, same⟩ := MappingTable.setCount_extends (MappingTable.mem_of_lookup hl)
      (if updateRef then m.refCount.increment else m.refCount) m (MappingTable.mem_of_lookup hl)
    refine ⟨n, hn, Mapping.Gives.same ?_ same⟩
    rcases MappingTable.lookup_cases hl with inside | ⟨-, above, meets⟩
    · exact .inl ⟨(MappingTable.containing?_mem inside).2, .inl rfl⟩
    · have := (AddressMap.above?_eq_some_iff.1 above).2.1
      rw [Mapping.address_eq] at this
      rw [Word.saturatingAdd] at meets
      exact .inr ⟨this, by omega⟩
  · cases none
  · cases r
    obtain ⟨inserted, rfl⟩ := returns_insertMapping hi
    rcases MappingTable.insert_cases l₁.device.mappings ⟨base, first, first + size, addr, .one⟩ with
      ⟨e, failed, -⟩ | ⟨-, -, -, entries⟩
    · rw [failed] at inserted
      cases inserted
    · refine ⟨⟨base, first, first + size, addr, .one⟩, ?_, .inl ⟨?_, .inr ⟨rfl, rfl⟩⟩⟩
      · refine MappingTable.mem_entries.1 ?_
        change _ ∈ (l₁.device.mappings.insert _).2.entries
        rw [entries]
        exact AddressMap.mem_insert_self
      · exact Mapping.contains_iff.2 ⟨Nat.le_refl _, Nat.lt_add_of_pos_right hs⟩

end Device

/-- Shipping leaves the table alone. -/
theorem Shipped.sent {settings : Settings} {p : Placement} {s s' : RegionState}
    (h : Shipped settings p s s') : Sent s s' := by
  refine ⟨?_, h.host, h.arguments⟩
  have along : ∀ x : Parcel,
      Along (fun a a' : Activation => a.link.Still a'.link) (x.send settings.strategy) := by
    intro x
    cases x with
    | copy c => exact (Strategy.along_submit settings.strategy).mono fun h => h.still
    | patch p => exact Strategy.along_patch settings.strategy
  exact (Along.forM along _).returns h.activation

namespace Region

open RegionM

variable {settings : Settings} {padded : Bool} {region : Argument} {s s' : RegionState} {u : Unit}
  {p : Placement} {ps : List Placement} {t : MappingTable} {host : HostMemory}

theorem given_place (hs : s.activation.link.Sound)
    (placed : Returns (place settings padded region) s p s') :
    p.Given s'.activation.link.device.mappings s.host ∧ Entered s s' := by
  obtain ⟨pointer?, s₁, mapped?, l, content, first, size, base, -, hp, -, mapped, decided, rfl⟩ :=
    returns_place.1 placed
  obtain ⟨rfl, chosen⟩ := returns_contentIn decided
  have before := Step.entered (along_mapPointer.returns hp)
  have grown := (Device.along_map.returns mapped).toGrown
  have hs₁ := before.link.sound hs
  refine ⟨⟨fun target ht => ?_, fun q hq => ?_, ?_⟩,
    ⟨Lasting.trans before.link grown, before.host, before.arguments⟩⟩
  · cases mapped? with
    | none => cases ht
    | some found =>
        cases ht
        exact Device.gives_of_map mapped
  · rcases returns_mapPointer hp with ⟨-, rfl, -⟩ | ⟨-, found, l₁, slot, rfl, rfl⟩
    · cases hq
    · cases hq
      obtain ⟨m, hm, gives⟩ := Device.gives_of_map slot
      obtain ⟨n, hn, same⟩ := grown.mappings.sections hs₁.mappings m hm
      exact ⟨n, hn, gives.same same⟩
  · rcases chosen with none | ⟨some, read⟩
    · exact .inl none
    · refine .inr ⟨by rw [Option.isSome_map]; exact some, ?_⟩
      rw [read, ← before.host]
      rfl

/-- All placements of a run are given by the table that the run leaves. -/
theorem given_mapArguments {indices : List Nat} (hs : s.activation.link.Sound)
    (mapped : Returns (indices.forM (mapArgument settings)) s u s') :
    ∀ p ∈ placementsOn settings indices s, p.Given s'.activation.link.device.mappings s.host := by
  have all := mapArguments_induct
    (P := fun ps s' => (∀ p ∈ ps, p.Given s'.activation.link.device.mappings s.host) ∧
      s'.activation.link.Sound ∧ s'.host = s.host)
    ?_ (fun h => h) ⟨fun _ h => (nomatch h), hs, rfl⟩ mapped
  · exact fun p hp => all.1 p hp
  · intro ps padded region p s₀ s₁ s₂ inv placed shipped
    obtain ⟨given, sound, same⟩ := inv
    obtain ⟨new, entered⟩ := given_place sound placed
    have sent := shipped.sent
    have sound₁ := entered.link.sound sound
    refine ⟨fun q hq => ?_, sent.link.sound sound₁, sent.host.trans (entered.host.trans same)⟩
    rw [sent.link.mappings]
    rcases List.mem_append.1 hq with hq | hq
    · exact (given q hq).mono (entered.link.mappings.sections sound.mappings)
    · rw [List.mem_singleton.1 hq, ← same]
      exact new

end Region

end Offloading
