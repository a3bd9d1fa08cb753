import Offloading.Mapping.Table
import Offloading.Proofs.AddressMap
import Offloading.Proofs.Execution
import Offloading.Proofs.ReferenceCount
/-!
# Mapping tables

A well-formed table holds non-empty sections that do not meet and that somebody holds. On such a
table the two neighbours of an address decide every lookup, and a lookup is not disturbed by counts
or by mappings that are added later.
-/

namespace Offloading

namespace Mapping

@[simp] theorem address_eq (m : Mapping) : address m = m.hostBegin := rfl

theorem contains_iff {m : Mapping} {addr : Nat} :
    m.contains addr = true ↔ m.hostBegin ≤ addr ∧ addr < m.hostEnd := by
  rw [contains, Bool.and_eq_true, decide_eq_true_iff, decide_eq_true_iff]

/-- Two mappings of the same section to the same place, whatever their counts are. -/
structure SamePlace (m n : Mapping) : Prop where
  /-- The sections begin together. -/
  hostBegin : m.hostBegin = n.hostBegin
  /-- The sections end together. -/
  hostEnd : m.hostEnd = n.hostEnd
  /-- The copies begin together. -/
  deviceBegin : m.deviceBegin = n.deviceBegin

namespace SamePlace

variable {l m n : Mapping}

theorem refl (m : Mapping) : m.SamePlace m := ⟨rfl, rfl, rfl⟩

theorem symm (h : m.SamePlace n) : n.SamePlace m :=
  ⟨h.hostBegin.symm, h.hostEnd.symm, h.deviceBegin.symm⟩

theorem trans (h : l.SamePlace m) (h' : m.SamePlace n) : l.SamePlace n :=
  ⟨h.hostBegin.trans h'.hostBegin, h.hostEnd.trans h'.hostEnd, h.deviceBegin.trans h'.deviceBegin⟩

theorem contains (h : m.SamePlace n) (addr : Nat) : m.contains addr = n.contains addr := by
  rw [Mapping.contains, Mapping.contains, h.hostBegin, h.hostEnd]

theorem translate (h : m.SamePlace n) (addr : Nat) : m.translate addr = n.translate addr := by
  rw [Mapping.translate, Mapping.translate, h.hostBegin, h.deviceBegin]

end SamePlace

end Mapping

namespace MappingTable

variable {t : MappingTable} {m n : Mapping} {addr first size : Nat}

instance : Membership Mapping MappingTable := ⟨fun t m => m ∈ t.entries⟩

theorem mem_entries : m ∈ t.entries ↔ m ∈ t := Iff.rfl

theorem mem_congr {u : MappingTable} (h : u.entries = t.entries) : m ∈ u ↔ m ∈ t := by
  rw [← mem_entries, ← mem_entries, h]

/-- What every table keeps that is changed by its operations alone. Only sections that begin below
the greatest word are compared, since a section's end is cut off there before it is looked up. -/
structure WellFormed (t : MappingTable) : Prop where
  /-- No section is empty. -/
  nonempty : ∀ m ∈ t, m.hostBegin < m.hostEnd
  /-- A section ends before the next one begins. -/
  apart : ∀ m ∈ t, ∀ n ∈ t, m.hostBegin < n.hostBegin → n.hostBegin < Word.greatest →
    m.hostEnd ≤ n.hostBegin
  /-- Somebody holds every mapping. -/
  held : ∀ m ∈ t, 0 < m.refCount.value

/-- The tables have the same sections at the same places. -/
def Extends (t u : MappingTable) : Prop := ∀ m ∈ t, ∃ n ∈ u, n.SamePlace m

theorem Extends.refl (t : MappingTable) : t.Extends t := fun m hm => ⟨m, hm, .refl m⟩

theorem Extends.trans {t u v : MappingTable} (h : t.Extends u) (h' : u.Extends v) :
    t.Extends v := by
  intro m hm
  obtain ⟨n, hn, same⟩ := h m hm
  obtain ⟨l, hl, same'⟩ := h' n hn
  exact ⟨l, hl, same'.trans same⟩

/-! ## Lookups -/

theorem containing?_mem (h : t.containing? addr = some m) : m ∈ t ∧ m.contains addr = true := by
  obtain ⟨found, hm⟩ := Option.filter_eq_some_iff.1 h
  exact ⟨(AddressMap.atOrBelow?_eq_some_iff.1 found).1, hm⟩

theorem mem_of_lookup (h : (t.lookup first size).mapping? = some m) : m ∈ t := by
  unfold lookup at h
  dsimp only at h
  split at h
  · rename_i found
    cases h
    exact (containing?_mem found).1
  · split at h
    · rename_i above
      split at h
      · cases h
        exact (AddressMap.above?_eq_some_iff.1 above).1
      · cases h
    · cases h

theorem containing?_congr {u : MappingTable} (h : u.entries = t.entries) :
    u.containing? addr = t.containing? addr := by
  rw [containing?, containing?, h]

theorem lookup_congr {u : MappingTable} (h : u.entries = t.entries) :
    u.lookup first size = t.lookup first size := by
  rw [lookup, lookup, containing?_congr h, h]

theorem lookup_of_containing? (h : t.containing? first = some m) :
    t.lookup first size =
      { mapping? := some m
        contained := Word.saturatingAdd first size ≤ m.hostEnd
        extendsAfter := m.hostEnd < Word.saturatingAdd first size } := by
  rw [lookup, h]

theorem lookup_of_above? (h : t.containing? first = none) (ha : t.entries.above? first = some m)
    (hm : m.hostBegin < Word.saturatingAdd first size) :
    t.lookup first size =
      { mapping? := some m
        extendsBefore := true
        extendsAfter := m.hostEnd < Word.saturatingAdd first size } := by
  rw [lookup, h, ha]
  exact if_pos hm

/-- A mapping is found because it contains the first byte, or else because it is the closest one
above it and the section reaches into it. -/
theorem lookup_cases (h : (t.lookup first size).mapping? = some m) :
    t.containing? first = some m ∨
      (t.containing? first = none ∧ t.entries.above? first = some m ∧
        m.hostBegin < Word.saturatingAdd first size) := by
  cases hc : t.containing? first with
  | some n =>
      rw [lookup_of_containing? hc] at h
      exact .inl h
  | none =>
      cases ha : t.entries.above? first with
      | none => simp [lookup, hc, ha] at h
      | some n =>
          by_cases hn : n.hostBegin < Word.saturatingAdd first size
          · rw [lookup_of_above? hc ha hn] at h
            cases h
            exact .inr ⟨rfl, rfl, hn⟩
          · simp [lookup, hc, ha, hn] at h

theorem lookup_eq_none_cases (h : (t.lookup first size).mapping? = none) :
    t.containing? first = none ∧
      ∀ m, t.entries.above? first = some m → Word.saturatingAdd first size ≤ m.hostBegin := by
  cases hc : t.containing? first with
  | some n =>
      rw [lookup_of_containing? hc] at h
      cases h
  | none =>
      refine ⟨rfl, fun m ha => ?_⟩
      by_cases hm : m.hostBegin < Word.saturatingAdd first size
      · rw [lookup_of_above? hc ha hm] at h
        cases h
      · omega

/-- A section that does not stick out of the mapping it meets begins in it. -/
theorem containing?_of_not_isPartial (h : (t.lookup first size).mapping? = some m)
    (hp : (t.lookup first size).isPartial = false) :
    t.containing? first = some m ∧ Word.saturatingAdd first size ≤ m.hostEnd := by
  rcases lookup_cases h with hc | ⟨hc, ha, hm⟩
  · rw [lookup_of_containing? hc] at hp
    simp only [Coverage.isPartial, Bool.false_or, decide_eq_false_iff_not] at hp
    exact ⟨hc, by omega⟩
  · rw [lookup_of_above? hc ha hm] at hp
    simp [Coverage.isPartial] at hp

/-- An empty section meets only a mapping that contains its first byte. -/
theorem containing?_of_lookup_zero (h : (t.lookup first 0).mapping? = some m) :
    t.containing? first = some m := by
  rcases lookup_cases h with hc | ⟨-, ha, hm⟩
  · exact hc
  · have above := (AddressMap.above?_eq_some_iff.1 ha).2.1
    rw [Mapping.address_eq] at above
    have : Word.saturatingAdd first 0 ≤ first := Nat.min_le_left _ _
    omega

/-- The sections do not meet, as far as lookups compare them. -/
def Apart (t : MappingTable) : Prop :=
  ∀ m ∈ t, ∀ n ∈ t, m.hostBegin < n.hostBegin → n.hostBegin < Word.greatest →
    m.hostEnd ≤ n.hostBegin

namespace Apart

/-- A mapping that contains an address is the one that is found there. -/
theorem containing?_eq (h : t.Apart) (hm : m ∈ t) (ha : m.contains addr = true)
    (hg : addr < Word.greatest) : t.containing? addr = some m := by
  have inside := Mapping.contains_iff.1 ha
  have greatest : ∀ n ∈ t, n.hostBegin ≤ addr → n.hostBegin ≤ m.hostBegin := by
    intro n hn hb
    rcases Nat.lt_or_ge m.hostBegin n.hostBegin with hlt | hge
    · have := h m hm n hn hlt (by omega)
      omega
    · exact hge
  have nearest : t.entries.atOrBelow? addr = some m :=
    AddressMap.atOrBelow?_eq_some_iff.2 ⟨hm, inside.1, greatest⟩
  exact Option.filter_eq_some_iff.2 ⟨nearest, ha⟩

/-- The section of a mapping that does not contain an address ends at or before it, or begins
after it. -/
theorem lookup_none_apart (h : t.Apart) (hl : (t.lookup first size).mapping? = none)
    (hn : n ∈ t) :
    (n.hostBegin ≤ first ∧ (first < Word.greatest → n.hostEnd ≤ first)) ∨
      (first < n.hostBegin ∧ (n.hostBegin < Word.greatest → first + size ≤ n.hostBegin)) := by
  obtain ⟨hc, ha⟩ := lookup_eq_none_cases hl
  rcases Nat.lt_or_ge first n.hostBegin with hlt | hge
  · refine .inr ⟨hlt, fun hg => ?_⟩
    cases hab : t.entries.above? first with
    | none =>
        have := AddressMap.above?_eq_none_iff.1 hab n hn
        rw [Mapping.address_eq] at this
        omega
    | some m =>
        have least := (AddressMap.above?_eq_some_iff.1 hab).2.2 n hn hlt
        have far := ha m hab
        rw [Mapping.address_eq, Mapping.address_eq] at least
        rw [Word.saturatingAdd] at far
        omega
  · refine .inl ⟨hge, fun hg => ?_⟩
    rcases Nat.lt_or_ge first n.hostEnd with hlt | hge'
    · have := h.containing?_eq hn (Mapping.contains_iff.2 ⟨hge, hlt⟩) hg
      rw [hc] at this
      cases this
    · exact hge'

end Apart

namespace WellFormed

theorem containing?_eq (h : t.WellFormed) (hm : m ∈ t) (ha : m.contains addr = true)
    (hg : addr < Word.greatest) : t.containing? addr = some m :=
  Apart.containing?_eq h.apart hm ha hg

theorem lookup_none_apart (h : t.WellFormed) (hl : (t.lookup first size).mapping? = none)
    (hn : n ∈ t) :
    (n.hostBegin ≤ first ∧ (first < Word.greatest → n.hostEnd ≤ first)) ∨
      (first < n.hostBegin ∧ (n.hostBegin < Word.greatest → first + size ≤ n.hostBegin)) :=
  Apart.lookup_none_apart h.apart hl hn

end WellFormed

/-! ## Changing counts -/

theorem mem_setCount {c : ReferenceCount} :
    n ∈ t.setCount m c ↔
      n = { m with refCount := c } ∨ (n ∈ t ∧ n.hostBegin ≠ m.hostBegin) :=
  AddressMap.mem_insert

theorem setCount_extends (hm : m ∈ t) (c : ReferenceCount) : t.Extends (t.setCount m c) := by
  intro n hn
  by_cases h : n.hostBegin = m.hostBegin
  · have := AddressMap.eq_of_address_eq hn hm h
    subst this
    exact ⟨{ n with refCount := c }, mem_setCount.2 (.inl rfl), ⟨rfl, rfl, rfl⟩⟩
  · exact ⟨n, mem_setCount.2 (.inr ⟨hn, h⟩), .refl n⟩

theorem extends_setCount (hm : m ∈ t) (c : ReferenceCount) : (t.setCount m c).Extends t := by
  intro n hn
  rcases mem_setCount.1 hn with rfl | ⟨hn, -⟩
  · exact ⟨m, hm, ⟨rfl, rfl, rfl⟩⟩
  · exact ⟨n, hn, .refl n⟩

theorem WellFormed.setCount (h : t.WellFormed) (hm : m ∈ t) {c : ReferenceCount}
    (hc : 0 < c.value) : (t.setCount m c).WellFormed where
  nonempty n hn := by
    obtain ⟨l, hl, same⟩ := extends_setCount hm c n hn
    rw [← same.hostBegin, ← same.hostEnd]
    exact h.nonempty l hl
  apart n hn k hk lt hg := by
    obtain ⟨l, hl, same⟩ := extends_setCount hm c n hn
    obtain ⟨l', hl', same'⟩ := extends_setCount hm c k hk
    rw [← same.hostEnd, ← same'.hostBegin]
    apply h.apart l hl l' hl'
    · rw [same.hostBegin, same'.hostBegin]
      exact lt
    · rw [same'.hostBegin]
      exact hg
  held n hn := by
    rcases mem_setCount.1 hn with rfl | ⟨hn, -⟩
    · exact hc
    · exact h.held n hn

/-- Setting a count twice is setting it once. -/
theorem setCount_setCount {c c' : ReferenceCount} :
    ((t.setCount m c).setCount { m with refCount := c } c').entries = (t.setCount m c').entries :=
  AddressMap.insert_insert rfl

/-- Giving a mapping the count that it has changes nothing. -/
theorem setCount_self (hm : m ∈ t) : t.setCount m m.refCount = t := by
  have : t.entries.insert { m with refCount := m.refCount } = t.entries :=
    AddressMap.insert_eq_self hm
  rw [setCount, this]

private theorem containing?_setCount {c : ReferenceCount} (hm : m ∈ t) (found : Mapping) :
    t.containing? addr = some found → found.hostBegin = m.hostBegin →
      (t.setCount m c).containing? addr = some { m with refCount := c } := by
  intro h hb
  obtain ⟨nearest, ha⟩ := Option.filter_eq_some_iff.1 h
  obtain ⟨hf, le, greatest⟩ := AddressMap.atOrBelow?_eq_some_iff.1 nearest
  have : found = m := AddressMap.eq_of_address_eq hf hm hb
  subst this
  refine Option.filter_eq_some_iff.2 ⟨AddressMap.atOrBelow?_eq_some_iff.2 ⟨?_, le, ?_⟩, ha⟩
  · exact AddressMap.mem_insert_self
  · intro n hn hle
    rcases mem_setCount.1 hn with rfl | ⟨hn, -⟩
    · exact Nat.le_refl _
    · exact greatest n hn hle

/-- A mapping is found again after its count changed. -/
theorem lookup_setCount {c : ReferenceCount} (h : (t.lookup first size).mapping? = some m) :
    ((t.setCount m c).lookup first size).mapping? = some { m with refCount := c } := by
  have hm := mem_of_lookup h
  rcases lookup_cases h with hc | ⟨hc, ha, hlt⟩
  · rw [lookup_of_containing? (containing?_setCount hm m hc rfl)]
  · obtain ⟨-, above, least⟩ := AddressMap.above?_eq_some_iff.1 ha
    have above' : (t.setCount m c).entries.above? first = some { m with refCount := c } := by
      refine AddressMap.above?_eq_some_iff.2 ⟨AddressMap.mem_insert_self, above, ?_⟩
      intro n hn hgt
      rcases mem_setCount.1 hn with rfl | ⟨hn, -⟩
      · exact Nat.le_refl _
      · exact least n hn hgt
    have none' : (t.setCount m c).containing? first = none := by
      cases hc' : (t.setCount m c).containing? first with
      | none => rfl
      | some n =>
          exfalso
          obtain ⟨nearest, hn⟩ := Option.filter_eq_some_iff.1 hc'
          obtain ⟨hn', le, greatest⟩ := AddressMap.atOrBelow?_eq_some_iff.1 nearest
          rcases mem_setCount.1 hn' with rfl | ⟨hnt, hne⟩
          · simp only [Mapping.address_eq] at above le
            omega
          · have : t.containing? first = some n := by
              refine Option.filter_eq_some_iff.2
                ⟨AddressMap.atOrBelow?_eq_some_iff.2 ⟨hnt, le, fun k hk hle => ?_⟩, hn⟩
              by_cases hkm : k.hostBegin = m.hostBegin
              · simp only [Mapping.address_eq] at above hle
                omega
              · exact greatest k (mem_setCount.2 (.inr ⟨hk, hkm⟩)) hle
            rw [hc] at this
            cases this
    rw [lookup_of_above? none' above' hlt]

/-! ## Insertion -/

theorem insert_eq (hne : m.hostBegin < m.hostEnd)
    (h : (t.lookup m.hostBegin m.length).mapping? = none) :
    t.insert m =
      (.ok (),
        { entries := t.entries.insert m
          liveBytes := t.liveBytes + m.length
          stats := t.stats.recordNew m.length (t.liveBytes + m.length) }) := by
  have : m.isEmpty = false := by
    rw [Mapping.isEmpty, beq_eq_false_iff_ne]
    omega
  simp [insert, this, h]

/-- No mapping begins where a section lies that meets none. -/
theorem WellFormed.hostBegin_ne (h : t.WellFormed)
    (hl : (t.lookup first size).mapping? = none) (hn : n ∈ t) : n.hostBegin ≠ first := by
  rintro rfl
  have hne := h.nonempty n hn
  have found : t.containing? n.hostBegin = some n :=
    Option.filter_eq_some_iff.2
      ⟨AddressMap.atOrBelow?_eq_some_iff.2 ⟨hn, Nat.le_refl _, fun k _ hk => hk⟩,
        Mapping.contains_iff.2 ⟨Nat.le_refl _, hne⟩⟩
  rw [lookup_of_containing? found] at hl
  cases hl

theorem insert_extends (hfree : ∀ n ∈ t, n.hostBegin ≠ m.hostBegin) (u : MappingTable)
    (hu : u.entries = t.entries.insert m) : t.Extends u := by
  intro n hn
  refine ⟨n, ?_, .refl n⟩
  change n ∈ u.entries
  rw [hu]
  exact AddressMap.mem_insert.2 (.inr ⟨hn, hfree n hn⟩)

theorem WellFormed.insert (h : t.WellFormed) (hne : m.hostBegin < m.hostEnd)
    (hc : 0 < m.refCount.value) (hl : (t.lookup m.hostBegin m.length).mapping? = none)
    {u : MappingTable} (hu : u.entries = t.entries.insert m) : u.WellFormed := by
  have mem : ∀ n, n ∈ u ↔ n = m ∨ (n ∈ t ∧ n.hostBegin ≠ m.hostBegin) := by
    intro n
    change n ∈ u.entries ↔ _
    rw [hu]
    exact AddressMap.mem_insert
  have last : m.hostBegin + m.length = m.hostEnd := by
    rw [Mapping.length]
    omega
  refine ⟨?_, ?_, ?_⟩
  · intro n hn
    rcases (mem n).1 hn with rfl | ⟨hn, -⟩
    · exact hne
    · exact h.nonempty n hn
  · intro n hn k hk lt hg
    rcases (mem n).1 hn with rfl | ⟨hn, hnm⟩ <;> rcases (mem k).1 hk with rfl | ⟨hk, hkm⟩
    · omega
    · rcases h.lookup_none_apart hl hk with ⟨le, -⟩ | ⟨-, far⟩
      · omega
      · have := far hg
        omega
    · rcases h.lookup_none_apart hl hn with ⟨-, near⟩ | ⟨gt, -⟩
      · exact near hg
      · omega
    · exact h.apart n hn k hk lt hg
  · intro n hn
    rcases (mem n).1 hn with rfl | ⟨hn, -⟩
    · exact hc
    · exact h.held n hn

/-- A section that was just mapped is found again. -/
theorem lookup_inserted (hne : m.hostBegin < m.hostEnd) {u : MappingTable}
    (hu : u.entries = t.entries.insert m) :
    (u.lookup m.hostBegin size).mapping? = some m := by
  have found : u.containing? m.hostBegin = some m := by
    refine Option.filter_eq_some_iff.2
      ⟨AddressMap.atOrBelow?_eq_some_iff.2 ⟨?_, Nat.le_refl _, fun k _ hk => hk⟩,
        Mapping.contains_iff.2 ⟨Nat.le_refl _, hne⟩⟩
    rw [hu]
    exact AddressMap.mem_insert_self
  rw [lookup_of_containing? found]

theorem insert_cases (t : MappingTable) (m : Mapping) :
    (∃ e, (t.insert m).1 = .error e ∧ (t.insert m).2.entries = t.entries) ∨
      (m.hostEnd ≠ m.hostBegin ∧ (t.lookup m.hostBegin m.length).mapping? = none ∧
        (t.insert m).1 = .ok () ∧ (t.insert m).2.entries = t.entries.insert m) := by
  unfold insert
  by_cases empty : m.isEmpty = true
  · rw [if_pos empty]
    exact .inl ⟨_, rfl, rfl⟩
  · rw [if_neg empty]
    cases hl : (t.lookup m.hostBegin m.length).mapping? with
    | some n => exact .inl ⟨_, rfl, rfl⟩
    | none =>
        refine .inr ⟨?_, rfl, rfl, rfl⟩
        intro same
        rw [Mapping.isEmpty, same, beq_self_eq_true] at empty
        exact empty rfl

/-! ## Removal -/

theorem remove_entries (hm : m ∈ t) :
    (t.remove m.hostBegin).2.entries = t.entries.erase m.hostBegin := by
  have : t.get? m.hostBegin = some m := AddressMap.get?_eq_some_iff.2 ⟨hm, rfl⟩
  rw [remove, this]

theorem mem_remove (hm : m ∈ t) :
    n ∈ (t.remove m.hostBegin).2 ↔ n ∈ t ∧ n.hostBegin ≠ m.hostBegin := by
  change n ∈ (t.remove m.hostBegin).2.entries ↔ _
  rw [remove_entries hm]
  exact AddressMap.mem_erase

theorem WellFormed.remove (h : t.WellFormed) (hm : m ∈ t) :
    (t.remove m.hostBegin).2.WellFormed where
  nonempty n hn := h.nonempty n ((mem_remove hm).1 hn).1
  apart n hn k hk := h.apart n ((mem_remove hm).1 hn).1 k ((mem_remove hm).1 hk).1
  held n hn := h.held n ((mem_remove hm).1 hn).1

theorem wellFormed_empty : ({} : MappingTable).WellFormed where
  nonempty _ hm := absurd hm AddressMap.not_mem_empty
  apart _ hm := absurd hm AddressMap.not_mem_empty
  held _ hm := absurd hm AddressMap.not_mem_empty

/-! ## Growing -/

/-- What happens to a table while sections are mapped: none is removed or moved, and an infinite
count stays. -/
structure Grows (t u : MappingTable) : Prop where
  wellFormed : t.WellFormed → u.WellFormed
  sections : t.WellFormed → t.Extends u
  infinite : t.WellFormed → ∀ m ∈ t, m.refCount.isInfinite = true → m ∈ u

instance : Lasting Grows where
  refl t := ⟨id, fun _ => .refl t, fun _ _ hm _ => hm⟩
  trans h h' := by
    refine ⟨fun ht => h'.wellFormed (h.wellFormed ht), fun ht => ?_, fun ht m hm hi => ?_⟩
    · exact (h.sections ht).trans (h'.sections (h.wellFormed ht))
    · exact h'.infinite (h.wellFormed ht) m (h.infinite ht m hm hi) hi

theorem wellFormed_of_entries {u : MappingTable} (h : u.entries = t.entries)
    (ht : t.WellFormed) : u.WellFormed := by
  have mem : ∀ m, m ∈ u → m ∈ t := fun m hm => (mem_congr h).1 hm
  exact ⟨fun m hm => ht.nonempty m (mem m hm),
    fun m hm n hn => ht.apart m (mem m hm) n (mem n hn), fun m hm => ht.held m (mem m hm)⟩

theorem grows_of_entries {u : MappingTable} (h : u.entries = t.entries) : t.Grows u := by
  have mem : ∀ m, m ∈ t → m ∈ u := fun m hm => (mem_congr h).2 hm
  exact ⟨wellFormed_of_entries h, fun _ m hm => ⟨m, mem m hm, .refl m⟩, fun _ m hm _ => mem m hm⟩

theorem grows_setCount (hm : m ∈ t) {c : ReferenceCount}
    (hc : c = m.refCount ∨ c = m.refCount.increment) : t.Grows (t.setCount m c) := by
  refine ⟨fun ht => ht.setCount hm ?_, fun _ => setCount_extends hm c, fun _ n hn hi => ?_⟩
  · have held := ht.held m hm
    rcases hc with rfl | rfl
    · exact held
    · exact ReferenceCount.increment_pos held
  · refine mem_setCount.2 ?_
    by_cases same : n.hostBegin = m.hostBegin
    · have : n = m := AddressMap.eq_of_address_eq hn hm same
      subst this
      have : c = n.refCount := by
        rcases hc with rfl | rfl
        · rfl
        · exact ReferenceCount.increment_of_infinite hi
      exact .inl (by rw [this])
    · exact .inr ⟨hn, same⟩

theorem grows_insert (hne : m.hostBegin ≤ m.hostEnd) (hc : 0 < m.refCount.value) :
    t.Grows (t.insert m).2 := by
  rcases insert_cases t m with ⟨_, -, entries⟩ | ⟨hne', hl, -, entries⟩
  · exact grows_of_entries entries
  · refine ⟨fun ht => ht.insert (by omega) hc hl entries, fun ht => ?_, fun ht n hn _ => ?_⟩
    · exact insert_extends (fun n hn => ht.hostBegin_ne hl hn) _ entries
    · change n ∈ (t.insert m).2.entries
      rw [entries]
      exact AddressMap.mem_insert.2 (.inr ⟨hn, ht.hostBegin_ne hl hn⟩)

end MappingTable

end Offloading
