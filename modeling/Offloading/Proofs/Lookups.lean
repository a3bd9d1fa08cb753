import Offloading.Proofs.TableHistory
/-!
# What a lookup finds

A lookup examines two neighbours of an address only. On sections that are not empty and lie apart this
answers for all of them: the mapping that is found is the lowest one that contains the first byte of the
section or shares a byte with it. An insertion is refused by the same lookup, and so by any mapping that
shares a byte with the new one.
-/

namespace Offloading

namespace Mapping

variable {m n : Mapping} {addr first size : Nat}

/-- The mapping contains the first byte of the section or shares a byte with it. An empty section has a
place, but no byte to share. -/
def Meets (m : Mapping) (first size : Nat) : Prop :=
  m.contains first = true ∨ ∃ addr, first ≤ addr ∧ addr < first + size ∧ m.contains addr = true

/-- No byte lies in both sections. -/
def Disjoint (m n : Mapping) : Prop := ∀ addr, m.contains addr = true → n.contains addr = false

theorem meets_of_contains (h : m.contains first = true) : m.Meets first size := .inl h

/-- A mapping that does not contain the first byte is met where it begins. -/
theorem meets_iff (ne : m.hostBegin < m.hostEnd) :
    m.Meets first size ↔
      (m.hostBegin ≤ first ∧ first < m.hostEnd) ∨
        (first < m.hostBegin ∧ m.hostBegin < first + size) := by
  unfold Meets
  simp only [contains_iff]
  constructor
  · rintro (inside | ⟨addr, le, lt, inside⟩)
    · exact .inl inside
    · omega
  · rintro (inside | ⟨before, reached⟩)
    · exact .inl inside
    · exact .inr ⟨m.hostBegin, by omega, reached, by omega, ne⟩

/-- A section with bytes meets the mappings that share a byte with it. -/
theorem meets_iff_not_disjoint (ne : m.hostBegin < m.hostEnd) :
    n.Meets m.hostBegin m.length ↔ ¬ m.Disjoint n := by
  have last : m.hostBegin + m.length = m.hostEnd := by
    unfold length
    omega
  unfold Meets Disjoint
  rw [last]
  simp only [contains_iff, not_forall, Bool.not_eq_false]
  constructor
  · rintro (inside | ⟨addr, le, lt, inside⟩)
    · exact ⟨m.hostBegin, ⟨Nat.le_refl _, ne⟩, inside⟩
    · exact ⟨addr, ⟨le, lt⟩, inside⟩
  · rintro ⟨addr, ⟨le, lt⟩, inside⟩
    exact .inr ⟨addr, le, lt, inside⟩

end Mapping

namespace MappingTable

variable {t u : MappingTable} {m n : Mapping} {addr first size : Nat} {changes : List TableChange}

/-- What the answers of a table rest on. -/
structure Spaced (t : MappingTable) : Prop where
  /-- No section is empty. -/
  nonempty : ∀ m ∈ t, m.hostBegin < m.hostEnd
  /-- Every section lies in the address space. -/
  space : ∀ m ∈ t, m.hostEnd ≤ Word.greatest
  /-- The sections do not meet. -/
  apart : t.Apart

theorem Accounted.spaced (h : Accounted changes t) : t.Spaced := ⟨h.nonempty, h.space, h.apart⟩

theorem WellFormed.spaced (h : t.WellFormed) (space : ∀ m ∈ t, m.hostEnd ≤ Word.greatest) :
    t.Spaced :=
  ⟨h.nonempty, space, h.apart⟩

/-- The mapping is the lowest of those that the section meets. -/
structure LowestMet (t : MappingTable) (first size : Nat) (m : Mapping) : Prop where
  mem : m ∈ t
  meets : m.Meets first size
  lowest : ∀ n ∈ t, n.Meets first size → m.hostBegin ≤ n.hostBegin

/-- At most one mapping is the lowest. -/
theorem LowestMet.unique (hm : t.LowestMet first size m) (hn : t.LowestMet first size n) : m = n := by
  have le := hm.lowest n hn.mem hn.meets
  have ge := hn.lowest m hm.mem hm.meets
  exact AddressMap.eq_of_address_eq hm.mem hn.mem (Nat.le_antisymm le ge)

namespace Spaced

/-- The mapping that contains an address is the one that is found there. -/
theorem containing?_eq_some_iff (h : t.Spaced) :
    t.containing? addr = some m ↔ m ∈ t ∧ m.contains addr = true := by
  constructor
  · exact containing?_mem
  · rintro ⟨hm, inside⟩
    have last := h.space m hm
    have below := (Mapping.contains_iff.1 inside).2
    exact h.apart.containing?_eq hm inside (by omega)

/-- A mapping that contains the first byte lies below all others that the section meets. -/
theorem lowestMet_containing (h : t.Spaced) (hm : m ∈ t) (inside : m.contains first = true) :
    t.LowestMet first size m := by
  refine ⟨hm, Mapping.meets_of_contains inside, fun n hn meets => ?_⟩
  have bounds := Mapping.contains_iff.1 inside
  have lastM := h.space m hm
  have lastN := h.space n hn
  rcases (Mapping.meets_iff (h.nonempty n hn)).1 meets with containing | behind
  · rcases Nat.lt_or_ge n.hostBegin m.hostBegin with lower | higher
    · have := h.apart n hn m hm lower (by omega)
      omega
    · exact higher
  · omega

/-- The closest mapping above the first byte is the lowest one that the section meets, if it reaches it
and no mapping contains that byte. -/
theorem lowestMet_above (h : t.Spaced) (hc : t.containing? first = none)
    (ha : t.entries.above? first = some m) (reached : m.hostBegin < first + size) :
    t.LowestMet first size m := by
  obtain ⟨hm, above, least⟩ := AddressMap.above?_eq_some_iff.1 ha
  refine ⟨hm, (Mapping.meets_iff (h.nonempty m hm)).2 (.inr ⟨above, reached⟩), fun n hn meets => ?_⟩
  rcases (Mapping.meets_iff (h.nonempty n hn)).1 meets with containing | ⟨behind, -⟩
  · have found := h.containing?_eq_some_iff.2 ⟨hn, Mapping.contains_iff.2 containing⟩
    rw [hc] at found
    cases found
  · exact least n hn behind

/-- A lookup that finds nothing speaks for all mappings. -/
theorem not_meets_of_lookup (h : t.Spaced) (fits : first + size ≤ Word.greatest)
    (hl : (t.lookup first size).mapping? = none) : ∀ m ∈ t, ¬ m.Meets first size := by
  intro m hm meets
  have ne := h.nonempty m hm
  have last := h.space m hm
  rcases (Mapping.meets_iff ne).1 meets with containing | reached
  · rcases h.apart.lookup_none_apart hl hm with ⟨-, before⟩ | ⟨gt, -⟩
    · have := before (by omega)
      omega
    · omega
  · rcases h.apart.lookup_none_apart hl hm with ⟨le, -⟩ | ⟨-, behind⟩
    · omega
    · have := behind (by omega)
      omega

/-- What is found is the lowest mapping that the section meets. -/
theorem lowestMet_of_lookup (h : t.Spaced) (fits : first + size ≤ Word.greatest)
    (hl : (t.lookup first size).mapping? = some m) : t.LowestMet first size m := by
  rcases lookup_cases hl with hc | ⟨hc, ha, reached⟩
  · obtain ⟨hm, inside⟩ := containing?_mem hc
    exact h.lowestMet_containing hm inside
  · refine h.lowestMet_above hc ha ?_
    unfold Word.saturatingAdd at reached
    omega

theorem lookup_mapping_eq_none_iff (h : t.Spaced) (fits : first + size ≤ Word.greatest) :
    (t.lookup first size).mapping? = none ↔ ∀ m ∈ t, ¬ m.Meets first size := by
  constructor
  · exact h.not_meets_of_lookup fits
  · intro none
    cases hl : (t.lookup first size).mapping? with
    | none => rfl
    | some m =>
        have found := h.lowestMet_of_lookup fits hl
        exact absurd found.meets (none m found.mem)

theorem lookup_mapping_eq_some_iff (h : t.Spaced) (fits : first + size ≤ Word.greatest) :
    (t.lookup first size).mapping? = some m ↔ t.LowestMet first size m := by
  constructor
  · exact h.lowestMet_of_lookup fits
  · intro lowest
    cases hl : (t.lookup first size).mapping? with
    | none => exact absurd lowest.meets (h.not_meets_of_lookup fits hl m lowest.mem)
    | some n => rw [(h.lowestMet_of_lookup fits hl).unique lowest]

end Spaced

/-- Without a mapping the answer says nothing else either. -/
theorem lookup_eq_empty (h : (t.lookup first size).mapping? = none) : t.lookup first size = {} := by
  obtain ⟨hc, far⟩ := lookup_eq_none_cases h
  unfold lookup
  cases ha : t.entries.above? first with
  | none => simp only [hc]
  | some m =>
      have := far m ha
      simp only [hc]
      exact if_neg (by omega)

/-- What the answer says about the mapping that was found, for a section that does not wrap around. -/
theorem lookup_eq_of_mapping (fits : first + size ≤ Word.greatest)
    (h : (t.lookup first size).mapping? = some m) :
    t.lookup first size =
      { mapping? := some m
        contained := m.hostBegin ≤ first ∧ first < m.hostEnd ∧ first + size ≤ m.hostEnd
        extendsBefore := first < m.hostBegin
        extendsAfter := m.hostEnd < first + size } := by
  have last : Word.saturatingAdd first size = first + size := by
    unfold Word.saturatingAdd
    omega
  rcases lookup_cases h with hc | ⟨hc, ha, reached⟩
  · have inside := Mapping.contains_iff.1 (containing?_mem hc).2
    rw [lookup_of_containing? hc, last]
    simp [inside]
  · have above := (AddressMap.above?_eq_some_iff.1 ha).2.1
    rw [Mapping.address_eq] at above
    rw [lookup_of_above? hc ha reached, last]
    simp [above, Nat.not_le.2 above]

/-! ## Insertions -/

/-- A section with bytes is added if it shares none with a mapping. -/
theorem Spaced.insert_isOk_iff (h : t.Spaced) (hm : m.IsSection) :
    (t.insert m).1 = .ok () ↔ m.hostBegin < m.hostEnd ∧ ∀ n ∈ t, m.Disjoint n := by
  obtain ⟨le, last⟩ := hm
  have fits : m.hostBegin + m.length ≤ Word.greatest := by
    unfold Mapping.length
    omega
  have free (ne : m.hostBegin < m.hostEnd) :
      (t.lookup m.hostBegin m.length).mapping? = none ↔ ∀ n ∈ t, m.Disjoint n := by
    rw [h.lookup_mapping_eq_none_iff fits]
    simp only [Mapping.meets_iff_not_disjoint ne, not_not]
  constructor
  · intro ok
    rcases insert_cases t m with ⟨e, error, -⟩ | ⟨ne, none, -, -⟩
    · rw [ok] at error
      cases error
    · have ne : m.hostBegin < m.hostEnd := by omega
      exact ⟨ne, (free ne).1 none⟩
  · rintro ⟨ne, disjoint⟩
    rw [insert_eq ne ((free ne).2 disjoint)]

theorem insert_empty (h : m.hostEnd = m.hostBegin) :
    t.insert m = (.error (.emptySection m.hostBegin), t) := by
  have empty : m.isEmpty = true := by simp [Mapping.isEmpty, h]
  unfold insert
  rw [if_pos empty]

/-- The lowest mapping that shares a byte with a section refuses it. -/
theorem Spaced.insert_overlap (h : t.Spaced) (hm : m.IsSection) (ne : m.hostBegin < m.hostEnd)
    (lowest : t.LowestMet m.hostBegin m.length n) :
    t.insert m =
      (.error (.overlap m.hostBegin m.hostEnd n.hostBegin n.hostEnd), t.recordOverlap) := by
  have fits : m.hostBegin + m.length ≤ Word.greatest := by
    have := hm.2
    unfold Mapping.length
    omega
  have found := (h.lookup_mapping_eq_some_iff fits).2 lowest
  have nonempty : ¬ m.isEmpty = true := by
    rw [Mapping.isEmpty, beq_iff_eq]
    omega
  unfold insert
  rw [if_neg nonempty, found]

/-- A section without bytes is refused, and otherwise the lowest mapping in the way refuses. -/
theorem Spaced.insert_error (h : t.Spaced) (hm : m.IsSection) {e : MappingError}
    (failed : (t.insert m).1 = .error e) :
    (m.hostEnd = m.hostBegin ∧ t.insert m = (.error (.emptySection m.hostBegin), t)) ∨
      (m.hostBegin < m.hostEnd ∧ ∃ n, t.LowestMet m.hostBegin m.length n ∧
        t.insert m =
          (.error (.overlap m.hostBegin m.hostEnd n.hostBegin n.hostEnd), t.recordOverlap)) := by
  have fits : m.hostBegin + m.length ≤ Word.greatest := by
    have := hm.1
    have := hm.2
    unfold Mapping.length
    omega
  rcases Nat.eq_or_lt_of_le hm.1 with empty | ne
  · exact .inl ⟨empty.symm, insert_empty empty.symm⟩
  · cases hl : (t.lookup m.hostBegin m.length).mapping? with
    | none =>
        rw [insert_eq ne hl] at failed
        cases failed
    | some n =>
        have lowest := h.lowestMet_of_lookup fits hl
        exact .inr ⟨ne, n, lowest, h.insert_overlap hm ne lowest⟩

/-- After any changes from the empty table on, a lookup finds a mapping exactly if one contains the first
byte of the section or shares a byte with it, it finds the lowest of these and says how the section lies
to it, and an insertion succeeds exactly for a section with bytes that shares none with a mapping. A
refused insertion leaves the table as it is, up to the count of refused overlaps, and the error of a
refused overlap has the bounds of the lowest mapping in the way. -/
theorem after_lookup_insert (changes : List TableChange)
    (sections : ∀ m, TableChange.insert m ∈ changes → m.IsSection) :
    (∀ first size, first + size ≤ Word.greatest →
      ((after changes).lookup first size = {} ↔ ∀ m ∈ after changes, ¬ m.Meets first size) ∧
      (∀ m, ((after changes).lookup first size).mapping? = some m ↔
        (after changes).LowestMet first size m) ∧
      ∀ m, ((after changes).lookup first size).mapping? = some m →
        (((after changes).lookup first size).contained = true ↔
          m.hostBegin ≤ first ∧ first < m.hostEnd ∧ first + size ≤ m.hostEnd) ∧
        (((after changes).lookup first size).extendsBefore = true ↔ first < m.hostBegin) ∧
        (((after changes).lookup first size).extendsAfter = true ↔ m.hostEnd < first + size)) ∧
    ∀ m : Mapping, m.IsSection →
      (((after changes).insert m).1 = .ok () ↔
        m.hostBegin < m.hostEnd ∧ ∀ n ∈ after changes, m.Disjoint n) ∧
      ∀ e, ((after changes).insert m).1 = .error e →
        (m.hostEnd = m.hostBegin ∧
          (after changes).insert m = (.error (.emptySection m.hostBegin), after changes)) ∨
        (m.hostBegin < m.hostEnd ∧ ∃ n, (after changes).LowestMet m.hostBegin m.length n ∧
          (after changes).insert m =
            (.error (.overlap m.hostBegin m.hostEnd n.hostBegin n.hostEnd),
              (after changes).recordOverlap)) := by
  have spaced := (accounted changes sections).spaced
  refine ⟨fun first size fits => ⟨?_, fun m => spaced.lookup_mapping_eq_some_iff fits, fun m found => ?_⟩,
    fun m hm => ⟨spaced.insert_isOk_iff hm, fun e failed => spaced.insert_error hm failed⟩⟩
  · rw [← spaced.lookup_mapping_eq_none_iff fits]
    constructor
    · intro empty
      rw [empty]
    · exact lookup_eq_empty
  · have answer := lookup_eq_of_mapping fits found
    rw [answer]
    simp only [decide_eq_true_eq, and_self]

/-- Three mappings with a gap before the last one. A section that begins below all of them
and ends in the last one meets all three. -/
def gappedChanges : List TableChange :=
  [.insert ⟨0, 0x1000, 0x1010, 0, .one⟩, .insert ⟨0, 0x1010, 0x1040, 0, .one⟩,
    .insert ⟨0, 0x1080, 0x10c0, 0, .one⟩]

/-- The lowest of the three is found for it, an empty section in the gap meets none, and a mapping that fills the
gap is added. -/
theorem after_lookup_insert_gappedChanges :
    (∀ m, TableChange.insert m ∈ gappedChanges → m.IsSection) ∧
      (after gappedChanges).LowestMet 0xff0 0xa0 ⟨0, 0x1000, 0x1010, 0, .one⟩ ∧
      (∀ m ∈ after gappedChanges, ¬ m.Meets 0x1040 0) ∧
      ∀ m ∈ after gappedChanges, (⟨0, 0x1040, 0x1080, 0, .one⟩ : Mapping).Disjoint m := by
  have sections : ∀ m, TableChange.insert m ∈ gappedChanges → m.IsSection := by
    intro m hm
    simp only [gappedChanges, List.mem_cons, TableChange.insert.injEq, List.not_mem_nil,
      or_false] at hm
    rcases hm with rfl | rfl | rfl <;> exact ⟨by decide, by decide⟩
  obtain ⟨lookups, insertions⟩ := after_lookup_insert gappedChanges sections
  have lowest := ((lookups 0xff0 0xa0 (by decide)).2.1 ⟨0, 0x1000, 0x1010, 0, .one⟩).1 (by decide)
  have accepted := (insertions ⟨0, 0x1040, 0x1080, 0, .one⟩ ⟨by decide, by decide⟩).1.1 (by decide)
  exact ⟨sections, lowest, (lookups 0x1040 0 (by decide)).1.1 (by decide), accepted.2⟩

end MappingTable

end Offloading
