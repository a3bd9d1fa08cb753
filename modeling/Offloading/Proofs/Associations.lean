import Offloading.Proofs.MappingRequests
/-!
# Associated sections

The association of a section that meets no mapping inserts one with an infinite count. A section that is
mapped to the same place already is accepted as it is. If a region made that mapping, its count stays
finite: the section is mapped as asked for, but it goes away with the region.
-/

namespace Offloading

namespace Mapping

variable {m : Mapping} {first size target : Nat}

/-- The mapping holds the whole section, with its first byte at the device address `target`. -/
def HoldsAt (m : Mapping) (first size target : Nat) : Prop :=
  m.Covers first size ∧ m.translate first = target

instance : Decidable (m.HoldsAt first size target) := inferInstanceAs (Decidable (_ ∧ _))

theorem meets_of_covers (pos : 0 < size) (covers : m.Covers first size) : m.Meets first size := by
  refine meets_of_contains (contains_iff.2 ⟨covers.1, ?_⟩)
  have := covers.2
  omega

end Mapping

namespace Device

open DeviceM

variable {l l' : Link} {first target size : Nat} {m : Mapping} {e : DeviceError}

theorem contained_lookup (pos : 0 < size) (fits : first + size ≤ Word.greatest)
    (found : (l.device.mappings.lookup first size).mapping? = some m) :
    (l.device.mappings.lookup first size).contained = true ↔ m.Covers first size := by
  rw [MappingTable.lookup_eq_of_mapping fits found]
  simp only [decide_eq_true_eq, Mapping.Covers]
  omega

/-- The mapping that an association of a section makes. -/
def pinned (first target size : Nat) : Mapping := ⟨first, first, first + size, target, .infinite⟩

/-- A section that meets no mapping gets one. -/
theorem exec_associate_new (pos : 0 < size)
    (free : (l.device.mappings.lookup first size).mapping? = none) :
    exec (associate first target size) l =
      (.ok (), l.withMappings (l.device.mappings.insert (pinned first target size)).2) := by
  have length : (pinned first target size).length = size := Nat.add_sub_cancel_left first size
  rw [associate, exec_device_bind]
  dsimp only
  rw [free]
  refine exec_insertMapping (m := pinned first target size) (Nat.lt_add_of_pos_right pos) ?_
  rw [length]
  exact free

/-- A section that meets a mapping is accepted if the mapping holds it at the target, and the table stays
as it is either way. -/
theorem exec_associate_found (pos : 0 < size) (fits : first + size ≤ Word.greatest)
    (found : (l.device.mappings.lookup first size).mapping? = some m) :
    exec (associate first target size) l =
      if m.HoldsAt first size target then (.ok (), l)
      else (.error (.association l.device.id (.mappedElsewhere first)), l) := by
  have same : ((l.device.mappings.lookup first size).contained && m.translate first == target) = true ↔
      m.HoldsAt first size target := by
    rw [Bool.and_eq_true, contained_lookup pos fits found, beq_iff_eq]
    rfl
  rw [associate, exec_device_bind]
  dsimp only
  rw [found]
  dsimp only
  by_cases holds : m.HoldsAt first size target
  · rw [if_pos holds, if_pos (same.2 holds)]
    rfl
  · rw [if_neg holds, if_neg fun h => holds (same.1 h)]
    rfl

/-- What an association does. -/
theorem associate_cases (spaced : l.device.mappings.Spaced) (pos : 0 < size)
    (fits : first + size ≤ Word.greatest) :
    ((∀ m ∈ l.device.mappings, ¬ m.Meets first size) ∧
      exec (associate first target size) l =
        (.ok (), l.withMappings (l.device.mappings.insert (pinned first target size)).2)) ∨
    (∃ m, l.device.mappings.LowestMet first size m ∧ m.HoldsAt first size target ∧
      exec (associate first target size) l = (.ok (), l)) ∨
    (∃ m, l.device.mappings.LowestMet first size m ∧ ¬ m.HoldsAt first size target ∧
      exec (associate first target size) l =
        (.error (.association l.device.id (.mappedElsewhere first)), l)) := by
  cases found : (l.device.mappings.lookup first size).mapping? with
  | none => exact .inl ⟨spaced.not_meets_of_lookup fits found, exec_associate_new pos found⟩
  | some m =>
      have lowest := spaced.lowestMet_of_lookup fits found
      by_cases holds : m.HoldsAt first size target
      · refine .inr (.inl ⟨m, lowest, holds, ?_⟩)
        rw [exec_associate_found pos fits found, if_pos holds]
      · refine .inr (.inr ⟨m, lowest, holds, ?_⟩)
        rw [exec_associate_found pos fits found, if_neg holds]

/-- The mapping that an association makes is in the table afterwards. -/
theorem pinned_mem (pos : 0 < size)
    (free : (l.device.mappings.lookup first size).mapping? = none) :
    pinned first target size ∈ (l.device.mappings.insert (pinned first target size)).2 := by
  have length : (pinned first target size).length = size := Nat.add_sub_cancel_left first size
  rw [MappingTable.insert_eq (Nat.lt_add_of_pos_right pos) (by rw [length]; exact free)]
  exact AddressMap.mem_insert_self

theorem pinned_holdsAt (fits : first + size ≤ Word.greatest) (word : target < Word.modulus) :
    (pinned first target size).HoldsAt first size target := by
  have below : first < Word.modulus := by
    rw [Word.greatest] at fits
    omega
  exact ⟨⟨Nat.le_refl _, Nat.le_refl _⟩,
    Mapping.translate_hostBegin (m := pinned first target size) below word⟩

/-- On any device, an association of a section with bytes that does not wrap around fails exactly if the
section meets a mapping that does not hold all of it at the target, and nothing changes then. After a
success one mapping holds the whole section at the target. Its count is infinite exactly if no mapping
with a finite count held the section before; such a mapping is left as it was. -/
theorem associate_pins_iff (reachable : l.Reachable) (pos : 0 < size)
    (fits : first + size ≤ Word.greatest) (word : target < Word.modulus) :
    ((∃ e, (exec (associate first target size) l).1 = .error e) ↔
      ∃ m ∈ l.device.mappings, m.Meets first size ∧ ¬ m.HoldsAt first size target) ∧
    (∀ e l', exec (associate first target size) l = (.error e, l') →
      e = .association l.device.id (.mappedElsewhere first) ∧ l' = l) ∧
    ∀ l', Returns (associate first target size) l () l' →
      ∃ m ∈ l'.device.mappings, m.HoldsAt first size target ∧
        (m.refCount.isInfinite = true ↔
          ∀ n ∈ l.device.mappings, n.Covers first size → n.refCount.isInfinite = true) ∧
        (m.refCount.isInfinite = false → l' = l) := by
  have spaced := reachable.spaced
  rcases associate_cases spaced pos fits with
    ⟨none, ran⟩ | ⟨m, lowest, holds, ran⟩ | ⟨m, lowest, elsewhere, ran⟩
  · have free := (spaced.lookup_mapping_eq_none_iff fits).2 none
    refine ⟨⟨fun ⟨e, failed⟩ => ?_, fun ⟨m, hm, meets, _⟩ => absurd meets (none m hm)⟩,
      fun e l' failed => ?_, fun l' success => ?_⟩
    · rw [ran] at failed
      cases failed
    · rw [ran] at failed
      cases failed
    · rw [Returns, ran] at success
      cases success
      refine ⟨pinned first target size, pinned_mem pos free, pinned_holdsAt fits word,
        iff_of_true (by decide : ReferenceCount.infinite.isInfinite = true) fun n hn covers => ?_,
        fun finite => ?_⟩
      · exact absurd (Mapping.meets_of_covers pos covers) (none n hn)
      · exact absurd finite (by decide : ReferenceCount.infinite.isInfinite ≠ false)
  · -- every mapping that the section meets is the one that holds it
    have only (n : Mapping) (hn : n ∈ l.device.mappings) (meets : n.Meets first size) : m = n :=
      spaced.eq_of_covers lowest.mem lowest.meets holds.1 hn meets
    refine ⟨⟨fun ⟨e, failed⟩ => ?_, fun ⟨n, hn, meets, elsewhere⟩ => ?_⟩, fun e l' failed => ?_,
      fun l' success => ?_⟩
    · rw [ran] at failed
      cases failed
    · rw [only n hn meets] at holds
      exact absurd holds elsewhere
    · rw [ran] at failed
      cases failed
    · rw [Returns, ran] at success
      cases success
      refine ⟨m, lowest.mem, holds, ⟨fun inf n hn covers => ?_, fun all => all m lowest.mem holds.1⟩,
        fun _ => rfl⟩
      rw [← only n hn (Mapping.meets_of_covers pos covers)]
      exact inf
  · refine ⟨iff_of_true ⟨_, by rw [ran]⟩ ⟨m, lowest.mem, lowest.meets, elsewhere⟩,
      fun e l' failed => ?_, fun l' success => ?_⟩
    · rw [ran] at failed
      cases failed
      exact ⟨rfl, rfl⟩
    · rw [Returns, ran] at success
      cases success

/-- A device on which a region maps one section of 16 bytes. -/
def mappedByRegion : Link := (Tenancy.perform ⟨Tenancy.unused, []⟩ (.map 0x1000 0x1000 16 false true)).link

/-- The last half of that section is associated with the place where it is. This succeeds, and the mapping
keeps the one reference of the region. A section behind it is pinned, and one that reaches behind it is
refused. -/
theorem associate_pins_iff_mappedByRegion :
    mappedByRegion.Reachable ∧
      (∃ m ∈ (exec (associate 0x1008 0xd00000000008 8) mappedByRegion).2.device.mappings,
        m.HoldsAt 0x1008 8 0xd00000000008 ∧ m.refCount.isInfinite = false) ∧
      (∃ m ∈ (exec (associate 0x1010 0xd00000000100 8) mappedByRegion).2.device.mappings,
        m.HoldsAt 0x1010 8 0xd00000000100 ∧ m.refCount.isInfinite = true) ∧
      (∃ e, (exec (associate 0x1008 0xd00000000008 16) mappedByRegion).1 = .error e) := by
  have reachable : mappedByRegion.Reachable := by
    refine .called _ (.fresh rfl) ?_
    change 0x1000 + 16 ≤ Word.greatest
    decide
  have table : mappedByRegion.device.mappings.toList =
      [⟨0x1000, 0x1000, 0x1010, 0xd00000000000, .one⟩] := by
    cbv
  have mem (m : Mapping) : m ∈ mappedByRegion.device.mappings ↔
      m = ⟨0x1000, 0x1000, 0x1010, 0xd00000000000, .one⟩ := by
    change m ∈ mappedByRegion.device.mappings.toList ↔ _
    rw [table]
    exact List.mem_singleton
  have held := @associate_pins_iff mappedByRegion 0x1008 0xd00000000008 8 reachable (by decide)
    (by decide) (by decide)
  have behind := @associate_pins_iff mappedByRegion 0x1010 0xd00000000100 8 reachable (by decide)
    (by decide) (by decide)
  have across := @associate_pins_iff mappedByRegion 0x1008 0xd00000000008 16 reachable (by decide)
    (by decide) (by decide)
  refine ⟨reachable, ?_, ?_, ?_⟩
  · obtain ⟨m, hm, holds, pins, -⟩ := held.2.2 _ (returns_of_ok (by cbv))
    refine ⟨m, hm, holds, Bool.eq_false_iff.2 fun inf => ?_⟩
    have := pins.1 inf _ ((mem _).2 rfl) (by decide)
    exact absurd this (by decide)
  · obtain ⟨m, hm, holds, pins, -⟩ := behind.2.2 _ (returns_of_ok (by cbv))
    refine ⟨m, hm, holds, pins.2 fun n hn covers => ?_⟩
    rw [(mem n).1 hn] at covers
    exact absurd covers (by decide)
  · exact across.1.2 ⟨_, (mem _).2 rfl, .inl (by decide), by decide⟩

end Device

end Offloading
