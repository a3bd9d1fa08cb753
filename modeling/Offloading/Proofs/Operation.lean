import Offloading.Proofs.Refusal
/-!
# What operations change

Everything that one operation can do to the mappings of a device and to the blocks of its memory. What
a run of operations keeps is proved by these few cases.
-/

namespace Offloading

namespace Mapping

/-- The mapping goes away with its last reference. Associated memory and global variables do not. -/
def IsFinite (m : Mapping) : Prop := m.refCount.isInfinite = false

end Mapping

namespace Link

variable {l l' : Link} {m m' : DeviceMemory} {e n : Mapping}

/-- Where the live blocks of the device start and how long they are. -/
def extents (l : Link) : List (Nat × Nat) :=
  match l.memory? with
  | some m => m.extents
  | none => []

theorem extents_of_memory? (h : l.memory? = some m) : l.extents = m.extents := by
  rw [extents, h]

theorem extents_congr (h : l'.memory? = l.memory?) : l'.extents = l.extents := by
  rw [extents, extents, h]

/-- No count of a mapping that stays becomes infinite. -/
def StaysFinite (l l' : Link) : Prop :=
  ∀ e ∈ l.device.mappings, e.IsFinite → ∀ n ∈ l'.device.mappings, n.SamePlace e → n.IsFinite

/-- What one operation can do to mappings and blocks, unless it takes user memory back. -/
inductive Changed (l l' : Link) : Prop where
  /-- Nothing. -/
  | idle (failed : List Nat) (h : l.Idle l' failed)
  /-- A mapping got another count. -/
  | recounted (e : Mapping) (c : ReferenceCount) (he : e ∈ l.device.mappings)
      (infinite : e.refCount.isInfinite = true → c = e.refCount) (served : l.Served l' [])
      (entries : l'.device.mappings.entries = l.device.mappings.entries.insert { e with refCount := c })
      (memory : l'.memory? = l.memory?)
  /-- A section was mapped to a new block. -/
  | mapped (e : Mapping) (m m' : DeviceMemory)
      (free : ∀ n ∈ l.device.mappings, n.hostBegin ≠ e.hostBegin) (finite : e.IsFinite)
      (nonempty : 0 < e.length) (served : l.Served l' [])
      (entries : l'.device.mappings.entries = l.device.mappings.entries.insert e)
      (before : l.memory? = some m) (allocated : m.allocate e.length = (some e.deviceBegin, m'))
      (after : l'.memory? = some m')
  /-- A section was mapped to memory that belongs to somebody else. -/
  | pinned (e : Mapping) (free : ∀ n ∈ l.device.mappings, n.hostBegin ≠ e.hostBegin)
      (infinite : ¬ e.IsFinite) (served : l.Served l' [])
      (entries : l'.device.mappings.entries = l.device.mappings.entries.insert e)
      (memory : l'.memory? = l.memory?)
  /-- A mapping was removed with its block. -/
  | released (e : Mapping) (m m' : DeviceMemory) (he : e ∈ l.device.mappings) (finite : e.IsFinite)
      (served : l.Served l' [])
      (entries : l'.device.mappings.entries = l.device.mappings.entries.erase e.hostBegin)
      (before : l.memory? = some m) (freed : m.free e.deviceBegin = (true, m'))
      (after : l'.memory? = some m')
  /-- A mapping was removed and its block could not be. -/
  | lost (e : Mapping) (he : e ∈ l.device.mappings) (finite : e.IsFinite)
      (served : l.Served l' [e.deviceBegin])
      (entries : l'.device.mappings.entries = l.device.mappings.entries.erase e.hostBegin)
      (memory : l'.memory? = l.memory?)
      (why : l.accelerator.schedule .delete (l.accelerator.calls.of .delete) = true ∨
        ∀ m, l.memory? = some m → ∀ b ∈ m.blocks, b.start ≠ e.deviceBegin)

/-- A mapping to memory that belongs to somebody else was removed. -/
structure Unpinned (l l' : Link) (e : Mapping) : Prop where
  mapped : e ∈ l.device.mappings
  infinite : ¬ e.IsFinite
  served : l.Served l' []
  entries : l'.device.mappings.entries = l.device.mappings.entries.erase e.hostBegin
  memory : l'.memory? = l.memory?

theorem Changed.served (h : l.Changed l') : ∃ failed, l.Served l' failed := by
  cases h with
  | idle failed idle => exact ⟨failed, idle.toServed⟩
  | recounted e c he infinite served => exact ⟨[], served⟩
  | mapped e m m' free finite nonempty served => exact ⟨[], served⟩
  | pinned e free infinite served => exact ⟨[], served⟩
  | released e m m' he finite served => exact ⟨[], served⟩
  | lost e he finite served => exact ⟨_, served⟩

end Link

namespace Device

open DeviceM

variable {l : Link} {first base size target : Nat} {implicit updateRef force : Bool}

private theorem changed_setCount {e : Mapping} {c : ReferenceCount} (he : e ∈ l.device.mappings)
    (infinite : e.refCount.isInfinite = true → c = e.refCount) {t : MappingTable}
    (ht : t.entries = (l.device.mappings.setCount e c).entries) : l.Changed (l.withMappings t) :=
  .recounted e c he infinite Link.served_withMappings ht rfl

private theorem not_isFinite_infinite {base first last addr : Nat} :
    ¬ Mapping.IsFinite ⟨base, first, last, addr, .infinite⟩ := by
  change ¬ ReferenceCount.infinite.isInfinite = false
  decide

private theorem changed_insertMapping {m : Mapping} (hl : l.device.mappings.WellFormed)
    (infinite : ¬ m.IsFinite) : l.Changed (exec (insertMapping m) l).2 := by
  have ran : (exec (insertMapping m) l).2 = l.withMappings (l.device.mappings.insert m).2 := by
    rw [insertMapping, exec_device_bind]
    dsimp only
    rw [exec_bind_ok (x := modifyMappings _) rfl]
    rcases (l.device.mappings.insert m).1 with _ | _
    · rfl
    · rfl
  rw [ran]
  rcases MappingTable.insert_cases l.device.mappings m with ⟨_, -, entries⟩ | ⟨-, free, -, entries⟩
  · exact .idle [] (Link.idle_withMappings entries)
  · exact .pinned m (fun n hn => hl.hostBegin_ne free hn) infinite Link.served_withMappings entries
      rfl

theorem changed_map (hl : l.device.mappings.WellFormed) :
    l.Changed (exec (map first base size implicit updateRef) l).2 := by
  rw [map, exec_device_bind]
  dsimp only
  cases hm : (l.device.mappings.lookup first size).mapping? with
  | some e =>
      have he := MappingTable.mem_of_lookup hm
      dsimp only
      split
      · exact .idle [] (Link.idle_withMappings rfl)
      · refine changed_setCount he (c := if updateRef then e.refCount.increment else e.refCount)
          (fun inf => ?_) rfl
        split
        · exact ReferenceCount.increment_of_infinite inf
        · rfl
  | none =>
      dsimp only
      by_cases empty : size = 0
      · rw [if_pos empty]
        exact .idle [] (Link.idle_refl l)
      · rw [if_neg empty, exec_bind]
        rcases ha : exec (allocate size) l with ⟨e | addr, l₁⟩
        · exact .idle [] (allocate_error ha)
        · obtain ⟨m, m', before, allocated, wrote⟩ := returns_allocate ha
          have length : Mapping.length ⟨base, first, first + size, addr, .one⟩ = size :=
            Nat.add_sub_cancel_left first size
          have free : ((l₁.device.mappings).lookup first size).mapping? = none := by
            rw [wrote.mappings]
            exact hm
          have inserted := exec_insertMapping (l := l₁)
            (m := ⟨base, first, first + size, addr, .one⟩) (by change first < first + size; omega)
            (by rw [length]; exact free)
          dsimp only
          rw [exec_bind_ok inserted]
          refine .mapped ⟨base, first, first + size, addr, .one⟩ m m'
            (fun n hn => hl.hostBegin_ne hm hn) rfl (by rw [length]; omega) ?_ ?_ before
            (by rw [length]; exact allocated) (wrote.memory? before)
          · obtain ⟨unit, others, schedule, failed⟩ := served_of_allocate ha
            exact ⟨unit, others, schedule, failed⟩
          change (l₁.device.mappings.insert _).2.entries = _
          rw [MappingTable.insert_eq (by change first < first + size; omega)
            (by rw [length]; exact free), wrote.mappings]

theorem changed_hold : l.Changed (exec (hold first size updateRef) l).2 := by
  rw [hold, exec_device_bind]
  cases hm : (l.device.mappings.lookup first size).mapping? with
  | none => exact .idle [] (Link.idle_refl l)
  | some e =>
      dsimp only
      split
      · refine changed_setCount (MappingTable.mem_of_lookup hm) (c := e.refCount.decrement)
          ReferenceCount.decrement_of_infinite rfl
      · exact .idle [] (Link.idle_refl l)

private theorem changed_removeMapping {e : Mapping} (he : e ∈ l.device.mappings)
    (finite : e.IsFinite) : l.Changed (exec (removeMapping e) l).2 := by
  have entries : (l.device.without e).mappings.entries =
      l.device.mappings.entries.erase e.hostBegin := MappingTable.remove_entries he
  change l.Changed (exec (free e.deviceBegin) { l with device := l.device.without e }).2
  rcases hf : exec (free e.deviceBegin) { l with device := l.device.without e } with ⟨_ | _, l'⟩
  · obtain ⟨idle, why⟩ := free_error hf
    exact .lost e he finite ⟨idle.unit, idle.others, idle.schedule, idle.failedReleases⟩
      (idle.entries.trans entries) idle.memory? why
  · obtain ⟨m, m', before, freed, wrote⟩ := returns_free hf
    obtain ⟨unit, others, schedule, failed⟩ := served_of_free hf
    refine .released e m m' he finite ⟨unit, others, schedule, failed⟩ ?_ before freed (wrote.memory? before)
    rw [wrote.mappings]
    exact entries

theorem changed_unmap : l.Changed (exec (unmap first size force) l).2 := by
  rw [unmap, exec_device_bind]
  cases hm : (l.device.mappings.lookup first size).mapping? with
  | none => exact .idle [] (Link.idle_refl l)
  | some e =>
      have he := MappingTable.mem_of_lookup hm
      dsimp only
      cases inf : e.refCount.isInfinite with
      | true => exact .idle [] (Link.idle_refl l)
      | false =>
          rw [if_neg Bool.false_ne_true]
          by_cases more : 0 < (if force then ReferenceCount.one else e.refCount).decrement.value
          · rw [if_pos more]
            refine changed_setCount he (fun h => ?_) rfl
            rw [inf] at h
            cases h
          · rw [if_neg more]
            exact changed_removeMapping he inf

theorem changed_associate (hl : l.device.mappings.WellFormed) :
    l.Changed (exec (associate first target size) l).2 := by
  rw [associate, exec_device_bind]
  dsimp only
  cases hm : (l.device.mappings.lookup first size).mapping? with
  | some e =>
      dsimp only
      split
      · exact .idle [] (Link.idle_refl l)
      · exact .idle [] (Link.idle_refl l)
  | none => exact changed_insertMapping hl not_isFinite_infinite

theorem changed_mapGlobal (hl : l.device.mappings.WellFormed) :
    l.Changed (exec (mapGlobal first target size) l).2 := by
  rw [mapGlobal, exec_device_bind]
  split
  · exact .idle [] (Link.idle_refl l)
  · have changed := changed_insertMapping (m := ⟨first, first, first + size, target, .infinite⟩) hl
      not_isFinite_infinite
    refine exec_bind_ind (fun e l' h => ?_) fun _ l' h => ?_
    · rwa [h] at changed
    · rwa [h] at changed

theorem changed_disassociate :
    l.Changed (exec (disassociate first) l).2 ∨
      ∃ e, l.Unpinned (exec (disassociate first) l).2 e := by
  rw [disassociate, exec_device_bind]
  cases hm : (l.device.mappings.lookup first 0).mapping? with
  | none => exact .inl (.idle [] (Link.idle_refl l))
  | some e =>
      have he := MappingTable.mem_of_lookup hm
      dsimp only
      cases inf : e.refCount.isInfinite with
      | false => exact .inl (.idle [] (Link.idle_refl l))
      | true =>
          refine .inr ⟨e, he, ?_, Link.served_withMappings, MappingTable.remove_entries he, rfl⟩
          rw [Mapping.IsFinite, inf]
          exact Bool.noConfusion

end Device

namespace Link

variable {l l' : Link}

theorem mem_of_insert {e n : Mapping}
    (entries : l'.device.mappings.entries = l.device.mappings.entries.insert e) :
    n ∈ l'.device.mappings ↔ n = e ∨ (n ∈ l.device.mappings ∧ n.hostBegin ≠ e.hostBegin) := by
  change n ∈ l'.device.mappings.entries ↔ _
  rw [entries]
  exact AddressMap.mem_insert

theorem mem_of_erase {e n : Mapping} (he : e ∈ l.device.mappings)
    (entries : l'.device.mappings.entries = l.device.mappings.entries.erase e.hostBegin) :
    n ∈ l'.device.mappings ↔ n ∈ l.device.mappings ∧ n ≠ e := by
  change n ∈ l'.device.mappings.entries ↔ _
  rw [entries, AddressMap.mem_erase]
  refine and_congr_right fun hn => not_congr ⟨AddressMap.eq_of_address_eq hn he, ?_⟩
  rintro rfl
  rfl

private theorem stays_or_erased {e d : Mapping} (he : e ∈ l.device.mappings)
    (hd : d ∈ l.device.mappings)
    (entries : l'.device.mappings.entries = l.device.mappings.entries.erase d.hostBegin) :
    (∃ n ∈ l'.device.mappings, n.SamePlace e) ∨
      ∀ n ∈ l'.device.mappings, n.hostBegin ≠ e.hostBegin := by
  by_cases gone : e = d
  · subst gone
    refine .inr fun n hn same => ?_
    obtain ⟨hn, other⟩ := (mem_of_erase hd entries).1 hn
    exact other (AddressMap.eq_of_address_eq hn he same)
  · exact .inl ⟨e, (mem_of_erase hd entries).2 ⟨he, gone⟩, .refl e⟩

/-- No operation moves a mapping: it stays where it is, or no mapping begins there any more. -/
theorem Changed.stays (changed : l.Changed l') {e : Mapping} (he : e ∈ l.device.mappings) :
    (∃ n ∈ l'.device.mappings, n.SamePlace e) ∨
      ∀ n ∈ l'.device.mappings, n.hostBegin ≠ e.hostBegin := by
  cases changed with
  | idle failed idle => exact .inl ⟨e, (MappingTable.mem_congr idle.entries).2 he, .refl e⟩
  | recounted d c hd infinite served entries memory =>
      by_cases same : e.hostBegin = d.hostBegin
      · have : e = d := AddressMap.eq_of_address_eq he hd same
        subst this
        exact .inl ⟨_, (mem_of_insert entries).2 (.inl rfl), ⟨rfl, rfl, rfl⟩⟩
      · exact .inl ⟨e, (mem_of_insert entries).2 (.inr ⟨he, same⟩), .refl e⟩
  | mapped d m m' free fin nonempty served entries before allocated after =>
      exact .inl ⟨e, (mem_of_insert entries).2 (.inr ⟨he, free e he⟩), .refl e⟩
  | pinned d free infinite served entries memory =>
      exact .inl ⟨e, (mem_of_insert entries).2 (.inr ⟨he, free e he⟩), .refl e⟩
  | released d m m' hd fin served entries before freed after => exact stays_or_erased he hd entries
  | lost d hd fin served entries memory why => exact stays_or_erased he hd entries

theorem Unpinned.stays {d e : Mapping} (unpinned : l.Unpinned l' d) (he : e ∈ l.device.mappings) :
    (∃ n ∈ l'.device.mappings, n.SamePlace e) ∨
      ∀ n ∈ l'.device.mappings, n.hostBegin ≠ e.hostBegin :=
  stays_or_erased he unpinned.mapped unpinned.entries

end Link

end Offloading
