import Mathlib
import Offloading.Proofs.Operation
/-!
# Ownership of device memory

A mapping with a finite count owns the block that its section is copied to, and a scratch block belongs
to whoever allocated it. However the operations on a device follow each other, every block that they
allocated has exactly one owner, and no mapping moves as long as it lives.
-/

namespace Offloading

namespace Link

variable {l l' : Link} {scratch : List Nat} {old : List (Nat × Nat)} {m m' : DeviceMemory}

/-- Every live block belongs to one mapping or to the user, or it was there before. -/
structure Ledger (old : List (Nat × Nat)) (scratch : List Nat) (l : Link) : Prop where
  /-- A mapping with a finite count is held by somebody. -/
  held : ∀ e ∈ l.device.mappings, e.IsFinite → 1 ≤ e.refCount.value
  /-- It owns a block that is as long as its section. -/
  backed : ∀ e ∈ l.device.mappings, e.IsFinite →
    (e.deviceBegin, e.hostEnd - e.hostBegin) ∈ l.extents
  /-- It does not share the block with another mapping. -/
  unshared : ∀ e ∈ l.device.mappings, e.IsFinite → ∀ n ∈ l.device.mappings, n.IsFinite →
    e.deviceBegin = n.deviceBegin → e = n
  /-- The block is no scratch block. -/
  apart : ∀ e ∈ l.device.mappings, e.IsFinite → e.deviceBegin ∉ scratch
  /-- Scratch blocks are live, and no two of them are the same. -/
  user : scratch.Nodup ∧ ∀ addr ∈ scratch, ∃ size, (addr, size) ∈ l.extents
  /-- No block is without an owner. -/
  owned : ∀ p ∈ l.extents, p ∉ old →
    p.1 ∈ scratch ∨ ∃ e ∈ l.device.mappings, e.IsFinite ∧ e.deviceBegin = p.1

private theorem start_ne_next (wf : m.WellFormed) {p : Nat × Nat} (hp : p ∈ m.extents) :
    p.1 ≠ m.next := by
  obtain ⟨b, hb, rfl⟩ := DeviceMemory.mem_extents.1 hp
  exact Nat.ne_of_lt (wf.start_lt hb)

/-- Of mappings with finite counts only the places matter. -/
private theorem Ledger.of_same (h : l.Ledger old scratch) (memory : l'.memory? = l.memory?)
    (sound : l'.device.mappings.WellFormed)
    (before : ∀ n ∈ l'.device.mappings, n.IsFinite →
      ∃ e ∈ l.device.mappings, e.IsFinite ∧ n.SamePlace e)
    (after : ∀ e ∈ l.device.mappings, e.IsFinite →
      ∃ n ∈ l'.device.mappings, n.IsFinite ∧ n.SamePlace e) : l'.Ledger old scratch := by
  have extents := extents_congr memory
  refine ⟨fun n hn _ => sound.held n hn, fun n hn fin => ?_, fun n hn fin k hk fin' same => ?_,
    fun n hn fin => ?_, ?_, fun p hp new => ?_⟩
  · obtain ⟨e, he, fin', place⟩ := before n hn fin
    rw [extents, place.deviceBegin, place.hostEnd, place.hostBegin]
    exact h.backed e he fin'
  · obtain ⟨e, he, efin, place⟩ := before n hn fin
    obtain ⟨d, hd, dfin, place'⟩ := before k hk fin'
    have : e = d := h.unshared e he efin d hd dfin
      (place.deviceBegin.symm.trans (same.trans place'.deviceBegin))
    subst this
    exact AddressMap.eq_of_address_eq hn hk (place.hostBegin.trans place'.hostBegin.symm)
  · obtain ⟨e, he, efin, place⟩ := before n hn fin
    rw [place.deviceBegin]
    exact h.apart e he efin
  · rw [extents]
    exact h.user
  · rw [extents] at hp
    rcases h.owned p hp new with user | ⟨e, he, efin, start⟩
    · exact .inl user
    · obtain ⟨n, hn, nfin, place⟩ := after e he efin
      exact .inr ⟨n, hn, nfin, place.deviceBegin.trans start⟩

/-- A new block belongs to the mapping that was made for it. -/
private theorem Ledger.mapped (h : l.Ledger old scratch) (wf : m.WellFormed)
    (sound : l'.device.mappings.WellFormed) {e : Mapping} (finite : e.IsFinite)
    (mem : ∀ n, n ∈ l'.device.mappings ↔ n = e ∨ n ∈ l.device.mappings)
    (nonempty : 0 < e.length) (before : l.memory? = some m)
    (allocated : m.allocate e.length = (some e.deviceBegin, m')) (after : l'.memory? = some m') :
    l'.Ledger old scratch := by
  have extents : l'.extents = (e.deviceBegin, e.length) :: l.extents := by
    rw [extents_of_memory? before, extents_of_memory? after, wf.extents_allocate allocated,
      (DeviceMemory.allocate_eq_some allocated).1, Nat.max_eq_left nonempty]
  have older : ∀ p ∈ l.extents, p.1 ≠ e.deviceBegin := by
    intro p hp
    rw [extents_of_memory? before] at hp
    rw [(DeviceMemory.allocate_eq_some allocated).1]
    exact start_ne_next wf hp
  have others : ∀ n ∈ l.device.mappings, n.IsFinite → n.deviceBegin ≠ e.deviceBegin :=
    fun n hn fin => older _ (h.backed n hn fin)
  refine ⟨fun n hn _ => sound.held n hn, fun n hn fin => ?_, fun n hn fin k hk fin' same => ?_,
    fun n hn fin => ?_, ⟨h.user.1, fun addr hs => ?_⟩, fun p hp new => ?_⟩
  · rw [extents]
    rcases (mem n).1 hn with rfl | hn
    · exact List.mem_cons_self
    · exact List.mem_cons_of_mem _ (h.backed n hn fin)
  · rcases (mem n).1 hn with rfl | hn <;> rcases (mem k).1 hk with rfl | hk
    · rfl
    · exact absurd same.symm (others k hk fin')
    · exact absurd same (others n hn fin)
    · exact h.unshared n hn fin k hk fin' same
  · rcases (mem n).1 hn with rfl | hn
    · intro user
      obtain ⟨size, live⟩ := h.user.2 _ user
      exact older _ live rfl
    · exact h.apart n hn fin
  · obtain ⟨size, live⟩ := h.user.2 addr hs
    exact ⟨size, extents ▸ List.mem_cons_of_mem _ live⟩
  · rw [extents] at hp
    rcases List.mem_cons.1 hp with rfl | hp
    · exact .inr ⟨e, (mem e).2 (.inl rfl), finite, rfl⟩
    · rcases h.owned p hp new with user | ⟨n, hn, nfin, start⟩
      · exact .inl user
      · exact .inr ⟨n, (mem n).2 (.inr hn), nfin, start⟩

/-- A mapping goes away with its block. -/
private theorem Ledger.released (h : l.Ledger old scratch) (sound : l'.device.mappings.WellFormed)
    {e : Mapping} (he : e ∈ l.device.mappings) (finite : e.IsFinite)
    (mem : ∀ n, n ∈ l'.device.mappings ↔ n ∈ l.device.mappings ∧ n ≠ e)
    (before : l.memory? = some m) (freed : m.free e.deviceBegin = (true, m'))
    (after : l'.memory? = some m') : l'.Ledger old scratch := by
  have live : ∀ p, p ∈ l'.extents ↔ p ∈ l.extents ∧ p.1 ≠ e.deviceBegin := by
    intro p
    rw [extents_of_memory? before, extents_of_memory? after, DeviceMemory.extents_free freed,
      List.mem_filter, bne_iff_ne]
  refine ⟨fun n hn _ => sound.held n hn, fun n hn fin => ?_, fun n hn fin k hk fin' same => ?_,
    fun n hn fin => ?_, ⟨h.user.1, fun addr hs => ?_⟩, fun p hp new => ?_⟩
  · obtain ⟨hn, other⟩ := (mem n).1 hn
    exact (live _).2 ⟨h.backed n hn fin, fun same => other (h.unshared n hn fin e he finite same)⟩
  · exact h.unshared n ((mem n).1 hn).1 fin k ((mem k).1 hk).1 fin' same
  · exact h.apart n ((mem n).1 hn).1 fin
  · obtain ⟨size, there⟩ := h.user.2 addr hs
    refine ⟨size, (live _).2 ⟨there, ?_⟩⟩
    rintro rfl
    exact h.apart e he finite hs
  · obtain ⟨hp, other⟩ := (live p).1 hp
    rcases h.owned p hp new with user | ⟨n, hn, nfin, start⟩
    · exact .inl user
    · refine .inr ⟨n, (mem n).2 ⟨hn, ?_⟩, nfin, start⟩
      rintro rfl
      exact other start.symm

/-- What an operation does to mappings and blocks keeps every block in one hand, if it can release
blocks and does not make a finite count infinite. -/
theorem Ledger.changed (h : l.Ledger old scratch) (changed : l.Changed l') (sound : l.Sound)
    (sound' : l'.Sound) (finite : l.StaysFinite l')
    (reliable : ∀ n, l.accelerator.schedule .delete n = false) : l'.Ledger old scratch := by
  cases changed with
  | idle failed idle =>
      have mem : ∀ n, n ∈ l'.device.mappings ↔ n ∈ l.device.mappings := fun n =>
        MappingTable.mem_congr idle.entries
      refine h.of_same idle.memory? sound'.mappings (fun n hn fin => ?_) fun e he fin => ?_
      · exact ⟨n, (mem n).1 hn, fin, .refl n⟩
      · exact ⟨e, (mem e).2 he, fin, .refl e⟩
  | recounted e c he infinite served entries memory =>
      have mem : ∀ n, n ∈ l'.device.mappings ↔ _ := fun n => mem_of_insert entries
      have here : { e with refCount := c } ∈ l'.device.mappings := (mem _).2 (.inl rfl)
      have place : Mapping.SamePlace { e with refCount := c } e := ⟨rfl, rfl, rfl⟩
      refine h.of_same memory sound'.mappings (fun n hn fin => ?_) fun n hn fin => ?_
      · rcases (mem n).1 hn with rfl | ⟨hn, -⟩
        · refine ⟨e, he, ?_, place⟩
          cases inf : e.refCount.isInfinite with
          | false => exact inf
          | true =>
              have same := infinite inf
              subst same
              exact fin
        · exact ⟨n, hn, fin, .refl n⟩
      · by_cases same : n.hostBegin = e.hostBegin
        · have : n = e := AddressMap.eq_of_address_eq hn he same
          subst this
          exact ⟨_, here, finite n hn fin _ here place, place⟩
        · exact ⟨n, (mem n).2 (.inr ⟨hn, same⟩), fin, .refl n⟩
  | mapped e m m' free fin nonempty served entries before allocated after =>
      refine h.mapped (sound.accelerator.memory before) sound'.mappings fin (fun n => ?_) nonempty
        before allocated after
      exact (mem_of_insert entries).trans
        (or_congr_right (and_iff_left_of_imp fun hn => free n hn))
  | pinned e free infinite served entries memory =>
      refine h.of_same memory sound'.mappings (fun n hn fin => ?_) fun n hn fin => ?_
      · rcases (mem_of_insert entries).1 hn with rfl | ⟨hn, -⟩
        · exact absurd fin infinite
        · exact ⟨n, hn, fin, .refl n⟩
      · exact ⟨n, (mem_of_insert entries).2 (.inr ⟨hn, free n hn⟩), fin, .refl n⟩
  | released e m m' he fin served entries before freed after =>
      exact h.released sound'.mappings he fin (fun n => mem_of_erase he entries) before freed after
  | lost e he fin served entries memory why =>
      exfalso
      rcases why with scheduled | missing
      · rw [reliable] at scheduled
        cases scheduled
      · have live := h.backed e he fin
        cases hm : l.memory? with
        | none =>
            rw [extents, hm] at live
            cases live
        | some m =>
            rw [extents_of_memory? hm] at live
            obtain ⟨b, hb, start⟩ := DeviceMemory.mem_extents.1 live
            exact missing m hm b hb (congrArg Prod.fst start)

/-- User memory that is taken back was never in the hands of a mapping. -/
theorem Ledger.unpinned (h : l.Ledger old scratch) {e : Mapping} (unpinned : l.Unpinned l' e)
    (sound' : l'.Sound) : l'.Ledger old scratch := by
  have mem : ∀ n, n ∈ l'.device.mappings ↔ _ := fun n =>
    mem_of_erase unpinned.mapped unpinned.entries
  refine h.of_same unpinned.memory sound'.mappings (fun n hn fin => ?_) fun n hn fin => ?_
  · exact ⟨n, ((mem n).1 hn).1, fin, .refl n⟩
  · refine ⟨n, (mem n).2 ⟨hn, ?_⟩, fin, .refl n⟩
    rintro rfl
    exact unpinned.infinite fin

theorem Ledger.allocated (h : l.Ledger old scratch) (sound : l.Sound) {addr size : Nat}
    (ran : Returns (Device.allocate size) l addr l') : l'.Ledger old (addr :: scratch) := by
  obtain ⟨m, m', before, allocated, wrote⟩ := Device.returns_allocate ran
  have wf := sound.accelerator.memory before
  have extents : l'.extents = (addr, max size 1) :: l.extents := by
    rw [extents_of_memory? before, extents_of_memory? (wrote.memory? before),
      wf.extents_allocate allocated, (DeviceMemory.allocate_eq_some allocated).1]
  have older : ∀ p ∈ l.extents, p.1 ≠ addr := by
    intro p hp
    rw [extents_of_memory? before] at hp
    rw [(DeviceMemory.allocate_eq_some allocated).1]
    exact start_ne_next wf hp
  have mappings := wrote.mappings
  refine ⟨fun n hn fin => ?_, fun n hn fin => ?_, fun n hn fin k hk fin' same => ?_,
    fun n hn fin => ?_, ⟨?_, fun a ha => ?_⟩, fun p hp new => ?_⟩
  · exact h.held n (mappings ▸ hn) fin
  · rw [extents]
    exact List.mem_cons_of_mem _ (h.backed n (mappings ▸ hn) fin)
  · exact h.unshared n (mappings ▸ hn) fin k (mappings ▸ hk) fin' same
  · rw [mappings] at hn
    exact List.not_mem_cons_of_ne_of_not_mem (older _ (h.backed n hn fin)) (h.apart n hn fin)
  · refine List.nodup_cons.2 ⟨fun user => ?_, h.user.1⟩
    obtain ⟨size, live⟩ := h.user.2 addr user
    exact older _ live rfl
  · rw [extents]
    rcases List.mem_cons.1 ha with rfl | ha
    · exact ⟨_, List.mem_cons_self⟩
    · obtain ⟨size, live⟩ := h.user.2 a ha
      exact ⟨size, List.mem_cons_of_mem _ live⟩
  · rw [extents] at hp
    rcases List.mem_cons.1 hp with rfl | hp
    · exact .inl List.mem_cons_self
    · rw [mappings]
      exact (h.owned p hp new).imp_left (List.mem_cons_of_mem _)

theorem Ledger.freed (h : l.Ledger old scratch) {addr : Nat} (user : addr ∈ scratch)
    (ran : Returns (Device.free addr) l () l') : l'.Ledger old (scratch.erase addr) := by
  obtain ⟨m, m', before, freed, wrote⟩ := Device.returns_free ran
  have live : ∀ p, p ∈ l'.extents ↔ p ∈ l.extents ∧ p.1 ≠ addr := by
    intro p
    rw [extents_of_memory? before, extents_of_memory? (wrote.memory? before),
      DeviceMemory.extents_free freed, List.mem_filter, bne_iff_ne]
  have rest : ∀ a, a ∈ scratch.erase addr ↔ a ≠ addr ∧ a ∈ scratch := fun a =>
    h.user.1.mem_erase_iff
  have mappings := wrote.mappings
  refine ⟨fun n hn fin => ?_, fun n hn fin => ?_, fun n hn fin k hk fin' same => ?_,
    fun n hn fin => ?_, ⟨h.user.1.erase addr, fun a ha => ?_⟩, fun p hp new => ?_⟩
  · exact h.held n (mappings ▸ hn) fin
  · rw [mappings] at hn
    refine (live _).2 ⟨h.backed n hn fin, fun same => h.apart n hn fin ?_⟩
    change n.deviceBegin = addr at same
    rwa [same]
  · exact h.unshared n (mappings ▸ hn) fin k (mappings ▸ hk) fin' same
  · rw [mappings] at hn
    exact fun mine => h.apart n hn fin ((rest _).1 mine).2
  · obtain ⟨other, ha⟩ := (rest a).1 ha
    obtain ⟨size, there⟩ := h.user.2 a ha
    exact ⟨size, (live _).2 ⟨there, other⟩⟩
  · obtain ⟨hp, other⟩ := (live p).1 hp
    rw [mappings]
    exact (h.owned p hp new).imp_left fun mine => (rest _).2 ⟨other, mine⟩

end Link

/-- An operation on the mappings of a device, or on the blocks that its user needs for a while. -/
inductive DeviceCall where
  | map (first base size : Nat) (implicit updateRef : Bool)
  | hold (first size : Nat) (updateRef : Bool)
  | unmap (first size : Nat) (force : Bool)
  | associate (first target size : Nat)
  | disassociate (first : Nat)
  | mapGlobal (first target size : Nat)
  /-- Allocates a block for the user. -/
  | allocate (size : Nat)
  /-- Frees a block of the user. -/
  | free (addr : Nat)

/-- A device with the blocks that its user has allocated and not freed yet. -/
structure Tenancy where
  /-- The device and its accelerator. -/
  link : Link
  /-- Where the blocks of the user start. -/
  scratch : List Nat := []

namespace Tenancy

variable {u : Tenancy} {old : List (Nat × Nat)}

/-- Does something on the device alone. -/
def onDevice {α : Type} (u : Tenancy) (x : DeviceM α) : Tenancy :=
  { u with link := (exec x u.link).2 }

/-- The state after an operation, whether it succeeded or not. -/
def perform (u : Tenancy) : DeviceCall → Tenancy
  | .map first base size implicit updateRef =>
    u.onDevice (Device.map first base size implicit updateRef)
  | .hold first size updateRef => u.onDevice (Device.hold first size updateRef)
  | .unmap first size force => u.onDevice (Device.unmap first size force)
  | .associate first target size => u.onDevice (Device.associate first target size)
  | .disassociate first => u.onDevice (Device.disassociate first)
  | .mapGlobal first target size => u.onDevice (Device.mapGlobal first target size)
  | .allocate size =>
    match exec (Device.allocate size) u.link with
    | (.ok addr, link) => { link, scratch := addr :: u.scratch }
    | (.error _, link) => { u with link }
  | .free addr =>
    match exec (Device.free addr) u.link with
    | (.ok (), link) => { link, scratch := u.scratch.erase addr }
    | (.error _, link) => { u with link }

/-- The state after several operations, one after the other. -/
def performAll (u : Tenancy) (calls : List DeviceCall) : Tenancy := calls.foldl perform u

/-- The user frees own blocks only. -/
def Permits (u : Tenancy) : DeviceCall → Prop
  | .free addr => addr ∈ u.scratch
  | _ => True

variable {c : DeviceCall}

/-- An operation changes mappings and their blocks, or the user gets or gives back a block. -/
theorem perform_cases (hs : u.link.Sound) (permitted : u.Permits c) :
    (u.link.Changed (u.perform c).link ∧ (u.perform c).scratch = u.scratch) ∨
    (∃ e, u.link.Unpinned (u.perform c).link e ∧ (u.perform c).scratch = u.scratch) ∨
    (∃ size addr, Returns (Device.allocate size) u.link addr (u.perform c).link ∧
      (u.perform c).scratch = addr :: u.scratch) ∨
    (∃ addr ∈ u.scratch, Returns (Device.free addr) u.link () (u.perform c).link ∧
      (u.perform c).scratch = u.scratch.erase addr) := by
  cases c with
  | map => exact .inl ⟨Device.changed_map hs.mappings, rfl⟩
  | hold => exact .inl ⟨Device.changed_hold, rfl⟩
  | unmap => exact .inl ⟨Device.changed_unmap, rfl⟩
  | associate => exact .inl ⟨Device.changed_associate hs.mappings, rfl⟩
  | disassociate first =>
      rcases Device.changed_disassociate (l := u.link) with changed | ⟨e, unpinned⟩
      · exact .inl ⟨changed, rfl⟩
      · exact .inr (.inl ⟨e, unpinned, rfl⟩)
  | mapGlobal => exact .inl ⟨Device.changed_mapGlobal hs.mappings, rfl⟩
  | allocate size =>
      rw [perform]
      rcases ran : exec (Device.allocate size) u.link with ⟨e | addr, l⟩
      · exact .inl ⟨.idle [] (Device.allocate_error ran), rfl⟩
      · exact .inr (.inr (.inl ⟨size, addr, ran, rfl⟩))
  | free addr =>
      rw [perform]
      rcases ran : exec (Device.free addr) u.link with ⟨e | _, l⟩
      · exact .inl ⟨.idle [addr] (Device.free_error ran).1, rfl⟩
      · exact .inr (.inr (.inr ⟨addr, permitted, ran, rfl⟩))

theorem sound_perform (hs : u.link.Sound) : (u.perform c).link.Sound := by
  cases c with
  | map => exact (Device.along_map u.link).toGrown.sound hs
  | hold => exact (Device.along_hold u.link).sound hs
  | unmap => exact (Device.along_unmap u.link).sound hs
  | associate => exact (Device.along_associate u.link).toGrown.sound hs
  | disassociate => exact Device.along_disassociate u.link hs
  | mapGlobal => exact (Device.along_mapGlobal u.link).toGrown.sound hs
  | allocate size =>
      have moved : u.link.Moved (exec (Device.allocate size) u.link).2 := Device.along_allocate _
      rw [perform]
      rcases ran : exec (Device.allocate size) u.link with ⟨e | addr, l⟩
      all_goals
        rw [ran] at moved
        exact moved.extended.toGrown.sound hs
  | free addr =>
      have moved : u.link.Moved (exec (Device.free addr) u.link).2 := Device.along_free _
      rw [perform]
      rcases ran : exec (Device.free addr) u.link with ⟨e | _, l⟩
      all_goals
        rw [ran] at moved
        exact moved.extended.toGrown.sound hs

/-- No operation changes which calls are to fail. -/
theorem schedule_perform (hs : u.link.Sound) (permitted : u.Permits c) :
    (u.perform c).link.accelerator.schedule = u.link.accelerator.schedule := by
  rcases perform_cases hs permitted with ⟨changed, -⟩ | ⟨e, unpinned, -⟩ | ⟨size, addr, ran, -⟩ |
    ⟨addr, -, ran, -⟩
  · obtain ⟨failed, served⟩ := changed.served
    exact served.schedule
  · exact unpinned.served.schedule
  · exact (Device.served_of_allocate ran).schedule
  · exact (Device.served_of_free ran).schedule

/-- What a run of operations keeps: each block has one owner, and blocks can be released. -/
structure Accounted (old : List (Nat × Nat)) (u : Tenancy) : Prop where
  sound : u.link.Sound
  reliable : ∀ n, u.link.accelerator.schedule .delete n = false
  ledger : u.link.Ledger old u.scratch

theorem Accounted.perform (h : u.Accounted old) (permitted : u.Permits c)
    (finite : u.link.StaysFinite (u.perform c).link) : (u.perform c).Accounted old := by
  have sound := sound_perform (c := c) h.sound
  refine ⟨sound, fun n => ?_, ?_⟩
  · rw [schedule_perform h.sound permitted]
    exact h.reliable n
  · rcases perform_cases h.sound permitted with ⟨changed, same⟩ | ⟨e, unpinned, same⟩ |
      ⟨size, addr, ran, grown⟩ | ⟨addr, mine, ran, shrunk⟩
    · rw [same]
      exact h.ledger.changed changed h.sound sound finite h.reliable
    · rw [same]
      exact h.ledger.unpinned unpinned sound
    · rw [grown]
      exact h.ledger.allocated h.sound ran
    · rw [shrunk]
      exact h.ledger.freed mine ran

/-- An operation leaves a mapping where it is or removes it. -/
theorem stays_perform (hs : u.link.Sound) (permitted : u.Permits c) {e : Mapping}
    (he : e ∈ u.link.device.mappings) :
    (∃ n ∈ (u.perform c).link.device.mappings, n.SamePlace e) ∨
      ∀ n ∈ (u.perform c).link.device.mappings, n.hostBegin ≠ e.hostBegin := by
  rcases perform_cases hs permitted with ⟨changed, -⟩ | ⟨d, unpinned, -⟩ | ⟨size, addr, ran, -⟩ |
    ⟨addr, -, ran, -⟩
  · exact changed.stays he
  · exact unpinned.stays he
  · obtain ⟨m, m', -, -, wrote⟩ := Device.returns_allocate ran
    exact .inl ⟨e, wrote.mappings.symm ▸ he, .refl e⟩
  · obtain ⟨m, m', -, -, wrote⟩ := Device.returns_free ran
    exact .inl ⟨e, wrote.mappings.symm ▸ he, .refl e⟩

/-- The state of a run after its first `k` operations. -/
def after (u : Tenancy) (calls : List DeviceCall) (k : Nat) : Tenancy := u.performAll (calls.take k)

theorem after_succ {calls : List DeviceCall} {k : Nat} (hc : calls[k]? = some c) :
    u.after calls (k + 1) = (u.after calls k).perform c := by
  rw [after, after, performAll, performAll, List.take_add_one, List.foldl_append, hc]
  rfl

theorem Accounted.after {calls : List DeviceCall} (h : u.Accounted old)
    (permitted : ∀ k c, calls[k]? = some c → (u.after calls k).Permits c)
    (finite : ∀ k < calls.length, (u.after calls k).link.StaysFinite (u.after calls (k + 1)).link)
    {k : Nat} (hk : k ≤ calls.length) : (u.after calls k).Accounted old := by
  induction k with
  | zero => exact h
  | succ k ih =>
      have hc := List.getElem?_eq_getElem (l := calls) (i := k) hk
      have step := finite k hk
      rw [after_succ hc] at step ⊢
      exact (ih (Nat.le_of_succ_le hk)).perform (permitted k _ hc) step

/-- On a fresh device whose accelerator can release blocks, any run of operations in which the user
frees own blocks only and no finite count becomes infinite leaves every block in one hand, and every
mapping where it was as long as it lives. -/
theorem blocks_owned {l : Link} {calls : List DeviceCall} (fresh : l.device.mappings = {})
    (wellFormed : l.accelerator.WellFormed)
    (reliable : ∀ n, l.accelerator.schedule .delete n = false)
    (permitted : ∀ k c, calls[k]? = some c → (after ⟨l, []⟩ calls k).Permits c)
    (finite : ∀ k < calls.length,
      (after ⟨l, []⟩ calls k).link.StaysFinite (after ⟨l, []⟩ calls (k + 1)).link) :
    (∀ k ≤ calls.length,
      (after ⟨l, []⟩ calls k).link.Ledger l.extents (after ⟨l, []⟩ calls k).scratch) ∧
    ∀ j k, j ≤ k → k ≤ calls.length → ∀ e ∈ (after ⟨l, []⟩ calls j).link.device.mappings,
      (∀ i, j ≤ i → i ≤ k →
        ∃ n ∈ (after ⟨l, []⟩ calls i).link.device.mappings, n.hostBegin = e.hostBegin) →
      ∃ n ∈ (after ⟨l, []⟩ calls k).link.device.mappings, n.SamePlace e := by
  have none : ∀ e, e ∉ l.device.mappings := by
    intro e he
    rw [fresh] at he
    exact AddressMap.not_mem_empty he
  have start : Accounted l.extents ⟨l, []⟩ := by
    refine ⟨⟨fresh ▸ MappingTable.wellFormed_empty, wellFormed⟩, reliable, ?_⟩
    exact ⟨fun e he => absurd he (none e), fun e he => absurd he (none e),
      fun e he => absurd he (none e), fun e he => absurd he (none e),
      ⟨List.nodup_nil, fun _ h => (nomatch h)⟩, fun p hp new => absurd hp new⟩
  have kept : ∀ k ≤ calls.length, (after ⟨l, []⟩ calls k).Accounted l.extents :=
    fun k hk => start.after permitted finite hk
  refine ⟨fun k hk => (kept k hk).ledger, fun j k hjk hk e he lives => ?_⟩
  induction hjk with
  | refl => exact ⟨e, he, .refl e⟩
  | @step k hjk ih =>
      obtain ⟨n, hn, place⟩ := ih (Nat.le_of_succ_le hk) fun i lower upper =>
        lives i lower (Nat.le_succ_of_le upper)
      have hc := List.getElem?_eq_getElem (l := calls) (i := k) hk
      obtain ⟨d, hd, same⟩ := lives (k + 1) (Nat.le_succ_of_le hjk) (Nat.le_refl _)
      rw [after_succ hc] at hd ⊢
      rcases stays_perform (kept k (Nat.le_of_succ_le hk)).sound (permitted k _ hc) hn with
        ⟨n', hn', place'⟩ | gone
      · exact ⟨n', hn', place'.trans place⟩
      · exact absurd (same.trans place.hostBegin.symm) (gone d hd)

/-- A device of an accelerator on which nothing happened yet. -/
def unused : Link := ⟨{ id := 0, unit := 0 }, Accelerator.ofDevices 1 4096⟩

/-- A section is mapped twice, a block is allocated and freed in between, user memory is associated, and
the first section is given up at once. -/
def shortRun : List DeviceCall :=
  [.map 0x1000 0x1000 16 false true, .allocate 8, .map 0x1004 0x1000 4 false true,
    .free 0xd00000000080, .associate 0x2000 0xd00000000200 32, .unmap 0x1000 16 true]

theorem blocks_owned_shortRun :
    (unused.device.mappings = {} ∧ unused.accelerator.WellFormed ∧
      (∀ n, unused.accelerator.schedule .delete n = false) ∧
      (∀ k c, shortRun[k]? = some c → (after ⟨unused, []⟩ shortRun k).Permits c) ∧
      ∀ k < shortRun.length,
        (after ⟨unused, []⟩ shortRun k).link.StaysFinite
          (after ⟨unused, []⟩ shortRun (k + 1)).link) ∧
    (after ⟨unused, []⟩ shortRun 6).link.Ledger unused.extents
      (after ⟨unused, []⟩ shortRun 6).scratch := by
  have wellFormed : unused.accelerator.WellFormed := Accelerator.wellFormed_ofDevices rfl
  have permitted : ∀ k c, shortRun[k]? = some c → (after ⟨unused, []⟩ shortRun k).Permits c := by
    intro k c hc
    have mine : 0xd00000000080 ∈ (after ⟨unused, []⟩ shortRun 3).scratch := by
      have : (after ⟨unused, []⟩ shortRun 3).scratch = [0xd00000000080] := by cbv
      rw [this]
      exact List.mem_singleton_self _
    rcases k with _ | _ | _ | _ | _ | _ | k
    · cases hc
      trivial
    · cases hc
      trivial
    · cases hc
      trivial
    · cases hc
      exact mine
    · cases hc
      trivial
    · cases hc
      trivial
    · cases hc
  have finite : ∀ k < shortRun.length, (after ⟨unused, []⟩ shortRun k).link.StaysFinite
      (after ⟨unused, []⟩ shortRun (k + 1)).link := by
    have counts : ((List.range shortRun.length).all fun k =>
        (after ⟨unused, []⟩ shortRun k).link.device.mappings.toList.all fun e =>
          (after ⟨unused, []⟩ shortRun (k + 1)).link.device.mappings.toList.all fun n =>
            e.refCount.isInfinite || n.hostBegin != e.hostBegin ||
              !n.refCount.isInfinite) = true := by
      cbv
    intro k hk e he (fin : e.refCount.isInfinite = false) n hn place
    change n.refCount.isInfinite = false
    have here := List.all_eq_true.1 (List.all_eq_true.1
      (List.all_eq_true.1 counts k (List.mem_range.2 hk)) e he) n hn
    simpa [fin, place.hostBegin] using here
  exact ⟨⟨rfl, wellFormed, fun _ => rfl, permitted, finite⟩,
    (blocks_owned rfl wellFormed (fun _ => rfl) permitted finite).1 6 (Nat.le_refl _)⟩

end Tenancy

end Offloading
