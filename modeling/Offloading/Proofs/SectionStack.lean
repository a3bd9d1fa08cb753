import Mathlib.Data.List.Nodup
import Offloading.Proofs.AddressTable
import Offloading.Proofs.HostPointers
import Offloading.Proofs.SharedSections
/-!
# Stacks of sections

Sections that are mapped one after the other to blocks of their own, and released in the opposite order. A
device that allocates nothing else meanwhile places the blocks side by side, so the mappings and the blocks
of the first sections are known from their sizes.
-/

namespace Offloading

/-! ## Blocks -/

namespace DeviceMemory

variable {m : DeviceMemory} {b : Block} {size : Nat} {bytes : List UInt8}

/-- The first bytes of a block replaced. -/
theorem overwrite_zero (old new : List UInt8) : overwrite old 0 new = new ++ old.drop new.length := by
  rw [overwrite, List.take_zero, List.nil_append, Nat.zero_add]

/-- As long as there is room, a block of zeros joins the others. -/
theorem WellFormed.allocate_room (h : m.WellFormed) (pos : 0 < size) (room : m.used + size ≤ m.capacity) :
    ∃ m', m.allocate size = (some m.next, m') ∧ m'.WellFormed ∧ m'.next = m.next + stride size ∧
      m'.used = m.used + size ∧ m'.capacity = m.capacity ∧
      ∀ b, b ∈ m'.blocks ↔ b = ⟨m.next, List.replicate size 0⟩ ∨ b ∈ m.blocks := by
  have least : max size 1 = size := by omega
  have ran : m.allocate size = (some m.next,
      { m with
        next := m.next + stride size
        used := m.used + size
        blocks := m.blocks.insert ⟨m.next, List.replicate size 0⟩ }) := by
    rw [DeviceMemory.allocate, least]
    exact if_neg (by omega)
  have wellFormed := h.allocate size
  rw [ran] at wellFormed
  refine ⟨_, ran, wellFormed, rfl, rfl, rfl, fun b => AddressMap.mem_insert.trans ?_⟩
  refine or_congr_right ⟨And.left, fun hb => ⟨hb, ?_⟩⟩
  exact Nat.ne_of_lt (h.start_lt hb)

/-- The first bytes of a block are replaced, and nothing else changes. -/
theorem WellFormed.write_block_start (h : m.WellFormed) (hb : b ∈ m.blocks) (some : bytes ≠ [])
    (fits : bytes.length ≤ b.bytes.length) :
    ∃ m', m.write b.start bytes = .ok m' ∧ m'.WellFormed ∧ m'.next = m.next ∧ m'.used = m.used ∧
      m'.capacity = m.capacity ∧
      ∀ c, c ∈ m'.blocks ↔
        c = ⟨b.start, bytes ++ b.bytes.drop bytes.length⟩ ∨ (c ∈ m.blocks ∧ c.start ≠ b.start) := by
  have located := h.locate_eq hb (Nat.le_refl _) (Nat.add_le_add_left fits _) (List.length_pos_of_ne_nil some)
  have ran : m.write b.start bytes = .ok { m with
      blocks := m.blocks.insert ⟨b.start, bytes ++ b.bytes.drop bytes.length⟩ } := by
    rw [DeviceMemory.write, if_neg (by simpa using some), located, Except.map, Nat.sub_self, overwrite_zero]
  exact ⟨_, ran, h.write ran, rfl, rfl, rfl, fun c => AddressMap.mem_insert⟩

/-- A block goes away, and the others stay. -/
theorem WellFormed.free_block (h : m.WellFormed) (hb : b ∈ m.blocks) :
    ∃ m', m.free b.start = (true, m') ∧ m'.WellFormed ∧ m'.next = m.next ∧
      m'.used = m.used - b.bytes.length ∧ m'.capacity = m.capacity ∧
      ∀ c, c ∈ m'.blocks ↔ c ∈ m.blocks ∧ c.start ≠ b.start := by
  have found : m.blocks.get? b.start = some b := AddressMap.get?_eq_some_iff.2 ⟨hb, rfl⟩
  have ran : m.free b.start =
      (true, { m with used := m.used - b.bytes.length, blocks := m.blocks.erase b.start }) := by
    rw [DeviceMemory.free, found]
  have wellFormed := h.free b.start
  rw [ran] at wellFormed
  exact ⟨_, ran, wellFormed, rfl, rfl, rfl, fun c => AddressMap.mem_erase⟩

end DeviceMemory

theorem Accelerator.storeAll_append {m m' : DeviceMemory} {xs ys : List Chunk} :
    storeAll m (xs ++ ys) = .ok m' ↔ ∃ n, storeAll m xs = .ok n ∧ storeAll n ys = .ok m' := by
  induction xs generalizing m with
  | nil =>
      constructor
      · exact fun h => ⟨m, rfl, h⟩
      · rintro ⟨_, ⟨⟩, h⟩
        exact h
  | cons c rest ih =>
      rw [List.cons_append, storeAll_cons]
      constructor
      · rintro ⟨k, first, others⟩
        obtain ⟨n, middle, last⟩ := ih.1 others
        exact ⟨n, storeAll_cons.2 ⟨k, first, middle⟩, last⟩
      · rintro ⟨n, stored, last⟩
        obtain ⟨k, first, middle⟩ := storeAll_cons.1 stored
        exact ⟨k, first, ih.2 ⟨n, middle, last⟩⟩

/-- Sections in the order in which they are mapped, and the device address of the first block. -/
structure SectionStack where
  /-- The sections. -/
  part : Nat → HostSection
  /-- Where the block of the first section begins. -/
  base : Nat

namespace SectionStack

variable {stack : SectionStack} {n i j : Nat}

/-- Where the block of a section begins. -/
def target (stack : SectionStack) : Nat → Nat
  | 0 => stack.base
  | j + 1 => stack.target j + DeviceMemory.stride (stack.part j).size

/-- The mapping of a section. -/
def mapping (stack : SectionStack) (j : Nat) : Mapping :=
  ⟨(stack.part j).first, (stack.part j).first, (stack.part j).stop, stack.target j, .one⟩

/-- The first `n` sections are not empty, have no byte in common, and lie in the address space, as do their
blocks. -/
structure Separate (stack : SectionStack) (n : Nat) : Prop where
  nonempty : ∀ j < n, 0 < (stack.part j).size
  bounded : ∀ j < n, (stack.part j).stop ≤ Word.greatest
  apart : ∀ i < n, ∀ j < n, i ≠ j → (stack.part i).Apart (stack.part j)
  addressable : stack.target n ≤ Word.modulus

theorem target_add_lt (lt : j < n) : stack.target j + (stack.part j).size < stack.target n := by
  induction n with
  | zero => omega
  | succ n ih =>
      have room := DeviceMemory.lt_stride (stack.part n).size
      rw [target]
      rcases Nat.lt_or_ge j n with below | above
      · have := ih below
        omega
      · have same : j = n := by omega
        subst same
        omega

theorem target_lt (lt : j < n) : stack.target j < stack.target n :=
  Nat.lt_of_le_of_lt (Nat.le_add_right _ _) (target_add_lt lt)

theorem target_ne (ne : i ≠ j) : stack.target i ≠ stack.target j := by
  rcases Nat.lt_or_gt_of_ne ne with lt | gt
  · exact Nat.ne_of_lt (target_lt lt)
  · exact (Nat.ne_of_lt (target_lt gt)).symm

namespace Separate

variable (sep : stack.Separate n)

include sep

theorem mono {k : Nat} (le : k ≤ n) : stack.Separate k where
  nonempty j lt := sep.nonempty j (Nat.lt_of_lt_of_le lt le)
  bounded j lt := sep.bounded j (Nat.lt_of_lt_of_le lt le)
  apart i lt j lt' := sep.apart i (Nat.lt_of_lt_of_le lt le) j (Nat.lt_of_lt_of_le lt' le)
  addressable := by
    rcases Nat.lt_or_ge k n with lt | ge
    · exact Nat.le_trans (Nat.le_of_lt (target_lt lt)) sep.addressable
    · exact Nat.le_antisymm le ge ▸ sep.addressable

theorem first_lt (lt : j < n) : (stack.part j).first < (stack.part j).stop :=
  Nat.lt_add_of_pos_right (sep.nonempty j lt)

theorem first_ne (hi : i < n) (hj : j < n) (ne : i ≠ j) : (stack.part i).first ≠ (stack.part j).first := by
  have lt := sep.first_lt hi
  have lt' := sep.first_lt hj
  rcases sep.apart i hi j hj ne with h | h
  · omega
  · omega

/-- The address at some distance into a section stands for the one at that distance into its block. -/
theorem translate_add (hj : j < n) {d : Nat} (inside : d ≤ (stack.part j).size) :
    (stack.mapping j).translate ((stack.part j).first + d) = stack.target j + d := by
  have stop := sep.bounded j hj
  have below : stack.target j + (stack.part j).size < stack.target n := target_add_lt hj
  have space := sep.addressable
  have word : Word.greatest < Word.modulus := by decide
  rw [HostSection.stop] at stop
  have distance : Word.sub ((stack.part j).first + d) (stack.part j).first = d := by
    have turn : (stack.part j).first + d + (Word.modulus - (stack.part j).first) = d + Word.modulus := by
      omega
    rw [Word.sub, Nat.mod_eq_of_lt (show (stack.part j).first < Word.modulus by omega), turn,
      Nat.add_mod_right, Nat.mod_eq_of_lt (by omega)]
  change Word.add (stack.target j) (Word.sub _ (stack.part j).first) = _
  rw [distance, Word.add, Nat.mod_eq_of_lt (by omega)]

theorem translate_first (hj : j < n) :
    (stack.mapping j).translate (stack.part j).first = stack.target j :=
  sep.translate_add hj (Nat.zero_le _)

end Separate

/-! ## Mappings -/

/-- A table has the mappings of the first `n` sections and no others. -/
structure Listed (stack : SectionStack) (n : Nat) (t : MappingTable) : Prop where
  wellFormed : t.WellFormed
  mem_iff : ∀ m, m ∈ t ↔ ∃ j < n, m = stack.mapping j

namespace Listed

variable {t u : MappingTable}

theorem congr (h : stack.Listed n t) (same : u.entries = t.entries) : stack.Listed n u where
  wellFormed := MappingTable.wellFormed_of_entries same h.wellFormed
  mem_iff m := (MappingTable.mem_congr same).trans (h.mem_iff m)

theorem mem (h : stack.Listed n t) (hj : j < n) : stack.mapping j ∈ t := (h.mem_iff _).2 ⟨j, hj, rfl⟩

theorem of_empty (h : t.entries = ∅) : stack.Listed 0 t where
  wellFormed := MappingTable.wellFormed_of_entries (t := {}) h MappingTable.wellFormed_empty
  mem_iff m := by
    rw [← MappingTable.mem_entries, h]
    exact ⟨fun hm => absurd hm AddressMap.not_mem_empty, fun ⟨_, lt, _⟩ => absurd lt (Nat.not_lt_zero _)⟩

theorem entries_eq (h : stack.Listed 0 t) : t.entries = ∅ := by
  refine AddressMap.ext_mem fun m => ⟨fun hm => ?_, fun hm => absurd hm AddressMap.not_mem_empty⟩
  obtain ⟨j, lt, -⟩ := (h.mem_iff m).1 hm
  exact absurd lt (Nat.not_lt_zero j)

/-- A part of a section is found in the mapping of the section. -/
theorem lookup (h : stack.Listed n t) (sep : stack.Separate n) (hj : j < n) {first size : Nat}
    (lower : (stack.part j).first ≤ first) (inside : first < (stack.part j).stop)
    (upper : first + size ≤ (stack.part j).stop) :
    (t.lookup first size).mapping? = some (stack.mapping j) ∧ (t.lookup first size).isPartial = false := by
  have stop := sep.bounded j hj
  have contains : (stack.mapping j).contains first = true := Mapping.contains_iff.2 ⟨lower, inside⟩
  have found := h.wellFormed.containing?_eq (h.mem hj) contains (by omega)
  rw [MappingTable.lookup_of_containing? found]
  refine ⟨rfl, ?_⟩
  have within : Word.saturatingAdd first size ≤ (stack.mapping j).hostEnd :=
    Nat.le_trans (Nat.min_le_left _ _) upper
  rw [Coverage.isPartial, Bool.false_or]
  exact decide_eq_false (Nat.not_lt_of_le within)

/-- The next section meets no mapping. -/
theorem lookup_next (h : stack.Listed n t) (sep : stack.Separate (n + 1)) :
    (t.lookup (stack.part n).first (stack.part n).size).mapping? = none := by
  rw [Option.eq_none_iff_forall_ne_some]
  intro m found
  obtain ⟨j, hj, rfl⟩ := (h.mem_iff m).1 (MappingTable.mem_of_lookup found)
  have lt := sep.first_lt (Nat.lt_succ_of_lt hj)
  have lt' := sep.first_lt (Nat.lt_succ_self n)
  have apart := sep.apart j (Nat.lt_succ_of_lt hj) n (Nat.lt_succ_self n) (Nat.ne_of_lt hj)
  rcases MappingTable.lookup_cases found with here | ⟨-, above, reached⟩
  · have inside := Mapping.contains_iff.1 (MappingTable.containing?_mem here).2
    change (stack.part j).first ≤ _ ∧ _ < (stack.part j).stop at inside
    rcases apart with before | after
    · omega
    · omega
  · have above := (AddressMap.above?_eq_some_iff.1 above).2.1
    have within := Nat.lt_of_lt_of_le reached (Nat.min_le_left _ _)
    change (stack.part n).first < (stack.part j).first at above
    change (stack.part j).first < (stack.part n).stop at within
    rcases apart with before | after
    · omega
    · omega

theorem insert (h : stack.Listed n t) (sep : stack.Separate (n + 1)) :
    stack.Listed (n + 1) (t.insert (stack.mapping n)).2 := by
  have some := sep.first_lt (Nat.lt_succ_self n)
  have length : (stack.mapping n).length = (stack.part n).size := Nat.add_sub_cancel_left _ _
  have free : (t.lookup (stack.mapping n).hostBegin (stack.mapping n).length).mapping? = none := by
    rw [length]
    exact h.lookup_next sep
  have entries : (t.insert (stack.mapping n)).2.entries = t.entries.insert (stack.mapping n) := by
    rw [MappingTable.insert_eq some free]
  refine ⟨h.wellFormed.insert some Nat.one_pos free entries, fun m => ?_⟩
  rw [← MappingTable.mem_entries, entries, AddressMap.mem_insert, MappingTable.mem_entries, h.mem_iff]
  constructor
  · rintro (rfl | ⟨⟨j, hj, rfl⟩, -⟩)
    · exact ⟨n, Nat.lt_succ_self n, rfl⟩
    · exact ⟨j, Nat.lt_succ_of_lt hj, rfl⟩
  · rintro ⟨j, hj, rfl⟩
    rcases Nat.lt_succ_iff_lt_or_eq.1 hj with lt | rfl
    · exact .inr ⟨⟨j, lt, rfl⟩, sep.first_ne hj (Nat.lt_succ_self n) (Nat.ne_of_lt lt)⟩
    · exact .inl rfl

theorem remove (h : stack.Listed (n + 1) t) (sep : stack.Separate (n + 1)) :
    stack.Listed n (t.remove (stack.part n).first).2 := by
  have last := h.mem (Nat.lt_succ_self n)
  refine ⟨h.wellFormed.remove last, fun m => (MappingTable.mem_remove last).trans ?_⟩
  rw [h.mem_iff]
  constructor
  · rintro ⟨⟨j, hj, rfl⟩, ne⟩
    rcases Nat.lt_succ_iff_lt_or_eq.1 hj with lt | rfl
    · exact ⟨j, lt, rfl⟩
    · exact absurd rfl ne
  · rintro ⟨j, lt, rfl⟩
    exact ⟨⟨j, Nat.lt_succ_of_lt lt, rfl⟩,
      sep.first_ne (Nat.lt_succ_of_lt lt) (Nat.lt_succ_self n) (Nat.ne_of_lt lt)⟩

/-- As many mappings as sections. -/
theorem length_toList (h : stack.Listed n t) (sep : stack.Separate n) : t.toList.length = n := by
  have distinct : t.toList.Nodup := t.entries.descending.imp fun below same => by
    rw [same] at below
    exact Nat.lt_irrefl _ below
  have sections : ((List.range n).map stack.mapping).Nodup := by
    refine List.nodup_range.map_on fun i hi j hj same => ?_
    by_contra ne
    exact sep.first_ne (List.mem_range.1 hi) (List.mem_range.1 hj) ne (congrArg Mapping.hostBegin same)
  have perm : t.toList.Perm ((List.range n).map stack.mapping) := by
    refine (List.perm_ext_iff_of_nodup distinct sections).2 fun m => (h.mem_iff m).trans ?_
    rw [List.mem_map]
    exact ⟨fun ⟨j, hj, same⟩ => ⟨j, List.mem_range.2 hj, same.symm⟩,
      fun ⟨j, hj, same⟩ => ⟨j, List.mem_range.1 hj, same.symm⟩⟩
  rw [perm.length_eq, List.length_map, List.length_range]

end Listed

/-- The table that is made of the mappings translates the first address of each section. -/
theorem Listed.translate_first {t : MappingTable} (h : stack.Listed n t) (sep : stack.Separate n)
    (hj : j < n) :
    (AddressTable.ofMappings t.toList).translate (stack.part j).first = some (stack.target j) := by
  have space : ∀ m ∈ t, m.hostEnd ≤ Word.greatest := by
    intro m hm
    obtain ⟨i, hi, rfl⟩ := (h.mem_iff m).1 hm
    exact sep.bounded i hi
  have lt := sep.first_lt hj
  have stop := sep.bounded j hj
  have word : Word.greatest < Word.modulus := by decide
  refine ((h.wellFormed.separate space).translate_eq_some_iff (by omega)).2
    ⟨stack.mapping j, h.mem hj, Mapping.contains_iff.2 ⟨Nat.le_refl _, lt⟩, ?_⟩
  exact (sep.translate_first hj).symm

/-! ## Memory -/

/-- A memory has the blocks of the first `n` sections, with the given contents. Other blocks there may be. -/
structure Stored (stack : SectionStack) (n : Nat) (content : Nat → List UInt8) (next used : Nat)
    (m : DeviceMemory) : Prop where
  wellFormed : m.WellFormed
  next : m.next = next
  used : m.used = used
  capacity : m.capacity = Accelerator.defaultCapacity
  mem : ∀ j < n, ⟨stack.target j, content j⟩ ∈ m.blocks
  lengths : ∀ j < n, (content j).length = (stack.part j).size

namespace Stored

variable {content content' : Nat → List UInt8} {next used size : Nat} {m : DeviceMemory} {bytes : List UInt8}

theorem congr (h : stack.Stored n content next used m) (same : ∀ j < n, content' j = content j) :
    stack.Stored n content' next used m where
  wellFormed := h.wellFormed
  next := h.next
  used := h.used
  capacity := h.capacity
  mem j hj := same j hj ▸ h.mem j hj
  lengths j hj := same j hj ▸ h.lengths j hj

/-- The first bytes of a section. -/
theorem read (h : stack.Stored n content next used m) (hj : j < n) (pos : 0 < size)
    (fits : size ≤ (stack.part j).size) : m.read (stack.target j) size = .ok ((content j).take size) :=
  h.wellFormed.read_block (h.mem j hj) pos (h.lengths j hj ▸ fits)

/-- All bytes of a section. -/
theorem read_all (h : stack.Stored n content next used m) (sep : stack.Separate n) (hj : j < n) :
    m.read (stack.target j) (stack.part j).size = .ok (content j) := by
  rw [h.read hj (sep.nonempty j hj) (Nat.le_refl _), ← h.lengths j hj, List.take_length]

/-- The first bytes of one section change; all other blocks stay as they are. -/
theorem write (h : stack.Stored n content next used m) (hj : j < n) (some : bytes ≠ [])
    (fits : bytes.length ≤ (stack.part j).size)
    (here : content' j = bytes ++ (content j).drop bytes.length)
    (elsewhere : ∀ i < n, i ≠ j → content' i = content i) :
    ∃ m', m.write (stack.target j) bytes = .ok m' ∧ stack.Stored n content' next used m' ∧
      ∀ b ∈ m.blocks, b.start ≠ stack.target j → b ∈ m'.blocks := by
  obtain ⟨m', ran, wellFormed, next', used', capacity', blocks⟩ :=
    h.wellFormed.write_block_start (h.mem j hj) some (h.lengths j hj ▸ fits)
  refine ⟨m', ran, ⟨wellFormed, next'.trans h.next, used'.trans h.used, capacity'.trans h.capacity,
    fun i hi => ?_, fun i hi => ?_⟩, fun b hb ne => (blocks b).2 (.inr ⟨hb, ne⟩)⟩
  · by_cases same : i = j
    · subst same
      rw [here]
      exact (blocks _).2 (.inl rfl)
    · rw [elsewhere i hi same]
      exact (blocks _).2 (.inr ⟨h.mem i hi, target_ne same⟩)
  · by_cases same : i = j
    · subst same
      rw [here, List.length_append, List.length_drop, h.lengths i hi]
      omega
    · rw [elsewhere i hi same]
      exact h.lengths i hi

/-- A block that belongs to no section joins the others. -/
theorem allocate (h : stack.Stored n content next used m) (pos : 0 < size)
    (room : used + size ≤ Accelerator.defaultCapacity) :
    ∃ m', m.allocate size = (some next, m') ∧
      stack.Stored n content (next + DeviceMemory.stride size) (used + size) m' ∧
      ⟨next, List.replicate size 0⟩ ∈ m'.blocks := by
  obtain ⟨m', ran, wellFormed, next', used', capacity', blocks⟩ :=
    h.wellFormed.allocate_room pos (by rw [h.used, h.capacity]; exact room)
  rw [h.next] at ran next' blocks
  rw [h.used] at used'
  exact ⟨m', ran, ⟨wellFormed, next', used', capacity'.trans h.capacity,
    fun j hj => (blocks _).2 (.inr (h.mem j hj)), h.lengths⟩, (blocks _).2 (.inl rfl)⟩

/-- The first bytes of a block that belongs to no section change. -/
theorem write_other {b : Block} (h : stack.Stored n content next used m) (hb : b ∈ m.blocks)
    (other : ∀ j < n, stack.target j ≠ b.start) (some : bytes ≠ []) (fits : bytes.length ≤ b.bytes.length) :
    ∃ m', m.write b.start bytes = .ok m' ∧ stack.Stored n content next used m' ∧
      ⟨b.start, bytes ++ b.bytes.drop bytes.length⟩ ∈ m'.blocks := by
  obtain ⟨m', ran, wellFormed, next', used', capacity', blocks⟩ :=
    h.wellFormed.write_block_start hb some fits
  exact ⟨m', ran, ⟨wellFormed, next'.trans h.next, used'.trans h.used, capacity'.trans h.capacity,
    fun j hj => (blocks _).2 (.inr ⟨h.mem j hj, other j hj⟩), h.lengths⟩, (blocks _).2 (.inl rfl)⟩

/-- The next section gets its block. -/
theorem push (h : stack.Stored n content (stack.target n) used m) (pos : 0 < (stack.part n).size)
    (room : used + (stack.part n).size ≤ Accelerator.defaultCapacity)
    (here : content' n = List.replicate (stack.part n).size 0)
    (elsewhere : ∀ i < n, content' i = content i) :
    ∃ m', m.allocate (stack.part n).size = (some (stack.target n), m') ∧
      stack.Stored (n + 1) content' (stack.target (n + 1)) (used + (stack.part n).size) m' := by
  obtain ⟨m', ran, stored, block⟩ := h.allocate pos room
  refine ⟨m', ran, stored.wellFormed, stored.next, stored.used, stored.capacity, fun i hi => ?_,
    fun i hi => ?_⟩
  · rcases Nat.lt_succ_iff_lt_or_eq.1 hi with lt | rfl
    · exact elsewhere i lt ▸ stored.mem i lt
    · exact here ▸ block
  · rcases Nat.lt_succ_iff_lt_or_eq.1 hi with lt | rfl
    · exact elsewhere i lt ▸ h.lengths i lt
    · rw [here, List.length_replicate]

/-- The next section gets its block, and its bytes are written there. -/
theorem send (h : stack.Stored n content (stack.target n) used m) (pos : 0 < (stack.part n).size)
    (room : used + (stack.part n).size ≤ Accelerator.defaultCapacity)
    (length : (content n).length = (stack.part n).size) :
    ∃ m' m'', m.allocate (stack.part n).size = (some (stack.target n), m') ∧
      m'.write (stack.target n) (content n) = .ok m'' ∧
      stack.Stored (n + 1) content (stack.target (n + 1)) (used + (stack.part n).size) m'' := by
  obtain ⟨m', placed, fresh⟩ : ∃ m', m.allocate (stack.part n).size = (some (stack.target n), m') ∧
      stack.Stored (n + 1) (fun j => if j = n then List.replicate (stack.part n).size 0 else content j)
        (stack.target (n + 1)) (used + (stack.part n).size) m' :=
    h.push pos room (if_pos rfl) fun i lt => if_neg (Nat.ne_of_lt lt)
  have zeros : (List.replicate (stack.part n).size (0 : UInt8)).drop (content n).length = [] := by
    rw [length]
    exact List.drop_eq_nil_of_le (Nat.le_of_eq List.length_replicate)
  obtain ⟨m'', written, stored, -⟩ : ∃ m'', m'.write (stack.target n) (content n) = .ok m'' ∧
      stack.Stored (n + 1) content (stack.target (n + 1)) (used + (stack.part n).size) m'' ∧ _ :=
    fresh.write (Nat.lt_succ_self n) (List.ne_nil_of_length_pos (length ▸ pos)) (Nat.le_of_eq length)
      (by rw [if_pos rfl, zeros, List.append_nil]) fun i _ ne => (if_neg ne).symm
  exact ⟨m', m'', placed, written, stored⟩

/-- A block that belongs to no section goes away. -/
theorem free {b : Block} (h : stack.Stored n content next (used + b.bytes.length) m) (hb : b ∈ m.blocks)
    (other : ∀ j < n, stack.target j ≠ b.start) :
    ∃ m', m.free b.start = (true, m') ∧ stack.Stored n content next used m' := by
  obtain ⟨m', ran, wellFormed, next', used', capacity', blocks⟩ := h.wellFormed.free_block hb
  rw [h.used, Nat.add_sub_cancel] at used'
  exact ⟨m', ran, wellFormed, next'.trans h.next, used', capacity'.trans h.capacity,
    fun j hj => (blocks _).2 ⟨h.mem j hj, other j hj⟩, h.lengths⟩

/-- The last section loses its block. -/
theorem pop (h : stack.Stored (n + 1) content next (used + (stack.part n).size) m) :
    ∃ m', m.free (stack.target n) = (true, m') ∧ stack.Stored n content next used m' := by
  have last := Nat.lt_succ_self n
  have lower : stack.Stored n content next (used + (content n).length) m :=
    ⟨h.wellFormed, h.next, h.lengths n last ▸ h.used, h.capacity,
      fun j hj => h.mem j (Nat.lt_succ_of_lt hj), fun j hj => h.lengths j (Nat.lt_succ_of_lt hj)⟩
  exact lower.free (h.mem n last) fun j hj => target_ne (Nat.ne_of_lt hj)

/-- Chunks that are stored one after the other, each of which turns one description into the next. -/
theorem storeAll {chunk : Nat → Chunk} {contents : Nat → Nat → List UInt8} {count : Nat}
    (start : stack.Stored n (contents 0) next used m)
    (step : ∀ k < count, ∀ m, stack.Stored n (contents k) next used m →
      ∃ m', m.write (chunk k).target (chunk k).content = .ok m' ∧
        stack.Stored n (contents (k + 1)) next used m') :
    ∃ m', Accelerator.storeAll m ((List.range count).map chunk) = .ok m' ∧
      stack.Stored n (contents count) next used m' := by
  induction count with
  | zero => exact ⟨m, rfl, start⟩
  | succ count ih =>
      obtain ⟨m', ran, stored⟩ := ih fun k lt => step k (Nat.lt_succ_of_lt lt)
      obtain ⟨m'', ran', stored'⟩ := step count (Nat.lt_succ_self count) m' stored
      refine ⟨m'', ?_, stored'⟩
      rw [List.range_succ, List.map_append]
      exact Accelerator.storeAll_append.2 ⟨m', ran, Accelerator.storeAll_cons.2 ⟨m'', ran', rfl⟩⟩

end Stored

/-! ## Host memory -/

/-- The first `n` sections have the given contents on the host. -/
def Held (stack : SectionStack) (n : Nat) (content : Nat → List UInt8) (host : HostMemory) : Prop :=
  ∀ j < n, host.read (stack.part j).first (stack.part j).size = content j

namespace Held

variable {content content' : Nat → List UInt8} {host : HostMemory} {bytes : List UInt8}

theorem length (h : stack.Held n content host) (hj : j < n) :
    (content j).length = (stack.part j).size := by
  rw [← h j hj, HostMemory.length_read]

/-- The first bytes of one section change, and nothing else does. -/
theorem write (h : stack.Held n content host) (sep : stack.Separate n) (hj : j < n)
    (fits : bytes.length ≤ (stack.part j).size)
    (here : content' j = bytes ++ (content j).drop bytes.length)
    (elsewhere : ∀ i < n, i ≠ j → content' i = content i) :
    stack.Held n content' (host.write (stack.part j).first bytes) := by
  intro i hi
  by_cases same : i = j
  · subst same
    have split : (stack.part i).size = bytes.length + ((stack.part i).size - bytes.length) := by omega
    have old := h i hi
    rw [split, HostMemory.read_add] at old
    have front : (host.read (stack.part i).first bytes.length).length = bytes.length :=
      HostMemory.length_read _ _ _
    rw [here, split, HostMemory.read_write_front, ← old, List.drop_left' front]
  · rw [elsewhere i hi same, ← h i hi]
    refine HostMemory.read_write_apart ?_
    rcases sep.apart i hi j hj same with before | after
    · exact .inl before
    · refine .inr ?_
      rw [HostSection.stop] at after
      omega

end Held

end SectionStack

end Offloading
