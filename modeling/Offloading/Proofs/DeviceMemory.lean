import Offloading.Memory.Device
import Offloading.Proofs.AddressMap
/-!
# Device memory

A well-formed memory holds non-empty blocks that do not meet and lie below the place of the next
one. On such a memory every operation is described by the bytes that can be read afterwards and by
the layout of the blocks, which only allocating and freeing change.
-/

namespace Offloading.DeviceMemory

variable {m m' : DeviceMemory} {b c : Block} {addr a size : Nat} {content : List UInt8}

/-- The byte at an address, if a block holds it. -/
def byte? (m : DeviceMemory) (addr : Nat) : Option UInt8 :=
  (m.blocks.atOrBelow? addr).bind fun b => b.bytes[addr - b.start]?

/-- Where the blocks begin and how long they are. -/
def extents (m : DeviceMemory) : List (Nat × Nat) :=
  m.blocks.items.map fun b => (b.start, b.bytes.length)

/-- All of a memory but its bytes. -/
def layout (m : DeviceMemory) : Nat × Nat × Nat × List (Nat × Nat) :=
  (m.next, m.capacity, m.used, m.extents)

/-- What the operations of a memory keep. -/
structure WellFormed (m : DeviceMemory) : Prop where
  /-- No block is empty. -/
  nonempty : ∀ b ∈ m.blocks, 0 < b.bytes.length
  /-- A block ends before the next one begins. -/
  apart : ∀ b ∈ m.blocks, ∀ c ∈ m.blocks, b.start < c.start → b.start + b.bytes.length ≤ c.start
  /-- All blocks end before the place of the next one. -/
  below : ∀ b ∈ m.blocks, b.start + b.bytes.length < m.next

theorem wellFormed_empty (next capacity : Nat) : WellFormed { next, capacity } where
  nonempty _ hb := absurd hb AddressMap.not_mem_empty
  apart _ hb := absurd hb AddressMap.not_mem_empty
  below _ hb := absurd hb AddressMap.not_mem_empty

@[simp] theorem address_block (b : Block) : address b = b.start := rfl

theorem mem_extents {p : Nat × Nat} :
    p ∈ m.extents ↔ ∃ b ∈ m.blocks, (b.start, b.bytes.length) = p := by
  rw [extents, List.mem_map]
  rfl

/-! ## Bytes -/

namespace WellFormed

/-- A block is located by each of its addresses. -/
theorem atOrBelow?_eq (h : m.WellFormed) (hb : b ∈ m.blocks) (lower : b.start ≤ a)
    (upper : a < b.start + b.bytes.length) : m.blocks.atOrBelow? a = some b := by
  refine AddressMap.atOrBelow?_eq_some_iff.2 ⟨hb, lower, ?_⟩
  intro c hc hca
  simp only [address_block] at hca ⊢
  rcases Nat.lt_or_ge b.start c.start with lt | ge
  · have := h.apart b hb c hc lt
    omega
  · exact ge

theorem byte?_eq (h : m.WellFormed) (hb : b ∈ m.blocks) (lower : b.start ≤ a)
    (upper : a < b.start + b.bytes.length) : m.byte? a = b.bytes[a - b.start]? := by
  rw [byte?, h.atOrBelow?_eq hb lower upper, Option.bind_some]

theorem byte?_eq_some_iff (h : m.WellFormed) {v : UInt8} :
    m.byte? a = some v ↔ ∃ b ∈ m.blocks, b.start ≤ a ∧ b.bytes[a - b.start]? = some v := by
  constructor
  · intro hv
    rw [byte?, Option.bind_eq_some_iff] at hv
    obtain ⟨b, found, hv⟩ := hv
    obtain ⟨hb, lower, -⟩ := AddressMap.atOrBelow?_eq_some_iff.1 found
    exact ⟨b, hb, lower, hv⟩
  · rintro ⟨b, hb, lower, hv⟩
    obtain ⟨inside, -⟩ := List.getElem?_eq_some_iff.1 hv
    rw [h.byte?_eq hb lower (by omega), hv]

theorem byte?_isSome_iff (h : m.WellFormed) :
    (m.byte? a).isSome ↔ ∃ b ∈ m.blocks, b.start ≤ a ∧ a < b.start + b.bytes.length := by
  constructor
  · intro hs
    obtain ⟨v, hv⟩ := Option.isSome_iff_exists.1 hs
    obtain ⟨b, hb, lower, hv⟩ := h.byte?_eq_some_iff.1 hv
    obtain ⟨inside, -⟩ := List.getElem?_eq_some_iff.1 hv
    exact ⟨b, hb, lower, by omega⟩
  · rintro ⟨b, hb, lower, upper⟩
    rw [h.byte?_eq hb lower upper, List.getElem?_eq_getElem (by omega), Option.isSome_some]

theorem byte?_below (h : m.WellFormed) (hs : (m.byte? a).isSome) : a < m.next := by
  obtain ⟨b, hb, -, upper⟩ := h.byte?_isSome_iff.1 hs
  have := h.below b hb
  omega

/-- A block is where it lies and the bytes that are found there. -/
theorem mem_blocks_iff (h : m.WellFormed) :
    b ∈ m.blocks ↔ (b.start, b.bytes.length) ∈ m.extents ∧
      ∀ i < b.bytes.length, m.byte? (b.start + i) = b.bytes[i]? := by
  constructor
  · intro hb
    refine ⟨mem_extents.2 ⟨b, hb, rfl⟩, fun i hi => ?_⟩
    rw [h.byte?_eq hb (by omega) (by omega), Nat.add_sub_cancel_left]
  · rintro ⟨extent, bytes⟩
    obtain ⟨c, hc, same⟩ := mem_extents.1 extent
    rw [Prod.mk.injEq] at same
    have content : c.bytes = b.bytes := by
      apply List.ext_getElem? fun i => ?_
      by_cases hi : i < b.bytes.length
      · rw [← bytes i hi, h.byte?_eq hc (by omega) (by omega), same.1, Nat.add_sub_cancel_left]
      · rw [List.getElem?_eq_none (by omega), List.getElem?_eq_none (by omega)]
    have : c = b := by
      cases b
      cases c
      simp only [Block.mk.injEq]
      exact ⟨same.1, content⟩
    exact this ▸ hc

/-- A well-formed memory is its layout and its bytes. -/
theorem eq_of_byte? (h : m.WellFormed) (h' : m'.WellFormed) (same : m.layout = m'.layout)
    (bytes : ∀ a, m.byte? a = m'.byte? a) : m = m' := by
  have mem : ∀ {k l : DeviceMemory}, k.WellFormed → l.WellFormed → k.extents = l.extents →
      (∀ a, k.byte? a = l.byte? a) → ∀ b ∈ k.blocks, b ∈ l.blocks := by
    intro k l hk hl ext bytes b hb
    obtain ⟨extent, here⟩ := hk.mem_blocks_iff.1 hb
    exact hl.mem_blocks_iff.2 ⟨ext ▸ extent, fun i hi => bytes _ ▸ here i hi⟩
  simp only [layout, Prod.mk.injEq] at same
  obtain ⟨next, capacity, used, ext⟩ := same
  have blocks : m.blocks = m'.blocks := AddressMap.ext_mem fun b =>
    ⟨mem h h' ext bytes b, mem h' h ext.symm (fun a => (bytes a).symm) b⟩
  cases m
  cases m'
  simp only [mk.injEq]
  exact ⟨next, capacity, used, blocks⟩

end WellFormed

/-! ## Reading -/

theorem locate_eq_ok (h : m.locate addr size = .ok b) :
    b ∈ m.blocks ∧ b.start ≤ addr ∧ addr + size ≤ b.start + b.bytes.length := by
  unfold locate at h
  split at h
  · cases h
  · rename_i found
    obtain ⟨hb, lower, -⟩ := AddressMap.atOrBelow?_eq_some_iff.1 found
    rw [address_block] at lower
    split at h
    · cases h
      exact ⟨hb, lower, by omega⟩
    · cases h

theorem WellFormed.locate_eq (h : m.WellFormed) (hb : b ∈ m.blocks) (lower : b.start ≤ addr)
    (upper : addr + size ≤ b.start + b.bytes.length) (hs : 0 < size) :
    m.locate addr size = .ok b := by
  rw [locate, h.atOrBelow?_eq hb lower (by omega)]
  exact if_pos (by omega)

/-- What was read are the bytes of the section. -/
theorem WellFormed.read_eq_ok (h : m.WellFormed) (hr : m.read addr size = .ok content) :
    content.length = size ∧ ∀ i < size, m.byte? (addr + i) = content[i]? := by
  unfold read at hr
  split at hr
  · cases hr
    exact ⟨by simp_all, fun i hi => by omega⟩
  · cases hl : m.locate addr size with
    | error e =>
        rw [hl] at hr
        cases hr
    | ok b =>
        rw [hl] at hr
        cases hr
        obtain ⟨hb, lower, upper⟩ := locate_eq_ok hl
        refine ⟨?_, fun i hi => ?_⟩
        · rw [List.length_take, List.length_drop]
          omega
        · rw [h.byte?_eq hb (by omega) (by omega), List.getElem?_take_of_lt hi, List.getElem?_drop]
          congr 1
          omega

/-- A section within a block can be read. -/
theorem WellFormed.read_eq (h : m.WellFormed) (hb : b ∈ m.blocks) (lower : b.start ≤ addr)
    (upper : addr + content.length ≤ b.start + b.bytes.length) (some : 0 < content.length)
    (bytes : ∀ i < content.length, m.byte? (addr + i) = content[i]?) :
    m.read addr content.length = .ok content := by
  have ran : m.read addr content.length =
      .ok ((b.bytes.drop (addr - b.start)).take content.length) := by
    rw [read, if_neg (by omega), h.locate_eq hb lower upper some]
    rfl
  obtain ⟨length, same⟩ := h.read_eq_ok ran
  rw [ran, Except.ok.injEq]
  refine List.ext_getElem? fun i => ?_
  by_cases hi : i < content.length
  · rw [← same i hi, bytes i hi]
  · rw [List.getElem?_eq_none (by omega), List.getElem?_eq_none (by omega)]

/-! ## Writing -/

theorem getElem?_overwrite {old new : List UInt8} {offset i : Nat}
    (fits : offset + new.length ≤ old.length) :
    (overwrite old offset new)[i]? =
      if offset ≤ i ∧ i < offset + new.length then new[i - offset]? else old[i]? := by
  have start : (old.take offset).length = offset := by
    rw [List.length_take]
    omega
  rw [overwrite, List.append_assoc]
  by_cases before : i < offset
  · rw [List.getElem?_append_left (by omega), List.getElem?_take_of_lt before, if_neg (by omega)]
  · rw [List.getElem?_append_right (by omega), start]
    by_cases inside : i < offset + new.length
    · rw [List.getElem?_append_left (by omega), if_pos (by omega)]
    · rw [List.getElem?_append_right (by omega), List.getElem?_drop, if_neg (by omega)]
      congr 1
      omega

theorem length_overwrite {old new : List UInt8} {offset : Nat}
    (fits : offset + new.length ≤ old.length) : (overwrite old offset new).length = old.length := by
  simp only [overwrite, List.length_append, List.length_take, List.length_drop]
  omega

/-- A block with other bytes at `addr`. -/
private def rewritten (b : Block) (addr : Nat) (content : List UInt8) : Block :=
  { b with bytes := overwrite b.bytes (addr - b.start) content }

private theorem rewritten_start (b : Block) (addr : Nat) (content : List UInt8) :
    (rewritten b addr content).start = b.start := rfl

private theorem rewritten_bytes :
    (rewritten b addr content).bytes = overwrite b.bytes (addr - b.start) content := rfl

private theorem write_cases (h : m.write addr content = .ok m') :
    (content = [] ∧ m' = m) ∨
      ∃ b ∈ m.blocks, b.start ≤ addr ∧ addr + content.length ≤ b.start + b.bytes.length ∧
        m' = { m with blocks := m.blocks.insert (rewritten b addr content) } := by
  unfold write at h
  split at h
  · rename_i empty
    cases h
    exact .inl ⟨List.isEmpty_iff.1 empty, rfl⟩
  · cases hl : m.locate addr content.length with
    | error e =>
        rw [hl] at h
        cases h
    | ok b =>
        rw [hl] at h
        cases h
        obtain ⟨hb, lower, upper⟩ := locate_eq_ok hl
        exact .inr ⟨b, hb, lower, upper, rfl⟩

/-- What is written lies in one block. -/
theorem write_block (h : m.write addr content = .ok m') (some : content ≠ []) :
    ∃ b ∈ m.blocks, b.start ≤ addr ∧ addr + content.length ≤ b.start + b.bytes.length := by
  rcases write_cases h with ⟨none, -⟩ | ⟨b, hb, lower, upper, -⟩
  · exact absurd none some
  · exact ⟨b, hb, lower, upper⟩

private theorem length_rewritten (lower : b.start ≤ addr)
    (upper : addr + content.length ≤ b.start + b.bytes.length) :
    (rewritten b addr content).bytes.length = b.bytes.length := by
  rw [rewritten, length_overwrite (by omega)]

private theorem mem_rewritten (hb : b ∈ m.blocks) (lower : b.start ≤ addr)
    (upper : addr + content.length ≤ b.start + b.bytes.length)
    (hc : c ∈ m.blocks.insert (rewritten b addr content)) :
    ∃ d ∈ m.blocks, d.start = c.start ∧ d.bytes.length = c.bytes.length := by
  rcases AddressMap.mem_insert.1 hc with rfl | ⟨hc, -⟩
  · exact ⟨b, hb, rfl, (length_rewritten lower upper).symm⟩
  · exact ⟨c, hc, rfl, rfl⟩

theorem WellFormed.write (h : m.WellFormed) (hw : m.write addr content = .ok m') :
    m'.WellFormed := by
  rcases write_cases hw with ⟨-, rfl⟩ | ⟨b, hb, lower, upper, rfl⟩
  · exact h
  · have mem := fun c hc => mem_rewritten (c := c) hb lower upper hc
    refine ⟨fun c hc => ?_, fun c hc d hd lt => ?_, fun c hc => ?_⟩
    · obtain ⟨d, hd, -, length⟩ := mem c hc
      have := h.nonempty d hd
      omega
    · obtain ⟨c', hc', start, length⟩ := mem c hc
      obtain ⟨d', hd', start', -⟩ := mem d hd
      have := h.apart c' hc' d' hd' (by omega)
      omega
    · obtain ⟨d, hd, start, length⟩ := mem c hc
      have := h.below d hd
      simp only
      omega

theorem layout_write (hw : m.write addr content = .ok m') : m'.layout = m.layout := by
  rcases write_cases hw with ⟨-, rfl⟩ | ⟨b, hb, lower, upper, rfl⟩
  · rfl
  · have items := AddressMap.items_insert_of_mem (b := b) (c := rewritten b addr content) hb rfl
    simp only [layout, extents, items, List.map_map, Prod.mk.injEq, true_and]
    refine List.map_congr_left fun c hc => ?_
    by_cases same : c.start = b.start
    · have : c = b := AddressMap.eq_of_address_eq hc hb same
      subst this
      have := length_rewritten lower upper
      simp [Function.comp, this, rewritten_start]
    · simp [Function.comp, same]

/-- Writing changes the bytes of its section only. -/
theorem WellFormed.byte?_write (h : m.WellFormed) (hw : m.write addr content = .ok m') (a : Nat) :
    m'.byte? a =
      if addr ≤ a ∧ a < addr + content.length then content[a - addr]? else m.byte? a := by
  have h' := h.write hw
  rcases write_cases hw with ⟨rfl, rfl⟩ | ⟨b, hb, lower, upper, rfl⟩
  · rw [if_neg (by simp)]
  · have length := length_rewritten lower upper
    by_cases inside : b.start ≤ a ∧ a < b.start + b.bytes.length
    · have start := rewritten_start b addr content
      rw [h'.byte?_eq (b := rewritten b addr content) AddressMap.mem_insert_self
        (by omega) (by omega), h.byte?_eq hb inside.1 inside.2, start, rewritten_bytes,
        getElem?_overwrite (by omega)]
      by_cases hit : addr ≤ a ∧ a < addr + content.length
      · rw [if_pos hit, if_pos (by omega)]
        congr 1
        omega
      · rw [if_neg hit, if_neg (by omega)]
    · rw [if_neg (by omega)]
      -- outside the block both memories hold the same blocks
      apply Option.ext fun v => ?_
      rw [h'.byte?_eq_some_iff, h.byte?_eq_some_iff]
      constructor
      · rintro ⟨c, hc, le, hv⟩
        rcases AddressMap.mem_insert.1 hc with rfl | ⟨hc, -⟩
        · obtain ⟨lt, -⟩ := List.getElem?_eq_some_iff.1 hv
          rw [rewritten_start] at lt le
          omega
        · exact ⟨c, hc, le, hv⟩
      · rintro ⟨c, hc, le, hv⟩
        refine ⟨c, AddressMap.mem_insert.2 (.inr ⟨hc, ?_⟩), le, hv⟩
        intro same
        have : c = b := AddressMap.eq_of_address_eq hc hb same
        subst this
        obtain ⟨lt, -⟩ := List.getElem?_eq_some_iff.1 hv
        omega

/-- What is written lies in a block. -/
theorem WellFormed.write_inside (h : m.WellFormed) (hw : m.write addr content = .ok m')
    (lower : addr ≤ a) (upper : a < addr + content.length) : (m.byte? a).isSome := by
  rcases write_cases hw with ⟨rfl, -⟩ | ⟨b, hb, below, above, -⟩
  · simp only [List.length_nil] at upper
    omega
  · exact h.byte?_isSome_iff.2 ⟨b, hb, by omega, by omega⟩

/-! ## Allocating -/

theorem lt_stride (size : Nat) : size < stride size := by
  unfold stride alignment
  omega

theorem allocate_eq_some (h : m.allocate size = (some addr, m')) :
    addr = m.next ∧
      m' = { m with
        next := m.next + stride (max size 1)
        used := m.used + max size 1
        blocks := m.blocks.insert ⟨m.next, List.replicate (max size 1) 0⟩ } := by
  simp only [allocate] at h
  split at h
  · cases h
  · cases h
    exact ⟨rfl, rfl⟩

theorem allocate_eq_none (h : m.allocate size = (none, m')) : m' = m := by
  simp only [allocate] at h
  split at h
  · cases h
    rfl
  · cases h

theorem WellFormed.start_lt (h : m.WellFormed) (hb : b ∈ m.blocks) : b.start < m.next := by
  have := h.below b hb
  omega

theorem WellFormed.allocate (h : m.WellFormed) (size : Nat) : (m.allocate size).2.WellFormed := by
  rcases ha : m.allocate size with ⟨_ | addr, m'⟩
  · rw [allocate_eq_none ha]
    exact h
  · obtain ⟨-, rfl⟩ := allocate_eq_some ha
    have room := lt_stride (max size 1)
    refine ⟨fun b hb => ?_, fun b hb c hc lt => ?_, fun b hb => ?_⟩
    · rcases AddressMap.mem_insert.1 hb with rfl | ⟨hb, -⟩
      · simp only [List.length_replicate]
        omega
      · exact h.nonempty b hb
    · rcases AddressMap.mem_insert.1 hb with rfl | ⟨hb, -⟩
      · rcases AddressMap.mem_insert.1 hc with rfl | ⟨hc, -⟩
        · omega
        · have := h.start_lt hc
          simp only at lt
          omega
      · rcases AddressMap.mem_insert.1 hc with rfl | ⟨hc, -⟩
        · have := h.below b hb
          simp only
          omega
        · exact h.apart b hb c hc lt
    · rcases AddressMap.mem_insert.1 hb with rfl | ⟨hb, -⟩
      · simp only [List.length_replicate]
        omega
      · have := h.below b hb
        simp only
        omega

theorem WellFormed.extents_allocate (h : m.WellFormed)
    (ha : m.allocate size = (some addr, m')) :
    m'.extents = (m.next, max size 1) :: m.extents := by
  obtain ⟨-, rfl⟩ := allocate_eq_some ha
  have items := AddressMap.items_insert_of_above (m := m.blocks)
    (b := ⟨m.next, List.replicate (max size 1) 0⟩) fun b hb => h.start_lt hb
  simp [extents, items]

/-- A fresh block is zero, and nothing else changes. -/
theorem WellFormed.byte?_allocate (h : m.WellFormed)
    (ha : m.allocate size = (some addr, m')) (a : Nat) :
    m'.byte? a =
      if m.next ≤ a ∧ a < m.next + max size 1 then some 0 else m.byte? a := by
  have h' : m'.WellFormed := by
    have := h.allocate size
    rwa [ha] at this
  obtain ⟨-, rfl⟩ := allocate_eq_some ha
  by_cases fresh : m.next ≤ a ∧ a < m.next + max size 1
  · rw [if_pos fresh, h'.byte?_eq (b := ⟨m.next, List.replicate (max size 1) 0⟩)
      AddressMap.mem_insert_self fresh.1 (by rw [List.length_replicate]; exact fresh.2)]
    rw [List.getElem?_replicate, if_pos (by simp only; omega)]
  · rw [if_neg fresh]
    apply Option.ext fun v => ?_
    rw [h'.byte?_eq_some_iff, h.byte?_eq_some_iff]
    constructor
    · rintro ⟨b, hb, le, hv⟩
      rcases AddressMap.mem_insert.1 hb with rfl | ⟨hb, -⟩
      · obtain ⟨lt, -⟩ := List.getElem?_eq_some_iff.1 hv
        simp only [List.length_replicate] at lt le
        omega
      · exact ⟨b, hb, le, hv⟩
    · rintro ⟨b, hb, le, hv⟩
      refine ⟨b, AddressMap.mem_insert.2 (.inr ⟨hb, ?_⟩), le, hv⟩
      have := h.start_lt hb
      simp only [address_block]
      omega

/-! ## Freeing -/

theorem free_eq_true (h : m.free addr = (true, m')) :
    ∃ b ∈ m.blocks, b.start = addr ∧
      m' = { m with used := m.used - b.bytes.length, blocks := m.blocks.erase addr } := by
  unfold free at h
  split at h
  · cases h
  · rename_i b found
    cases h
    obtain ⟨hb, start⟩ := AddressMap.get?_eq_some_iff.1 found
    exact ⟨b, hb, start, rfl⟩

theorem free_eq_false (h : m.free addr = (false, m')) : m' = m := by
  unfold free at h
  split at h
  · cases h
    rfl
  · cases h

theorem WellFormed.free (h : m.WellFormed) (addr : Nat) : (m.free addr).2.WellFormed := by
  rcases hf : m.free addr with ⟨_ | _, m'⟩
  · rw [free_eq_false hf]
    exact h
  · obtain ⟨b, -, -, rfl⟩ := free_eq_true hf
    refine ⟨fun c hc => ?_, fun c hc d hd => ?_, fun c hc => ?_⟩
    · exact h.nonempty c (AddressMap.mem_erase.1 hc).1
    · exact h.apart c (AddressMap.mem_erase.1 hc).1 d (AddressMap.mem_erase.1 hd).1
    · exact h.below c (AddressMap.mem_erase.1 hc).1

theorem extents_free (hf : m.free addr = (true, m')) :
    m'.extents = m.extents.filter fun p => p.1 != addr := by
  obtain ⟨b, -, -, rfl⟩ := free_eq_true hf
  rw [extents, extents, List.filter_map]
  rfl

/-- A byte that is left after freeing a block was there before. -/
theorem WellFormed.byte?_of_free (h : m.WellFormed) (hf : m.free addr = (true, m')) {v : UInt8}
    (hv : m'.byte? a = some v) : m.byte? a = some v := by
  have h' : m'.WellFormed := by
    have := h.free addr
    rwa [hf] at this
  obtain ⟨_, _, _, rfl⟩ := free_eq_true hf
  obtain ⟨c, hc, le, hv⟩ := h'.byte?_eq_some_iff.1 hv
  exact h.byte?_eq_some_iff.2 ⟨c, (AddressMap.mem_erase.1 hc).1, le, hv⟩

/-- Freeing a block leaves the bytes of all others. -/
theorem WellFormed.byte?_free (h : m.WellFormed) (hf : m.free addr = (true, m'))
    (hb : b ∈ m.blocks) (start : b.start = addr)
    (outside : ¬ (b.start ≤ a ∧ a < b.start + b.bytes.length)) : m'.byte? a = m.byte? a := by
  have h' : m'.WellFormed := by
    have := h.free addr
    rwa [hf] at this
  obtain ⟨_, _, _, rfl⟩ := free_eq_true hf
  apply Option.ext fun v => ?_
  rw [h'.byte?_eq_some_iff, h.byte?_eq_some_iff]
  constructor
  · rintro ⟨c, hc, le, hv⟩
    exact ⟨c, (AddressMap.mem_erase.1 hc).1, le, hv⟩
  · rintro ⟨c, hc, le, hv⟩
    refine ⟨c, AddressMap.mem_erase.2 ⟨hc, ?_⟩, le, hv⟩
    intro same
    have : c = b := AddressMap.eq_of_address_eq hc hb (same.trans start.symm)
    subst this
    obtain ⟨lt, -⟩ := List.getElem?_eq_some_iff.1 hv
    omega

end Offloading.DeviceMemory
