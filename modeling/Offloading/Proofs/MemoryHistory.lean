import Offloading.Proofs.Coalescing
/-!
# The history of a device memory

A memory is described by what was done to it. The live blocks are those that were allocated and not
freed, and a byte of a live block is the last one that was put there: a zero by the allocation or what a
copy wrote. This does not say which of several blocks an address belonged to, since no two of them ever
share one: places are handed out in ascending order and never again.
-/

namespace Offloading

/-- A call of a device memory. -/
inductive MemoryCall where
  | allocate (size : Nat)
  | free (addr : Nat)
  | read (addr size : Nat)
  | write (addr : Nat) (content : List UInt8)

/-- The call does not do what it is meant to do. -/
def MemoryCall.Fails (m : DeviceMemory) : MemoryCall → Prop
  | allocate size => (m.allocate size).1 = none
  | free addr => (m.free addr).1 = false
  | read addr size => ∃ e, m.read addr size = .error e
  | write addr content => ∃ e, m.write addr content = .error e

/-- What a call did to a memory. -/
inductive MemoryEvent where
  | allocated (addr length : Nat)
  | freed (addr : Nat)
  | written (addr : Nat) (content : List UInt8)

namespace MemoryEvent

/-- The byte that the event puts at an address. A fresh block is zero. -/
def byteAt? (a : Nat) : MemoryEvent → Option UInt8
  | allocated addr length => if addr ≤ a ∧ a < addr + length then some 0 else none
  | freed _ => none
  | written addr content => if addr ≤ a then content[a - addr]? else none

/-- The byte that was put at an address last. The last event comes first. -/
def latest (events : List MemoryEvent) (a : Nat) : Option UInt8 := events.findSome? (byteAt? a)

/-- Where the blocks begin that were allocated and not freed, and how long they are. -/
def live : List MemoryEvent → List (Nat × Nat)
  | [] => []
  | allocated addr length :: earlier => (addr, length) :: live earlier
  | freed addr :: earlier => (live earlier).filter fun p => p.1 != addr
  | written _ _ :: earlier => live earlier

/-- The address that the event handed out. -/
def handedOut? : MemoryEvent → Option Nat
  | allocated addr _ => some addr
  | _ => none

/-- All addresses that were handed out. -/
def handedOut (events : List MemoryEvent) : List Nat := events.filterMap handedOut?

variable {events : List MemoryEvent} {a addr length : Nat} {content : List UInt8}

theorem latest_allocated : latest (allocated addr length :: events) a =
    if addr ≤ a ∧ a < addr + length then some 0 else latest events a := by
  rw [latest, List.findSome?_cons, byteAt?]
  by_cases fresh : addr ≤ a ∧ a < addr + length
  · rw [if_pos fresh, if_pos fresh]
  · rw [if_neg fresh, if_neg fresh]
    rfl

theorem latest_freed : latest (freed addr :: events) a = latest events a := rfl

theorem latest_written : latest (written addr content :: events) a =
    if addr ≤ a ∧ a < addr + content.length then content[a - addr]? else latest events a := by
  rw [latest, List.findSome?_cons, byteAt?]
  by_cases hit : addr ≤ a ∧ a < addr + content.length
  · have inside : a - addr < content.length := by omega
    rw [if_pos hit.1, if_pos hit, List.getElem?_eq_getElem inside]
  · rw [if_neg hit]
    by_cases lower : addr ≤ a
    · rw [if_pos lower, List.getElem?_eq_none (by omega)]
      rfl
    · rw [if_neg lower]
      rfl

end MemoryEvent

open MemoryEvent

/-- A memory and what was done to it, the last event first. -/
structure MemoryRun where
  /-- The memory. -/
  memory : DeviceMemory
  /-- What was done to it. -/
  events : List MemoryEvent := []

namespace MemoryRun

/-- The memory after one more call. -/
def perform (r : MemoryRun) : MemoryCall → MemoryRun
  | .allocate size =>
    match r.memory.allocate size with
    | (none, m) => { r with memory := m }
    | (some addr, m) => ⟨m, .allocated addr (max size 1) :: r.events⟩
  | .free addr =>
    match r.memory.free addr with
    | (false, m) => { r with memory := m }
    | (true, m) => ⟨m, .freed addr :: r.events⟩
  | .read _ _ => r
  | .write addr content =>
    match r.memory.write addr content with
    | .error _ => r
    | .ok m => ⟨m, .written addr content :: r.events⟩

/-- An empty memory after some calls. -/
def after (base capacity : Nat) (calls : List MemoryCall) : MemoryRun :=
  calls.foldl perform ⟨{ next := base, capacity }, []⟩

variable {r : MemoryRun} {capacity : Nat}

/-- A call that fails does nothing. -/
theorem perform_of_fails {c : MemoryCall} (failed : c.Fails r.memory) : r.perform c = r := by
  cases c with
  | allocate size =>
      rcases ran : r.memory.allocate size with ⟨_ | addr, m⟩
      · simp only [perform, ran, DeviceMemory.allocate_eq_none ran]
      · rw [MemoryCall.Fails, ran] at failed
        cases failed
  | free addr =>
      rcases ran : r.memory.free addr with ⟨_ | _, m⟩
      · simp only [perform, ran, DeviceMemory.free_eq_false ran]
      · rw [MemoryCall.Fails, ran] at failed
        cases failed
  | read addr size => rfl
  | write addr content =>
      obtain ⟨e, ran⟩ := failed
      simp only [perform, ran]

/-- The memory is what its history says. -/
structure Recorded (r : MemoryRun) (capacity : Nat) : Prop where
  wellFormed : r.memory.WellFormed
  limit : r.memory.capacity = capacity
  /-- The blocks are those that are live. -/
  extents : r.memory.extents = live r.events
  /-- There is a gap between a block and the next one above it. -/
  gaps : r.memory.extents.Pairwise fun p q => q.1 + q.2 + 64 ≤ p.1
  /-- There is one before the place of the next block, too. -/
  ahead : ∀ p ∈ r.memory.extents, p.1 + p.2 + 64 ≤ r.memory.next
  used : r.memory.used = (r.memory.extents.map Prod.snd).sum
  room : r.memory.used ≤ capacity
  /-- What was handed out lies before the place of the next block. -/
  handed : ∀ addr ∈ handedOut r.events, addr < r.memory.next
  once : (handedOut r.events).Nodup
  /-- A byte is the last one that was put there. -/
  bytes : ∀ a v, r.memory.byte? a = some v → latest r.events a = some v

theorem recorded_empty (base capacity : Nat) : Recorded ⟨{ next := base, capacity }, []⟩ capacity where
  wellFormed := DeviceMemory.wellFormed_empty base capacity
  limit := rfl
  extents := rfl
  gaps := .nil
  ahead _ hp := absurd hp List.not_mem_nil
  used := rfl
  room := Nat.zero_le capacity
  handed _ hp := absurd hp List.not_mem_nil
  once := List.nodup_nil
  bytes a v hv := by
    have empty : (⟨base, capacity, 0, ∅⟩ : DeviceMemory).byte? a = none := rfl
    rw [empty] at hv
    cases hv

theorem size_add_gap_le_stride (size : Nat) : size + 64 ≤ DeviceMemory.stride size := by
  unfold DeviceMemory.stride DeviceMemory.alignment
  omega

theorem Recorded.allocated {size addr : Nat} {m : DeviceMemory} (h : r.Recorded capacity)
    (ran : r.memory.allocate size = (some addr, m)) :
    Recorded ⟨m, .allocated addr (max size 1) :: r.events⟩ capacity := by
  have wellFormed : m.WellFormed := by
    have := h.wellFormed.allocate size
    rwa [ran] at this
  have extents := h.wellFormed.extents_allocate ran
  have bytes := h.wellFormed.byte?_allocate ran
  obtain ⟨rfl, fields⟩ := DeviceMemory.allocate_eq_some ran
  have next : m.next = r.memory.next + DeviceMemory.stride (max size 1) := by rw [fields]
  have used : m.used = r.memory.used + max size 1 := by rw [fields]
  have limit : m.capacity = r.memory.capacity := by rw [fields]
  have far := size_add_gap_le_stride (max size 1)
  refine ⟨wellFormed, limit.trans h.limit, ?_, ?_, fun p hp => ?_, ?_, ?_, fun a ha => ?_, ?_,
    fun a v hv => ?_⟩
  · rw [extents, h.extents]
    rfl
  · rw [extents]
    exact List.pairwise_cons.2 ⟨h.ahead, h.gaps⟩
  · simp only [next]
    rw [extents, List.mem_cons] at hp
    rcases hp with rfl | hp
    · simp only
      omega
    · have := h.ahead p hp
      omega
  · simp only [used, extents, List.map_cons, List.sum_cons, h.used]
    omega
  · -- the request was not refused
    have accepted : ¬ r.memory.capacity < r.memory.used + max size 1 := by
      intro full
      rw [DeviceMemory.allocate, if_pos full] at ran
      cases ran
    have := h.limit
    simp only [used]
    omega
  · simp only [next]
    rcases List.mem_cons.1 (show a ∈ r.memory.next :: handedOut r.events from ha) with rfl | ha
    · omega
    · have := h.handed a ha
      omega
  · refine List.nodup_cons.2 ⟨fun again => ?_, h.once⟩
    exact absurd (h.handed _ again) (Nat.lt_irrefl _)
  · simp only [bytes] at hv
    rw [latest_allocated]
    split
    · rename_i fresh
      rwa [if_pos fresh] at hv
    · rename_i old
      rw [if_neg old] at hv
      exact h.bytes a v hv

theorem Recorded.freed {addr : Nat} {m : DeviceMemory} (h : r.Recorded capacity)
    (ran : r.memory.free addr = (true, m)) : Recorded ⟨m, .freed addr :: r.events⟩ capacity := by
  have wellFormed : m.WellFormed := by
    have := h.wellFormed.free addr
    rwa [ran] at this
  have extents := DeviceMemory.extents_free ran
  obtain ⟨b, hb, rfl, fields⟩ := DeviceMemory.free_eq_true ran
  have next : m.next = r.memory.next := by rw [fields]
  have limit : m.capacity = r.memory.capacity := by rw [fields]
  have used : m.used = r.memory.used - b.bytes.length := by rw [fields]
  have total : r.memory.used = b.bytes.length + (m.extents.map Prod.snd).sum := by
    have taken : r.memory.extents.Perm ((b.start, b.bytes.length) :: m.extents) := by
      have := (AddressMap.perm_erase hb).map fun c => (c.start, c.bytes.length)
      rw [fields]
      exact this
    rw [h.used, (taken.map Prod.snd).sum_nat, List.map_cons, List.sum_cons]
  refine ⟨wellFormed, limit.trans h.limit, ?_, ?_, fun p hp => ?_, ?_, ?_, fun a ha => ?_, h.once,
    fun a v hv => ?_⟩
  · rw [extents, h.extents]
    rfl
  · rw [extents]
    exact h.gaps.filter _
  · rw [extents] at hp
    simp only [next]
    exact h.ahead p (List.mem_filter.1 hp).1
  · simp only [used]
    omega
  · have := h.room
    simp only [used]
    omega
  · simp only [next]
    exact h.handed a ha
  · rw [latest_freed]
    exact h.bytes a v (h.wellFormed.byte?_of_free ran hv)

theorem Recorded.written {addr : Nat} {content : List UInt8} {m : DeviceMemory}
    (h : r.Recorded capacity) (ran : r.memory.write addr content = .ok m) :
    Recorded ⟨m, .written addr content :: r.events⟩ capacity := by
  have layout := DeviceMemory.layout_write ran
  have extents := DeviceMemory.extents_of_layout layout
  have bytes := h.wellFormed.byte?_write ran
  simp only [DeviceMemory.layout, Prod.mk.injEq] at layout
  obtain ⟨next, limit, used, -⟩ := layout
  refine ⟨h.wellFormed.write ran, limit.trans h.limit, ?_, ?_, ?_, ?_, ?_, ?_, h.once,
    fun a v hv => ?_⟩
  · exact extents.trans h.extents
  · simp only [extents]
    exact h.gaps
  · simp only [extents, next]
    exact h.ahead
  · simp only [extents, used]
    exact h.used
  · simp only [used]
    exact h.room
  · simp only [next]
    exact h.handed
  · simp only [bytes] at hv
    rw [latest_written]
    split
    · rename_i hit
      rwa [if_pos hit] at hv
    · rename_i missed
      rw [if_neg missed] at hv
      exact h.bytes a v hv

/-- One call keeps the record. -/
theorem Recorded.perform (h : r.Recorded capacity) (c : MemoryCall) :
    (r.perform c).Recorded capacity := by
  by_cases failed : c.Fails r.memory
  · rw [perform_of_fails failed]
    exact h
  · cases c with
    | allocate size =>
        rcases ran : r.memory.allocate size with ⟨_ | addr, m⟩
        · exact absurd (by rw [MemoryCall.Fails, ran]) failed
        · simp only [MemoryRun.perform, ran]
          exact h.allocated ran
    | free addr =>
        rcases ran : r.memory.free addr with ⟨_ | _, m⟩
        · exact absurd (by rw [MemoryCall.Fails, ran]) failed
        · simp only [MemoryRun.perform, ran]
          exact h.freed ran
    | read addr size => exact h
    | write addr content =>
        rcases ran : r.memory.write addr content with e | m
        · exact absurd ⟨e, ran⟩ failed
        · simp only [MemoryRun.perform, ran]
          exact h.written ran

/-- The record of a run. -/
theorem recorded_after (base capacity : Nat) (calls : List MemoryCall) :
    (after base capacity calls).Recorded capacity := by
  have run (calls : List MemoryCall) {r : MemoryRun} (h : r.Recorded capacity) :
      (calls.foldl MemoryRun.perform r).Recorded capacity := by
    induction calls generalizing r with
    | nil => exact h
    | cons c calls ih => exact ih (h.perform c)
  exact run calls (recorded_empty base capacity)

end MemoryRun

namespace DeviceMemory

variable {m : DeviceMemory} {addr size : Nat} {content : List UInt8}

theorem allocate_eq_none_iff : (m.allocate size).1 = none ↔ m.capacity < m.used + max size 1 := by
  simp only [allocate]
  split
  · rename_i full
    exact iff_of_true rfl full
  · rename_i fits
    exact iff_of_false (Option.some_ne_none _) fits

/-- Bytes can be read exactly where a block holds them. -/
theorem WellFormed.read_isOk_iff (h : m.WellFormed) (some : 0 < size) :
    (∃ content, m.read addr size = .ok content) ↔ m.Encloses addr size := by
  constructor
  · rintro ⟨content, ran⟩
    rw [read, if_neg (Nat.ne_of_gt some)] at ran
    cases located : m.locate addr size with
    | error e =>
        rw [located] at ran
        cases ran
    | ok b => exact ⟨b, locate_eq_ok located⟩
  · rintro ⟨b, hb, lower, upper⟩
    rw [read, if_neg (Nat.ne_of_gt some), h.locate_eq hb lower upper some]
    exact ⟨_, rfl⟩

end DeviceMemory

namespace MemoryRun

/-- After any calls of an empty memory, its blocks, the highest first, are those that were allocated and
not freed, they are not empty and at least 64 bytes apart, and together they are as long as the memory
counts, which is never more than its capacity. No address was handed out twice. An allocation fails exactly
if it would exceed the capacity. Bytes can be read or written exactly where one block holds all of them.
Writing changes these bytes and no others, and reading gives what was put there last, by the allocation or
by a copy. A call that fails changes nothing. -/
theorem after_describes (base capacity : Nat) (calls : List MemoryCall) :
    ∃ m events, after base capacity calls = ⟨m, events⟩ ∧
      m.extents = live events ∧
      (∀ p ∈ m.extents, 0 < p.2) ∧
      m.extents.Pairwise (fun p q => q.1 + q.2 + 64 ≤ p.1) ∧
      m.used = (m.extents.map Prod.snd).sum ∧ m.used ≤ capacity ∧
      (handedOut events).Nodup ∧
      (∀ size, (m.allocate size).1 = none ↔ capacity < m.used + max size 1) ∧
      (∀ addr size, 0 < size →
        ((∃ content, m.read addr size = .ok content) ↔ m.Encloses addr size)) ∧
      (∀ addr content, content ≠ [] →
        ((∃ m', m.write addr content = .ok m') ↔ m.Encloses addr content.length)) ∧
      (∀ addr content m', m.write addr content = .ok m' →
        m'.layout = m.layout ∧
          ∀ a, m'.byte? a =
            if addr ≤ a ∧ a < addr + content.length then content[a - addr]? else m.byte? a) ∧
      (∀ addr size content, m.read addr size = .ok content →
        content.length = size ∧ ∀ i < size, content[i]? = latest events (addr + i)) ∧
      ∀ c : MemoryCall, c.Fails m → (after base capacity calls).perform c = ⟨m, events⟩ := by
  have h := recorded_after base capacity calls
  rcases same : after base capacity calls with ⟨m, events⟩
  rw [same] at h
  refine ⟨m, events, rfl, h.extents, fun p hp => ?_, h.gaps, h.used, h.room, h.once, fun size => ?_,
    fun addr size => h.wellFormed.read_isOk_iff, fun addr content => h.wellFormed.write_isOk_iff,
    fun addr content m' ran => ⟨DeviceMemory.layout_write ran, h.wellFormed.byte?_write ran⟩,
    fun addr size content ran => ?_, fun c failed => perform_of_fails failed⟩
  · obtain ⟨b, hb, rfl⟩ := DeviceMemory.mem_extents.1 hp
    exact h.wellFormed.nonempty b hb
  · rw [← h.limit]
    exact DeviceMemory.allocate_eq_none_iff
  · obtain ⟨length, bytes⟩ := h.wellFormed.read_eq_ok ran
    refine ⟨length, fun i hi => ?_⟩
    have inside : i < content.length := by omega
    have byte := bytes i hi
    rw [List.getElem?_eq_getElem inside] at byte ⊢
    exact (h.bytes _ _ byte).symm

end MemoryRun

end Offloading
