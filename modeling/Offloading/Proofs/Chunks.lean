import Offloading.Device.Staging
import Offloading.Proofs.Accelerator
/-!
# Chunks

What several chunks leave in a memory, byte by byte: the last chunk with a byte for an address decides.
As long as no two chunks want different bytes at one address, neither their order nor the joining of
neighbours matters.
-/

namespace Offloading

namespace Chunk

variable {c : Chunk} {chunks xs ys : List Chunk} {m m' : DeviceMemory} {a : Nat} {v w : UInt8}

/-- The byte that a chunk has for an address. -/
def byte? (c : Chunk) (addr : Nat) : Option UInt8 :=
  if c.target ≤ addr then c.content[addr - c.target]? else none

/-- The byte that is left at an address when chunks are stored one after the other. -/
def written : List Chunk → Nat → Option UInt8
  | [], _ => none
  | c :: rest, addr => (written rest addr).or (c.byte? addr)

/-- Some chunk has this byte for the address. -/
def Shows (chunks : List Chunk) (addr : Nat) (v : UInt8) : Prop :=
  ∃ c ∈ chunks, c.byte? addr = some v

/-- No two chunks have different bytes for an address. -/
def Consistent (chunks : List Chunk) : Prop :=
  ∀ addr v w, Shows chunks addr v → Shows chunks addr w → v = w

theorem byte?_eq_some_iff :
    c.byte? a = some v ↔ c.target ≤ a ∧ c.content[a - c.target]? = some v := by
  unfold byte?
  split
  · rename_i le
    exact ⟨fun h => ⟨le, h⟩, fun h => h.2⟩
  · rename_i gt
    exact ⟨fun h => (nomatch h), fun h => absurd h.1 gt⟩

theorem bounds_of_byte? (h : c.byte? a = some v) :
    c.target ≤ a ∧ a < c.target + c.content.length := by
  obtain ⟨le, hv⟩ := byte?_eq_some_iff.1 h
  obtain ⟨lt, -⟩ := List.getElem?_eq_some_iff.1 hv
  omega

theorem byte?_eq_none (h : ¬ (c.target ≤ a ∧ a < c.target + c.content.length)) :
    c.byte? a = none := by
  cases hb : c.byte? a with
  | none => rfl
  | some v => exact absurd (bounds_of_byte? hb) h

@[simp] theorem written_nil : written [] a = none := rfl

@[simp] theorem shows_cons : Shows (c :: chunks) a v ↔ c.byte? a = some v ∨ Shows chunks a v := by
  simp [Shows]

theorem written_append : written (xs ++ ys) a = (written ys a).or (written xs a) := by
  induction xs with
  | nil => simp
  | cons c rest ih => simp [written, ih, Option.or_assoc]

theorem shows_of_written (h : written chunks a = some v) : Shows chunks a v := by
  induction chunks with
  | nil => cases h
  | cons c rest ih =>
      rw [written, Option.or_eq_some_iff] at h
      rcases h with h | ⟨-, h⟩
      · exact shows_cons.2 (.inr (ih h))
      · exact shows_cons.2 (.inl h)

theorem written_isSome (h : Shows chunks a v) : (written chunks a).isSome := by
  induction chunks with
  | nil =>
      obtain ⟨c, hc, -⟩ := h
      cases hc
  | cons c rest ih =>
      rw [written, Option.isSome_or]
      rcases shows_cons.1 h with hv | h
      · rw [hv, Option.isSome_some, Bool.or_true]
      · rw [ih h, Bool.true_or]

theorem Consistent.written_eq_some_iff (h : Consistent chunks) :
    written chunks a = some v ↔ Shows chunks a v := by
  refine ⟨shows_of_written, fun hv => ?_⟩
  obtain ⟨w, hw⟩ := Option.isSome_iff_exists.1 (written_isSome hv)
  rw [hw, h a v w hv (shows_of_written hw)]

/-- Consistent chunks that show the same bytes leave the same bytes. -/
theorem Consistent.written_congr (h : Consistent xs) (same : ∀ a v, Shows ys a v ↔ Shows xs a v) :
    written ys a = written xs a := by
  have h' : Consistent ys := fun a v w hv hw => h a v w ((same a v).1 hv) ((same a w).1 hw)
  apply Option.ext fun v => ?_
  rw [h.written_eq_some_iff, h'.written_eq_some_iff, same]

/-! ## Storing chunks -/

theorem byte?_write (h : m.WellFormed) (hw : m.write c.target c.content = .ok m') (a : Nat) :
    m'.byte? a = (c.byte? a).or (m.byte? a) := by
  rw [h.byte?_write hw]
  by_cases inside : c.target ≤ a ∧ a < c.target + c.content.length
  · rw [if_pos inside, byte?, if_pos inside.1, List.getElem?_eq_getElem (by omega), Option.some_or]
  · rw [if_neg inside, byte?_eq_none inside, Option.none_or]

/-- Chunks that can be stored lie in blocks, and they change nothing but the bytes there. -/
theorem byte?_storeAll (h : m.WellFormed) (stored : Accelerator.storeAll m chunks = .ok m') (a : Nat) :
    m'.byte? a = (written chunks a).or (m.byte? a) ∧
      ((written chunks a).isSome → (m.byte? a).isSome) := by
  induction chunks generalizing m with
  | nil =>
      cases stored
      exact ⟨rfl, fun h => (nomatch h)⟩
  | cons c rest ih =>
      obtain ⟨n, hw, more⟩ := Accelerator.storeAll_cons.1 stored
      obtain ⟨bytes, inside⟩ := ih (h.write hw) more
      have here : (c.byte? a).isSome → (m.byte? a).isSome := by
        intro hc
        obtain ⟨v, hv⟩ := Option.isSome_iff_exists.1 hc
        obtain ⟨le, lt⟩ := bounds_of_byte? hv
        exact h.write_inside hw le lt
      rw [byte?_write h hw] at bytes inside
      rw [bytes, written, Option.or_assoc]
      refine ⟨rfl, fun some => ?_⟩
      rw [Option.isSome_or, Bool.or_eq_true] at some
      rcases some with rest | first
      · have := inside rest
        rw [Option.isSome_or, Bool.or_eq_true] at this
        exact this.elim here id
      · exact here first

end Chunk

/-! ## Batches -/

namespace StagedCopy

variable {copies : List StagedCopy} {a : Nat} {v : UInt8}

/-- The chunk that a staged copy sends. -/
def chunk (c : StagedCopy) : Chunk := ⟨c.target, c.content⟩

/-- A copy joined with the one that continues it has the bytes of both. -/
private theorem byte?_joined {c next : StagedCopy} (h : c.continuedBy next = true) :
    ({ c with content := c.content ++ next.content } : StagedCopy).chunk.byte? a = some v ↔
      c.chunk.byte? a = some v ∨ next.chunk.byte? a = some v := by
  have meets : c.target + c.content.length = next.target := by
    simp only [continuedBy, Bool.and_eq_true, beq_iff_eq] at h
    exact h.1
  simp only [Chunk.byte?_eq_some_iff, chunk]
  by_cases first : a < next.target
  · by_cases le : c.target ≤ a
    · rw [List.getElem?_append_left (by omega)]
      constructor
      · exact .inl
      · rintro (h | ⟨above, -⟩)
        · exact h
        · omega
    · constructor
      · intro h
        exact absurd h.1 le
      · rintro (h | ⟨above, -⟩)
        · exact absurd h.1 le
        · omega
  · rw [List.getElem?_append_right (by omega), Nat.sub_sub, meets]
    constructor
    · intro h
      exact .inr ⟨by omega, h.2⟩
    · rintro (⟨-, h⟩ | ⟨above, h⟩)
      · obtain ⟨lt, -⟩ := List.getElem?_eq_some_iff.1 h
        omega
      · exact ⟨by omega, h⟩

private theorem shows_go {c : StagedCopy} :
    Chunk.Shows ((coalesce.go c copies).map chunk) a v ↔
      Chunk.Shows ((c :: copies).map chunk) a v := by
  induction copies generalizing c with
  | nil => exact Iff.rfl
  | cons next rest ih =>
      rw [coalesce.go]
      split
      · rename_i joined
        simp only [ih, List.map_cons, Chunk.shows_cons, byte?_joined joined, or_assoc]
      · simp only [List.map_cons, Chunk.shows_cons, ih]

theorem shows_coalesce :
    Chunk.Shows ((coalesce copies).map chunk) a v ↔ Chunk.Shows (copies.map chunk) a v := by
  cases copies with
  | nil => exact Iff.rfl
  | cons c rest => exact shows_go

/-- Sorting and joining copies changes nothing of what they show. -/
theorem shows_chunks : Chunk.Shows (chunks copies) a v ↔ Chunk.Shows (copies.map chunk) a v := by
  change Chunk.Shows ((coalesce _).map chunk) a v ↔ _
  rw [shows_coalesce]
  simp [Chunk.Shows]

private theorem coalesce_go_of_apart {c : StagedCopy}
    (apart : (c :: copies).Pairwise fun c d => c.target + c.content.length < d.target) :
    coalesce.go c copies = c :: copies := by
  induction copies generalizing c with
  | nil => rfl
  | cons next rest ih =>
      obtain ⟨first, others⟩ := List.pairwise_cons.1 apart
      have gap := first next List.mem_cons_self
      have parted : c.continuedBy next = false := by
        rw [continuedBy, beq_eq_false_iff_ne.2 (Nat.ne_of_lt gap), Bool.false_and]
      rw [coalesce.go, parted, if_neg Bool.false_ne_true, ih others]

/-- Copies that come in order and with gaps on the device are sent as they are. -/
theorem chunks_of_apart
    (apart : copies.Pairwise fun c d => c.target + c.content.length < d.target) :
    chunks copies = copies.map chunk := by
  have sorted : copies.Pairwise fun c d => decide (c.target ≤ d.target) = true :=
    apart.imp fun gap => decide_eq_true (by omega)
  change (coalesce _).map chunk = _
  rw [List.mergeSort_of_pairwise sorted]
  cases copies with
  | nil => rfl
  | cons c rest => exact congrArg (List.map chunk) (coalesce_go_of_apart apart)

end StagedCopy

end Offloading
