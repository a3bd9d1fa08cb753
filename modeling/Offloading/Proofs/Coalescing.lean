import Mathlib
import Offloading.Proofs.Delivery
import Offloading.Proofs.Faultless
import Offloading.Proofs.Refusal
/-!
# Coalesced transfers

A batch of staged copies is sorted by device address and joined where copies continue each other. On a
memory that a device can have, a joined chunk never reaches from one block into another, so a batch is
stored exactly if each copy is, and then it leaves what the copies leave one by one.
-/

namespace Offloading

/-! ## Blocks with gaps -/

namespace DeviceMemory

variable {m m' : DeviceMemory} {addr size : Nat} {content : List UInt8} {chunks : List Chunk}

/-- A memory that the operations of a device make of an empty one. -/
inductive Reached : DeviceMemory → Prop where
  | empty (next capacity : Nat) : Reached { next, capacity }
  | allocate {m : DeviceMemory} (h : Reached m) (size : Nat) : Reached (m.allocate size).2
  | free {m : DeviceMemory} (h : Reached m) (addr : Nat) : Reached (m.free addr).2
  | write {m m' : DeviceMemory} {addr : Nat} {content : List UInt8} (h : Reached m)
      (ran : m.write addr content = .ok m') : Reached m'

/-- A block ends before the place where the next one begins. -/
def Gapped (m : DeviceMemory) : Prop :=
  ∀ p ∈ m.extents, ∀ q ∈ m.extents, p.1 < q.1 → p.1 + p.2 < q.1

/-- One live block holds all bytes of a section. -/
def Encloses (m : DeviceMemory) (addr size : Nat) : Prop :=
  ∃ b ∈ m.blocks, b.start ≤ addr ∧ addr + size ≤ b.start + b.bytes.length

theorem encloses_iff :
    m.Encloses addr size ↔ ∃ p ∈ m.extents, p.1 ≤ addr ∧ addr + size ≤ p.1 + p.2 := by
  constructor
  · rintro ⟨b, hb, inside⟩
    exact ⟨_, mem_extents.2 ⟨b, hb, rfl⟩, inside⟩
  · rintro ⟨p, hp, inside⟩
    obtain ⟨b, hb, rfl⟩ := mem_extents.1 hp
    exact ⟨b, hb, inside⟩

theorem extents_of_layout (h : m'.layout = m.layout) : m'.extents = m.extents :=
  congrArg (fun layout => layout.2.2.2) h

theorem encloses_congr (h : m'.layout = m.layout) : m'.Encloses addr size ↔ m.Encloses addr size := by
  rw [encloses_iff, encloses_iff, extents_of_layout h]

namespace Reached

theorem wellFormed (h : m.Reached) : m.WellFormed := by
  induction h with
  | empty next capacity =>
      constructor <;> intro b hb <;> exact absurd hb AddressMap.not_mem_empty
  | allocate _ size ih => exact ih.allocate size
  | free _ addr ih => exact ih.free addr
  | write _ ran ih => exact ih.write ran

theorem gapped (h : m.Reached) : m.Gapped := by
  induction h with
  | empty next capacity =>
      intro p hp
      obtain ⟨b, hb, -⟩ := mem_extents.1 hp
      exact absurd hb AddressMap.not_mem_empty
  | @allocate m reached size ih =>
      cases placed : m.allocate size with
      | mk addr? m' =>
          cases addr? with
          | none => rwa [allocate_eq_none placed]
          | some addr =>
              have below : ∀ p ∈ m.extents, p.1 + p.2 < m.next := by
                intro p hp
                obtain ⟨b, hb, rfl⟩ := mem_extents.1 hp
                exact reached.wellFormed.below b hb
              intro p hp q hq
              simp only [reached.wellFormed.extents_allocate placed, List.mem_cons] at hp hq
              rcases hp with rfl | hp
              · rcases hq with rfl | hq
                · simp
                · have := below q hq
                  simp only
                  omega
              · rcases hq with rfl | hq
                · exact fun _ => below p hp
                · exact ih p hp q hq
  | @free m _ addr ih =>
      cases freed : m.free addr with
      | mk found m' =>
          cases found with
          | false => rwa [free_eq_false freed]
          | true =>
              intro p hp q hq
              simp only [extents_free freed, List.mem_filter] at hp hq
              exact ih p hp.1 q hq.1
  | write _ ran ih => simpa only [Gapped, extents_of_layout (layout_write ran)] using ih

theorem run {α : Type} (h : m.Reached) (code : DeviceCode α) : (code.run m).memory.Reached := by
  induction code generalizing m with
  | done value => exact h
  | read addr size next ih => exact ih _ h
  | write addr content next ih =>
      cases ran : m.write addr content with
      | error e =>
          rw [DeviceCode.run, ran]
          exact ih _ h
      | ok m' =>
          rw [DeviceCode.run, ran]
          exact ih _ (h.write ran)
  | report line next ih => exact ih h

end Reached

/-- Bytes can be written exactly where a block holds them. -/
theorem WellFormed.write_isOk_iff (h : m.WellFormed) (some : content ≠ []) :
    (∃ m', m.write addr content = .ok m') ↔ m.Encloses addr content.length := by
  constructor
  · rintro ⟨m', ran⟩
    exact write_block ran some
  · rintro ⟨b, hb, lower, upper⟩
    have located := h.locate_eq hb lower upper (List.length_pos_iff.2 some)
    rw [DeviceMemory.write, if_neg (by simpa using some), located]
    exact ⟨_, rfl⟩

theorem WellFormed.storeAll (h : m.WellFormed) (stored : Accelerator.storeAll m chunks = .ok m') :
    m'.WellFormed := by
  induction chunks generalizing m with
  | nil =>
      cases stored
      exact h
  | cons c rest ih =>
      obtain ⟨n, ran, more⟩ := Accelerator.storeAll_cons.1 stored
      exact ih (h.write ran) more

theorem layout_storeAll (stored : Accelerator.storeAll m chunks = .ok m') : m'.layout = m.layout := by
  induction chunks generalizing m with
  | nil =>
      cases stored
      rfl
  | cons c rest ih =>
      obtain ⟨n, ran, more⟩ := Accelerator.storeAll_cons.1 stored
      rw [ih more, layout_write ran]

/-- Chunks can be stored one after the other exactly if a block holds each of them. -/
theorem WellFormed.storeAll_isOk_iff (h : m.WellFormed) (some : ∀ c ∈ chunks, c.content ≠ []) :
    (∃ m', Accelerator.storeAll m chunks = .ok m') ↔
      ∀ c ∈ chunks, m.Encloses c.target c.content.length := by
  induction chunks generalizing m with
  | nil => simp [Accelerator.storeAll]
  | cons c rest ih =>
      obtain ⟨here, others⟩ := List.forall_mem_cons.1 some
      rw [List.forall_mem_cons, ← h.write_isOk_iff here]
      constructor
      · rintro ⟨m', stored⟩
        obtain ⟨n, ran, more⟩ := Accelerator.storeAll_cons.1 stored
        have inside := (ih (h.write ran) others).1 ⟨m', more⟩
        exact ⟨⟨n, ran⟩, fun d hd => (encloses_congr (layout_write ran)).1 (inside d hd)⟩
      · rintro ⟨⟨n, ran⟩, inside⟩
        obtain ⟨m', more⟩ := (ih (h.write ran) others).2 fun d hd =>
          (encloses_congr (layout_write ran)).2 (inside d hd)
        exact ⟨m', Accelerator.storeAll_cons.2 ⟨n, ran, more⟩⟩

end DeviceMemory

namespace Accelerator

variable {a a' : Accelerator} {unit : Int} {m m' : DeviceMemory}

/-- All memories are such that device operations make them. -/
def Reached (a : Accelerator) : Prop := ∀ m ∈ a.memories, m.Reached

theorem reached_ofDevices (n capacity : Nat) : (ofDevices n capacity).Reached := by
  intro m hm
  obtain ⟨i, -, rfl⟩ := List.mem_map.1 hm
  exact .empty _ _

theorem Reached.memory (h : a.Reached) (hm : a.memory? unit = some m) : m.Reached :=
  h m (mem_of_memory? hm)

theorem Reached.withMemory (h : a.Reached) (hm : m.Reached) : (a.withMemory unit m).Reached := by
  intro n hn
  rcases List.mem_or_eq_of_mem_set hn with hn | rfl
  · exact h n hn
  · exact hm

private theorem reached_of_memories (same : a.SameMemories a') : Kept Reached a a' :=
  fun h m hm => h m ((Prod.mk.inj same).1 ▸ hm)

private theorem reached_quiet (quiet : a.Quiet a') : Kept Reached a a' :=
  reached_of_memories quiet.sameMemories

theorem overlooks_reached : Overlooks unit (Kept Reached) := overlooks_of_memories reached_of_memories

private theorem reached_write {addr : Nat} {content : List UInt8} (hm : a.memory? unit = some m)
    (ran : m.write addr content = .ok m') : Kept Reached a (a.withMemory unit m') :=
  fun h => h.withMemory ((h.memory hm).write ran)

theorem reached_submit {c : Chunk} : Along (Kept Reached) (submit unit c) :=
  (notes_submit reached_quiet reached_write).along overlooks_reached

theorem reached_submitBatch {chunks : List Chunk} : Along (Kept Reached) (submitBatch unit chunks) :=
  (notes_submitBatch reached_quiet reached_write).along overlooks_reached

theorem reached_run {entry tripCount : Nat} {arguments : List Nat} {offsets : List Int}
    {kind : LaunchKind} : Along (Kept Reached) (run unit entry arguments offsets kind tripCount) :=
  (notes_run reached_quiet fun code hm h => h.withMemory ((h.memory hm).run code)).along
    overlooks_reached

theorem reached_allocate {size : Nat} : Along (Kept Reached) (allocate unit size) := by
  refine along_attempt_bind reached_quiet (along_memory_bind fun a m hm => ?_)
  refine Along.bind_at (x := setMemory _ _) ?_ fun _ => ?_
  · exact fun h => h.withMemory ((h.memory hm).allocate size)
  · split
    · exact Along.pure
    · exact Along.throw

theorem reached_delete {addr : Nat} : Along (Kept Reached) (delete unit addr) := by
  refine Along.tryCatch ?_ fun _ => Along.bind (Along.modify fun _ h => h) fun _ => Along.throw
  refine Along.bind (along_note overlooks_reached) fun _ => ?_
  refine along_attempt_bind reached_quiet (along_memory_bind fun a m hm => ?_)
  refine Along.bind_at (x := setMemory _ _) ?_ fun _ => Along.ite Along.pure Along.throw
  exact fun h => h.withMemory ((h.memory hm).free addr)

theorem reached_load {image : Image} : Along (Kept Reached) (load unit image) := by
  refine along_attempt_bind reached_quiet (Along.mapM (fun s => Along.ite ?_ ?_) image)
  · refine along_memory_bind fun a m hm => ?_
    refine Along.bind_at (x := setMemory _ _) ?_ fun _ => ?_
    · exact fun h => h.withMemory ((h.memory hm).allocate s.size)
    · split
      · exact (along_note overlooks_reached).bind fun _ => Along.pure
      · exact Along.throw
  · refine Along.get.bind fun a => ?_
    split
    · exact Along.pure
    · exact Along.throw

end Accelerator

/-! ## Joined copies -/

namespace StagedCopy

variable {copies : List StagedCopy} {c next : StagedCopy} {m : DeviceMemory}

/-- Joined copies lie in a block exactly if both of them do, since the next block does not begin where a
block ends. -/
theorem encloses_joined (gapped : m.Gapped) (some : c.content ≠ [])
    (some' : next.content ≠ []) (joins : c.continuedBy next = true) :
    m.Encloses c.target (c.content ++ next.content).length ↔
      m.Encloses c.target c.content.length ∧ m.Encloses next.target next.content.length := by
  have meets : c.target + c.content.length = next.target := by
    simp only [continuedBy, Bool.and_eq_true, beq_iff_eq] at joins
    exact joins.1
  have positive := List.length_pos_iff.2 some
  have positive' := List.length_pos_iff.2 some'
  rw [List.length_append]
  constructor
  · rintro ⟨b, hb, lower, upper⟩
    exact ⟨⟨b, hb, lower, by omega⟩, ⟨b, hb, by omega, by omega⟩⟩
  · rintro ⟨⟨b, hb, lower, upper⟩, ⟨d, hd, lower', upper'⟩⟩
    have extent := DeviceMemory.mem_extents.2 ⟨b, hb, rfl⟩
    have extent' := DeviceMemory.mem_extents.2 ⟨d, hd, rfl⟩
    rcases Nat.lt_trichotomy b.start d.start with before | same | after
    · have := gapped _ extent _ extent' before
      simp only at this
      omega
    · obtain rfl := AddressMap.eq_of_address_eq hb hd same
      exact ⟨b, hb, lower, by omega⟩
    · have := gapped _ extent' _ extent after
      simp only at this
      omega

private theorem encloses_go (gapped : m.Gapped)
    (some : ∀ d ∈ c :: copies, d.content ≠ []) :
    (∀ d ∈ coalesce.go c copies, m.Encloses d.target d.content.length) ↔
      ∀ d ∈ c :: copies, m.Encloses d.target d.content.length := by
  induction copies generalizing c with
  | nil => exact Iff.rfl
  | cons next rest ih =>
      obtain ⟨first, second, others⟩ := by simpa only [List.forall_mem_cons] using some
      rw [coalesce.go]
      split
      · rename_i joins
        rw [ih (by simpa [first] using others), List.forall_mem_cons, List.forall_mem_cons,
          List.forall_mem_cons, encloses_joined gapped first second joins, and_assoc]
      · rw [List.forall_mem_cons, ih (List.forall_mem_cons.2 ⟨second, others⟩),
          List.forall_mem_cons (a := c)]

private theorem content_go (some : ∀ d ∈ c :: copies, d.content ≠ []) :
    ∀ d ∈ coalesce.go c copies, d.content ≠ [] := by
  induction copies generalizing c with
  | nil => exact some
  | cons next rest ih =>
      obtain ⟨first, second, others⟩ := by simpa only [List.forall_mem_cons] using some
      rw [coalesce.go]
      split
      · exact ih (by simpa [first] using others)
      · exact List.forall_mem_cons.2 ⟨first, ih (List.forall_mem_cons.2 ⟨second, others⟩)⟩

private theorem length_go : (coalesce.go c copies).length ≤ copies.length + 1 := by
  induction copies generalizing c with
  | nil => simp [coalesce.go]
  | cons next rest ih =>
      rw [coalesce.go]
      split
      · exact Nat.le_succ_of_le ih
      · exact Nat.succ_le_succ ih

private theorem bytes_go : ((coalesce.go c copies).map fun d => d.content.length).sum =
    c.content.length + (copies.map fun d => d.content.length).sum := by
  induction copies generalizing c with
  | nil => simp [coalesce.go]
  | cons next rest ih =>
      rw [coalesce.go]
      split
      · rw [ih]
        simp only [List.length_append, List.map_cons, List.sum_cons]
        omega
      · simp only [List.map_cons, List.sum_cons, ih]

theorem encloses_coalesce (gapped : m.Gapped) (some : ∀ c ∈ copies, c.content ≠ []) :
    (∀ d ∈ coalesce copies, m.Encloses d.target d.content.length) ↔
      ∀ c ∈ copies, m.Encloses c.target c.content.length := by
  cases copies with
  | nil => exact Iff.rfl
  | cons c rest => exact encloses_go gapped some

theorem content_coalesce (some : ∀ c ∈ copies, c.content ≠ []) :
    ∀ d ∈ coalesce copies, d.content ≠ [] := by
  cases copies with
  | nil => exact some
  | cons c rest => exact content_go some

theorem length_coalesce : (coalesce copies).length ≤ copies.length := by
  cases copies with
  | nil => exact Nat.le_refl _
  | cons c rest => exact length_go

theorem bytes_coalesce : ((coalesce copies).map fun d => d.content.length).sum =
    (copies.map fun d => d.content.length).sum := by
  cases copies with
  | nil => rfl
  | cons c rest => exact bytes_go

/-! ## Batches of copies -/

/-- The copies by device address. -/
def sorted (copies : List StagedCopy) : List StagedCopy :=
  copies.mergeSort fun a b => a.target ≤ b.target

theorem sorted_perm : (sorted copies).Perm copies := List.mergeSort_perm _ _

theorem chunks_eq : chunks copies = (coalesce (sorted copies)).map chunk := rfl

private theorem content_sorted (some : ∀ c ∈ copies, c.content ≠ []) :
    ∀ c ∈ sorted copies, c.content ≠ [] :=
  fun c hc => some c (sorted_perm.mem_iff.1 hc)

/-- The chunks of a batch lie in blocks exactly if the copies do. -/
theorem encloses_chunks (gapped : m.Gapped) (some : ∀ c ∈ copies, c.content ≠ []) :
    (∀ d ∈ chunks copies, m.Encloses d.target d.content.length) ↔
      ∀ c ∈ copies, m.Encloses c.target c.content.length := by
  rw [chunks_eq, List.forall_mem_map]
  refine (encloses_coalesce gapped (content_sorted some)).trans ?_
  simp only [sorted_perm.mem_iff]

theorem content_chunks (some : ∀ c ∈ copies, c.content ≠ []) : ∀ d ∈ chunks copies, d.content ≠ [] := by
  rw [chunks_eq, List.forall_mem_map]
  exact content_coalesce (content_sorted some)

theorem length_chunks : (chunks copies).length ≤ copies.length := by
  rw [chunks_eq, List.length_map]
  exact Nat.le_trans length_coalesce (Nat.le_of_eq sorted_perm.length_eq)

theorem totalLength_map (copies : List StagedCopy) :
    Chunk.totalLength (copies.map chunk) = (copies.map fun c => c.content.length).sum := by
  induction copies with
  | nil => rfl
  | cons c rest ih =>
      rw [List.map_cons, Chunk.totalLength, ih, List.map_cons, List.sum_cons]
      rfl

theorem totalLength_chunks (copies : List StagedCopy) :
    Chunk.totalLength (chunks copies) = (copies.map fun c => c.content.length).sum := by
  calc Chunk.totalLength (chunks copies)
      = ((coalesce (sorted copies)).map fun c => c.content.length).sum := totalLength_map _
    _ = ((sorted copies).map fun c => c.content.length).sum := bytes_coalesce
    _ = (copies.map fun c => c.content.length).sum := (sorted_perm.map _).sum_nat

/-- A batch and its copies leave the same memory. -/
theorem storeAll_chunks {m₁ m₂ : DeviceMemory} (wf : m.WellFormed)
    (consistent : Chunk.Consistent (copies.map chunk))
    (batch : Accelerator.storeAll m (chunks copies) = .ok m₁)
    (each : Accelerator.storeAll m (copies.map chunk) = .ok m₂) : m₁ = m₂ := by
  apply (wf.storeAll batch).eq_of_byte? (wf.storeAll each)
  · rw [DeviceMemory.layout_storeAll batch, DeviceMemory.layout_storeAll each]
  · intro a
    rw [(Chunk.byte?_storeAll wf batch a).1, (Chunk.byte?_storeAll wf each a).1,
      consistent.written_congr fun _ _ => shows_chunks]

end StagedCopy

/-! ## Batches as a whole and chunk by chunk -/

namespace Accelerator

variable {a b : Accelerator} {unit : Int} {m : DeviceMemory} {c : Chunk}

/-- The accelerator, serving batches as a whole or chunk by chunk. -/
def serving (a : Accelerator) (whole : Bool) : Accelerator := { a with wholeBatches := whole }

/-- No call fails on either accelerator, and their devices have the same memories. -/
structure Alike (a b : Accelerator) : Prop where
  schedule : ∀ call n, a.schedule call n = false
  schedule' : ∀ call n, b.schedule call n = false
  memories : b.memories = a.memories

theorem exec_store : exec (store unit c) a =
    match a.memory? unit with
    | none => (.error (.noSuchDevice unit), a)
    | some m =>
      match m.write c.target c.content with
      | .ok m' => (.ok (), a.withMemory unit m')
      | .error e => (.error (.access e), a) := by
  unfold store
  cases found : a.memory? unit with
  | none => exact exec_memory_bind_none found
  | some m =>
      rw [exec_memory_bind found]
      dsimp only
      cases m.write c.target c.content with
      | ok m' => rfl
      | error e => rfl

theorem exec_attempt_of_faultless {α : Type} {call : CallKind} {x : AcceleratorM α}
    (faultless : ∀ call n, a.schedule call n = false) :
    exec (attempt call >>= fun _ => x) a = exec x (a.counted call) := by
  rw [exec_attempt_bind, faultless, if_neg Bool.false_ne_true]

theorem Alike.step (h : Alike a b) (unit : Int) (c : Chunk) :
    (exec (send unit c) b).1 = (exec (store unit c) a).1 ∧
      Alike (exec (store unit c) a).2 (exec (send unit c) b).2 := by
  have found : (b.counted .submit).memory? unit = a.memory? unit :=
    memory?_congr h.memories
  rw [send, exec_attempt_of_faultless h.schedule', exec_store, exec_store, found]
  cases a.memory? unit with
  | none => exact ⟨rfl, h.schedule, h.schedule', h.memories⟩
  | some m =>
      dsimp only
      cases m.write c.target c.content with
      | error e => exact ⟨rfl, h.schedule, h.schedule', h.memories⟩
      | ok m' => exact ⟨rfl, h.schedule, h.schedule', congrArg (·.set unit.toNat m') h.memories⟩

theorem Alike.stores (h : Alike a b) (unit : Int) (chunks : List Chunk) :
    (exec (chunks.forM (send unit)) b).1 = (exec (chunks.forM (store unit)) a).1 ∧
      Alike (exec (chunks.forM (store unit)) a).2 (exec (chunks.forM (send unit)) b).2 := by
  induction chunks generalizing a b with
  | nil => exact ⟨rfl, h⟩
  | cons c rest ih =>
      obtain ⟨result, next⟩ := h.step unit c
      change (exec (send unit c >>= fun _ => rest.forM (send unit)) b).1 =
        (exec (store unit c >>= fun _ => rest.forM (store unit)) a).1 ∧
        Alike (exec (store unit c >>= fun _ => rest.forM (store unit)) a).2
          (exec (send unit c >>= fun _ => rest.forM (send unit)) b).2
      rw [exec_bind, exec_bind]
      rcases first : exec (store unit c) a with ⟨_ | _, a'⟩ <;>
        rcases second : exec (send unit c) b with ⟨_ | _, b'⟩ <;>
        rw [first, second] at result next
      · exact ⟨result, next⟩
      · cases result
      · cases result
      · exact ih next

/-- Remembering what was done changes neither how it ends nor the memories. -/
theorem exec_noting {α : Type} {service : Service} {x : AcceleratorM α} :
    (exec (noting unit service x) a).1 = (exec x a).1 ∧
      (exec (noting unit service x) a).2.memories = (exec x a).2.memories := by
  rw [noting, exec_bind]
  rcases exec x a with ⟨_ | _, _⟩ <;> exact ⟨rfl, rfl⟩

/-- On a device that exists, a batch that is served chunk by chunk ends like one that is served as a whole,
and leaves the same memories, also where a chunk cannot be stored. -/
theorem submitBatch_serving (faultless : ∀ call n, a.schedule call n = false)
    (found : a.memory? unit = some m) (chunks : List Chunk) :
    (exec (submitBatch unit chunks) (a.serving false)).1 =
        (exec (submitBatch unit chunks) (a.serving true)).1 ∧
      (exec (submitBatch unit chunks) (a.serving false)).2.memories =
        (exec (submitBatch unit chunks) (a.serving true)).2.memories := by
  let started : Accelerator := (a.serving true).counted .batch
  let stores : AcceleratorM Unit := chunks.forM (store unit)
  let counting : AcceleratorM Unit := modify fun a => { a with batches := a.batches + 1 }
  have alike : Alike started (a.serving false) := ⟨faultless, faultless, rfl⟩
  obtain ⟨result, ends⟩ := alike.stores unit chunks
  have counted : (exec (stores >>= fun _ => counting) started).1 = (exec stores started).1 ∧
      (exec (stores >>= fun _ => counting) started).2.memories = (exec stores started).2.memories := by
    rw [exec_bind]
    rcases exec stores started with ⟨_ | _, _⟩ <;> exact ⟨rfl, rfl⟩
  have whole : exec (attempt .batch >>= fun _ => memory unit >>= fun _ => stores >>= fun _ => counting)
      (a.serving true) = exec (stores >>= fun _ => counting) started := by
    rw [exec_attempt_of_faultless (a := a.serving true) faultless]
    exact exec_memory_bind (a := (a.serving true).counted .batch) found
  unfold submitBatch
  rw [exec_noting.1, exec_noting.1, exec_noting.2, exec_noting.2, exec_get_bind, exec_get_bind]
  change (exec (chunks.forM (send unit)) (a.serving false)).1 = (exec (attempt .batch >>= fun _ =>
      memory unit >>= fun _ => stores >>= fun _ => counting) (a.serving true)).1 ∧
    (exec (chunks.forM (send unit)) (a.serving false)).2.memories = (exec (attempt .batch >>= fun _ =>
      memory unit >>= fun _ => stores >>= fun _ => counting) (a.serving true)).2.memories
  rw [whole, counted.1, counted.2]
  exact ⟨result, ends.memories⟩

end Accelerator

/-! ## Queues -/

/-- A queue as regions fill and empty it. -/
inductive TransferQueue.Reached : TransferQueue → Prop where
  | empty : Reached {}
  | stage {q : TransferQueue} (h : Reached q) (target : Nat) (content : List UInt8) :
      Reached (q.stage target content)
  | suspend {q : TransferQueue} (h : Reached q) (p : PendingPatch) : Reached (q.suspend p)
  | withoutCopies {q : TransferQueue} (h : Reached q) : Reached q.withoutCopies
  | withoutPatches {q : TransferQueue} (h : Reached q) : Reached q.withoutPatches

theorem TransferQueue.Reached.content {q : TransferQueue} (h : q.Reached) :
    ∀ c ∈ q.copies, c.content ≠ [] := by
  induction h with
  | empty =>
      intro c hc
      cases hc
  | @stage q _ target content ih =>
      rw [TransferQueue.stage]
      split
      · exact ih
      · rename_i some
        intro c hc
        rcases List.mem_append.1 hc with old | new
        · exact ih c old
        · rw [List.mem_singleton] at new
          subst new
          simpa using some
  | suspend _ _ ih => exact ih
  | withoutCopies _ _ =>
      intro c hc
      cases hc
  | withoutPatches _ ih => exact ih

namespace Device

open DeviceM

variable {kernels : List Kernel} {l l' : Link} {m : DeviceMemory} {chunks : List Chunk}
  {copies : List StagedCopy} {summary : BatchSummary}

/-- Without faults, a batch is sent exactly if its chunks can be stored. -/
theorem submitBatch_isOk_iff (serves : l.accelerator.Serves kernels l.device.unit m) :
    (∃ summary l', Returns (submitBatch chunks) l summary l') ↔
      ∃ m', Accelerator.storeAll m chunks = .ok m' := by
  constructor
  · rintro ⟨summary, l', ran⟩
    rcases returns_submitBatch ran with ⟨rfl, -⟩ | ⟨n, m', found, stored, -⟩
    · exact ⟨m, rfl⟩
    · rw [Link.memory?, serves.memory, Option.some.injEq] at found
      subst found
      exact ⟨m', stored⟩
  · rintro ⟨m', stored⟩
    obtain ⟨b, ran, -⟩ := Accelerator.attains_submitBatch serves stored
    let device : Device := { l.device with
      transfers := l.device.transfers.recordBatch chunks.length (Chunk.totalLength chunks) }
    refine ⟨⟨chunks.length, Chunk.totalLength chunks⟩, ⟨device, b⟩, ?_⟩
    unfold submitBatch
    rw [returns_device_bind]
    exact returns_bind.2 ⟨(), _, lifts_call.returns.2 ⟨b, ran, rfl⟩,
      returns_bind.2 ⟨(), _, returns_count.2 rfl, returns_pure.2 ⟨rfl, rfl⟩⟩⟩

theorem summary_submitBatch (ran : Returns (submitBatch chunks) l summary l') :
    summary = ⟨chunks.length, Chunk.totalLength chunks⟩ := by
  unfold submitBatch at ran
  rw [returns_device_bind] at ran
  obtain ⟨_, _, -, ran⟩ := returns_bind.1 ran
  obtain ⟨_, _, -, ran⟩ := returns_bind.1 ran
  exact (returns_pure.1 ran).1

/-- Without faults, copies that can be stored in their order are sent one by one. -/
theorem returns_submits (serves : l.accelerator.Serves kernels l.device.unit m)
    (some : ∀ c ∈ copies, c.content ≠ []) {m' : DeviceMemory}
    (stored : Accelerator.storeAll m (copies.map StagedCopy.chunk) = .ok m') :
    ∃ l', Returns (copies.forM fun c => submit c.target c.content) l () l' ∧ l.Confined l' ∧
      l'.memory? = .some m' := by
  induction copies generalizing l m with
  | nil =>
      cases stored
      exact ⟨l, rfl, Lasting.refl l, serves.memory⟩
  | cons c rest ih =>
      obtain ⟨first, others⟩ := List.forall_mem_cons.1 some
      obtain ⟨n, written, more⟩ := Accelerator.storeAll_cons.1 stored
      obtain ⟨b, ran, next⟩ := Accelerator.attains_submit (c := c.chunk) serves written
      let device : Device := { l.device with
        transfers := l.device.transfers.recordSubmission c.content.length }
      have sent : Returns (submit c.target c.content) l () ⟨device, b⟩ := by
        rw [submit, if_neg (by simpa using first), returns_device_bind]
        exact returns_bind.2 ⟨(), _, lifts_call.returns.2 ⟨b, ran, rfl⟩, returns_count.2 rfl⟩
      obtain ⟨l', ran', confined, memory⟩ := ih (l := ⟨device, b⟩) next others more
      refine ⟨l', returns_forM_cons.2 ⟨_, sent, ran'⟩, Lasting.trans ?_ confined, memory⟩
      rcases returns_submit sent with ⟨empty, -⟩ | ⟨_, _, found, -, wrote⟩
      · exact absurd empty first
      · exact wrote.confined found

/-- Without faults, staged copies are sent exactly if each of them lies in a block. -/
theorem sendCopies_isOk_iff (serves : l.accelerator.Serves kernels l.device.unit m)
    (reached : m.Reached) (some : ∀ c ∈ copies, c.content ≠ []) :
    (∃ summary l', Returns (sendCopies copies) l summary l') ↔
      ∀ c ∈ copies, m.Encloses c.target c.content.length := by
  cases copies with
  | nil => exact iff_of_true ⟨_, l, rfl⟩ (fun _ hc => nomatch hc)
  | cons c rest =>
      rw [sendCopies, if_neg (by simp), submitBatch_isOk_iff serves,
        reached.wellFormed.storeAll_isOk_iff (StagedCopy.content_chunks some)]
      exact StagedCopy.encloses_chunks reached.gapped some

/-- Staged copies that were sent as a batch leave what they leave when they are sent one by one. -/
theorem returns_sendCopies (serves : l.accelerator.Serves kernels l.device.unit m)
    (reached : m.Reached) (some : ∀ c ∈ copies, c.content ≠ [])
    (consistent : Chunk.Consistent (copies.map StagedCopy.chunk))
    (ran : Returns (sendCopies copies) l summary l') :
    (∃ l₁, Returns (copies.forM fun c => submit c.target c.content) l () l₁ ∧
        l'.accelerator.memories = l₁.accelerator.memories) ∧
      summary.bytes = (copies.map fun c => c.content.length).sum ∧
      summary.chunks ≤ copies.length := by
  have inside := (sendCopies_isOk_iff serves reached some).1 ⟨_, _, ran⟩
  cases copies with
  | nil =>
      obtain ⟨rfl, rfl⟩ := returns_pure.1 ran
      exact ⟨⟨l', rfl, rfl⟩, rfl, Nat.le_refl _⟩
  | cons c rest =>
      rw [sendCopies, if_neg (by simp)] at ran
      have total := summary_submitBatch ran
      rcases returns_submitBatch ran with ⟨none, -⟩ | ⟨n, m₁, found, batch, wrote⟩
      · -- a copy that was staged is in some chunk
        have bytes := StagedCopy.totalLength_chunks (c :: rest)
        have positive := List.length_pos_iff.2 (some c List.mem_cons_self)
        rw [none, Chunk.totalLength, List.map_cons, List.sum_cons] at bytes
        omega
      · have same : n = m := by
          rw [Link.memory?, serves.memory, Option.some.injEq] at found
          exact found.symm
        subst same
        have each : ∀ d ∈ (c :: rest).map StagedCopy.chunk, d.content ≠ [] := by
          rw [List.forall_mem_map]
          exact some
        obtain ⟨m₂, stored⟩ := (reached.wellFormed.storeAll_isOk_iff each).2 (by
          rw [List.forall_mem_map]
          exact inside)
        obtain ⟨l₁, sent, confined, memory⟩ := returns_submits serves some stored
        refine ⟨⟨l₁, sent, (wrote.confined found).unique confined ?_⟩, ?_, ?_⟩
        · rw [wrote.memory? found, memory,
            StagedCopy.storeAll_chunks reached.wellFormed consistent batch stored]
        · rw [total]
          exact StagedCopy.totalLength_chunks _
        · rw [total]
          exact StagedCopy.length_chunks

end Device

namespace TransferM

variable {a a' : Activation} {kernels : List Kernel} {m : DeviceMemory} {summary : BatchSummary}

theorem returns_sendCopies_iff : Returns sendCopies a summary a' ↔
    ∃ l, Returns (Device.sendCopies a.queue.copies) a.link summary l ∧
      a' = ⟨l, a.queue.withoutCopies⟩ :=
  lifts_onDevice.returns (t := { a with queue := a.queue.withoutCopies })

/-- A batch of staged copies does what the copies do one by one: on a memory that a device can have and
without faults it is sent exactly if each copy lies in one block, and then it leaves the same memories,
counts the bytes of all copies in no more chunks than copies, and leaves no copy. Whether the accelerator
serves a batch as a whole or chunk by chunk makes no difference on a device that exists, whatever the
chunks. -/
theorem sendCopies_coalesced (serves : a.link.accelerator.Serves kernels a.link.device.unit m)
    (reached : m.Reached) (queue : a.queue.Reached)
    (consistent : Chunk.Consistent (a.queue.copies.map StagedCopy.chunk)) :
    ((∃ summary a', Returns sendCopies a summary a') ↔
        ∀ c ∈ a.queue.copies, m.Encloses c.target c.content.length) ∧
      (∀ summary a', Returns sendCopies a summary a' →
        (∃ l, Returns (a.queue.copies.forM fun c => Device.submit c.target c.content) a.link () l ∧
          a'.link.accelerator.memories = l.accelerator.memories) ∧
        summary.bytes = (a.queue.copies.map fun c => c.content.length).sum ∧
        summary.chunks ≤ a.queue.copies.length ∧
        a'.queue.copies = []) ∧
      ∀ unit m', a.link.accelerator.memory? unit = some m' → ∀ chunks,
        (exec (Accelerator.submitBatch unit chunks) (a.link.accelerator.serving false)).1 =
            (exec (Accelerator.submitBatch unit chunks) (a.link.accelerator.serving true)).1 ∧
          (exec (Accelerator.submitBatch unit chunks) (a.link.accelerator.serving false)).2.memories =
            (exec (Accelerator.submitBatch unit chunks) (a.link.accelerator.serving true)).2.memories := by
  refine ⟨?_, fun summary a' ran => ?_, fun unit m' found =>
    Accelerator.submitBatch_serving serves.schedule found⟩
  · rw [← Device.sendCopies_isOk_iff serves reached queue.content]
    constructor
    · rintro ⟨summary, a', ran⟩
      obtain ⟨l, ran, -⟩ := returns_sendCopies_iff.1 ran
      exact ⟨summary, l, ran⟩
    · rintro ⟨summary, l, ran⟩
      exact ⟨summary, _, returns_sendCopies_iff.2 ⟨l, ran, rfl⟩⟩
  · obtain ⟨l, sent, rfl⟩ := returns_sendCopies_iff.1 ran
    obtain ⟨memories, bytes, count⟩ :=
      Device.returns_sendCopies serves reached queue.content consistent sent
    exact ⟨memories, bytes, count, rfl⟩

/-- A device with a block of 16 bytes. -/
private def sevenMemory : DeviceMemory := (DeviceMemory.allocate { next := 64, capacity := 1024 } 16).2

/-- Copies of sevens, of which the second one continues the first one and the third one overlaps both. -/
private def sevens : Activation where
  link :=
    { device := { id := 0, unit := 0 }
      accelerator := { memories := [sevenMemory], initialised := [true] } }
  queue := ((({} : TransferQueue).stage 68 [7, 7]).stage 70 [7, 7]).stage 69 [7, 7]

theorem sendCopies_sevens : ∃ summary a', Returns sendCopies sevens summary a' ∧ summary.bytes = 6 := by
  have seven : ∀ addr v, Chunk.Shows (sevens.queue.copies.map StagedCopy.chunk) addr v → v = 7 := by
    rintro addr v ⟨c, hc, hv⟩
    obtain ⟨-, hv⟩ := Chunk.byte?_eq_some_iff.1 hv
    have all : ∀ c ∈ sevens.queue.copies.map StagedCopy.chunk, c.content = [7, 7] := by decide
    simpa [all c hc] using List.mem_of_getElem? hv
  have serves : sevens.link.accelerator.Serves [] 0 sevenMemory :=
    ⟨fun _ _ => rfl, rfl, Accelerator.memory?_ofNat 0⟩
  have coalesced := sendCopies_coalesced (a := sevens) serves ((DeviceMemory.Reached.empty 64 1024).allocate 16)
    (((TransferQueue.Reached.empty.stage 68 [7, 7]).stage 70 [7, 7]).stage 69 [7, 7])
    fun addr v w hv hw => (seven addr v hv).trans (seven addr w hw).symm
  have inside : ∀ c ∈ sevens.queue.copies, sevenMemory.Encloses c.target c.content.length := by
    intro c hc
    refine DeviceMemory.encloses_iff.2 ⟨(64, 16), by decide, ?_⟩
    revert c
    decide
  obtain ⟨summary, a', ran⟩ := coalesced.1.2 inside
  exact ⟨summary, a', ran, (coalesced.2.1 summary a' ran).2.1⟩

end TransferM

end Offloading
