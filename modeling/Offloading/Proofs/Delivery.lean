import Offloading.Proofs.Chunks
import Offloading.Proofs.Enter
/-!
# Delivery

What sending copies and pointer patches leaves on a device, at once or collected in a queue first. An
activation that has its parcels *settled* holds for each address what the last patch or else the
copies want there, whichever strategy it followed.
-/

namespace Offloading

/-! ## Bytes of a device -/

namespace Link

variable {l l' l₁ l₂ start : Link} {m m' : DeviceMemory} {chunks : List Chunk} {addr : Nat}

/-- What a device that was `start` holds at an address if nothing was sent: the old byte, and zero in
a new block. -/
def blank (start l : Link) (addr : Nat) : Option UInt8 :=
  (start.byte? addr).or ((l.byte? addr).map fun _ => 0)

/-- No memory changed but that of the device. -/
structure Confined (l l' : Link) : Prop where
  unit : l'.device.unit = l.device.unit
  memories : l'.accelerator.memories = l.accelerator.memories ∨
    ∃ m m', l.memory? = some m ∧
      l'.accelerator.memories = (l.accelerator.withMemory l.device.unit m').memories

theorem byte?_of_memory? (h : l.memory? = some m) : l.byte? addr = m.byte? addr := by
  rw [byte?, h, Option.bind_some]

theorem byte?_congr (h : l'.memory? = l.memory?) : l'.byte? addr = l.byte? addr := by
  rw [byte?, byte?, h]

namespace Confined

theorem of_memories (unit : l'.device.unit = l.device.unit)
    (memories : l'.accelerator.memories = l.accelerator.memories) : l.Confined l' :=
  ⟨unit, .inl memories⟩

/-- The changed memories are the old ones with the new memory of the device. -/
private theorem memories_eq_withMemory (h : l.Confined l') (hm : l.memory? = some m) :
    ∃ m', l'.memory? = some m' ∧
      l'.accelerator.memories = (l.accelerator.withMemory l.device.unit m').memories := by
  rcases h.memories with memories | ⟨_, m', -, memories⟩
  · refine ⟨m, ?_, ?_⟩
    · rw [Link.memory?, h.unit, Accelerator.memory?_congr memories]
      exact hm
    · rw [memories, Accelerator.withMemory_self hm]
  · refine ⟨m', ?_, memories⟩
    rw [Link.memory?, h.unit, Accelerator.memory?_congr memories]
    exact Accelerator.memory?_withMemory hm

private theorem memories_eq (h : l.Confined l') (hm : l.memory? = none) :
    l'.accelerator.memories = l.accelerator.memories := by
  rcases h.memories with memories | ⟨m, _, found, -⟩
  · exact memories
  · rw [hm] at found
    cases found

theorem memory?_none (h : l.Confined l') (hm : l.memory? = none) : l'.memory? = none := by
  rw [Link.memory?, h.unit, Accelerator.memory?_congr (h.memories_eq hm)]
  exact hm

/-- Two changes of the same accelerator are the same if they agree on the memory of the device. -/
theorem unique (h : l.Confined l₁) (h' : l.Confined l₂) (same : l₁.memory? = l₂.memory?) :
    l₁.accelerator.memories = l₂.accelerator.memories := by
  cases hm : l.memory? with
  | none => rw [h.memories_eq hm, h'.memories_eq hm]
  | some m =>
      obtain ⟨m₁, found₁, memories₁⟩ := h.memories_eq_withMemory hm
      obtain ⟨m₂, found₂, memories₂⟩ := h'.memories_eq_withMemory hm
      rw [found₁, found₂, Option.some.injEq] at same
      rw [memories₁, memories₂, same]

end Confined

instance : Lasting Confined where
  refl _ := .of_memories rfl rfl
  trans {l l' l''} h h' := by
    refine ⟨h'.unit.trans h.unit, ?_⟩
    cases hm : l.memory? with
    | none => exact .inl ((h'.memories_eq (h.memory?_none hm)).trans (h.memories_eq hm))
    | some m =>
        obtain ⟨m₁, found₁, memories₁⟩ := h.memories_eq_withMemory hm
        obtain ⟨m₂, found₂, memories₂⟩ := h'.memories_eq_withMemory found₁
        refine .inr ⟨m, m₂, rfl, ?_⟩
        rw [memories₂, h.unit, Accelerator.withMemory, memories₁]
        exact Accelerator.withMemory_withMemory

theorem Wrote.confined (h : l.Wrote l' m') (hm : l.memory? = some m) : l.Confined l' :=
  ⟨h.unit, .inr ⟨m, m', hm, h.memories⟩⟩

/-- The chunks were stored in the memory of the device, all of them in blocks. -/
structure Stored (l l' : Link) (chunks : List Chunk) : Prop where
  confined : l.Confined l'
  shadows : l'.device.shadows = l.device.shadows
  bytes : ∀ addr, l'.byte? addr = (Chunk.written chunks addr).or (l.byte? addr)
  inside : ∀ addr, (Chunk.written chunks addr).isSome → (l.byte? addr).isSome

/-- Stored chunks lie in blocks that were there before. -/
theorem Stored.blank (h : l.Stored l' chunks) : start.blank l' addr = start.blank l addr := by
  rw [Link.blank, Link.blank, h.bytes]
  cases hw : Chunk.written chunks addr with
  | none => rw [Option.none_or]
  | some v =>
      obtain ⟨w, hl⟩ := Option.isSome_iff_exists.1 (h.inside addr (by rw [hw, Option.isSome_some]))
      rw [hl, Option.some_or, Option.map_some, Option.map_some]

theorem Wrote.stored (wf : l.accelerator.WellFormed) (hm : l.memory? = some m)
    (stored : Accelerator.storeAll m chunks = .ok m') (h : l.Wrote l' m') : l.Stored l' chunks := by
  have bytes := Chunk.byte?_storeAll (wf.memory hm) stored
  refine ⟨h.confined hm, h.shadows, fun addr => ?_, fun addr => ?_⟩
  · rw [byte?_of_memory? (h.memory? hm), byte?_of_memory? hm]
    exact (bytes addr).1
  · rw [byte?_of_memory? hm]
    exact (bytes addr).2

theorem Counted.stored (h : l.Counted l') (none : ∀ addr, Chunk.written chunks addr = none) :
    l.Stored l' chunks := by
  have same := h.memory?
  obtain ⟨⟨_, _, device⟩, memories⟩ := h
  refine ⟨.of_memories ?_ memories, ?_, fun addr => ?_, fun addr some => ?_⟩
  · rw [device]
  · rw [device]
  · rw [none, Option.none_or, byte?_congr same]
  · rw [none] at some
    cases some

end Link

namespace Device

variable {l l' start : Link} {u : Unit} {target first base size : Nat} {content : List UInt8}
  {chunks : List Chunk} {implicit updateRef : Bool} {r : Option MappedSection}

theorem stored_submit (wf : l.accelerator.WellFormed) (h : Returns (submit target content) l u l') :
    l.Stored l' [⟨target, content⟩] := by
  rcases returns_submit h with ⟨rfl, rfl⟩ | ⟨m, m', hm, hw, wrote⟩
  · refine (Link.Counted.refl _).stored fun addr => ?_
    exact Chunk.byte?_eq_none fun inside => Nat.not_lt_of_le inside.1 inside.2
  · refine wrote.stored wf hm ?_
    exact Accelerator.storeAll_cons.2 ⟨m', hw, rfl⟩

theorem stored_submitBatch {summary : BatchSummary} (wf : l.accelerator.WellFormed)
    (h : Returns (submitBatch chunks) l summary l') : l.Stored l' chunks := by
  rcases returns_submitBatch h with ⟨rfl, counted⟩ | ⟨m, m', hm, stored, wrote⟩
  · exact counted.stored fun _ => rfl
  · exact wrote.stored wf hm stored

/-- Mapping only adds zeros, where no block was before. -/
theorem byte?_map (wf : l.accelerator.WellFormed)
    (h : Returns (map first base size implicit updateRef) l r l') :
    l.Confined l' ∧ ∀ addr, l'.byte? addr = l.byte? addr ∨
      (l.byte? addr = none ∧ l'.byte? addr = some 0) := by
  rcases returns_map h with ⟨_, -, -, -, rfl⟩ | ⟨-, -, -, rfl⟩ | ⟨-, -, addr, l₁, ha, -, hi⟩
  · exact ⟨.of_memories rfl rfl, fun _ => .inl rfl⟩
  · exact ⟨.of_memories rfl rfl, fun _ => .inl rfl⟩
  · obtain ⟨m, m', hm, allocated, wrote⟩ := returns_allocate ha
    obtain ⟨-, rfl⟩ := returns_insertMapping hi
    refine ⟨Lasting.trans (wrote.confined hm) (.of_memories rfl rfl), fun addr' => ?_⟩
    have after : (l₁.withMappings (l₁.device.mappings.insert
        ⟨base, first, first + size, addr, .one⟩).2).memory? = some m' := wrote.memory? hm
    have wfm := wf.memory hm
    rw [Link.byte?_of_memory? after, Link.byte?_of_memory? hm, wfm.byte?_allocate allocated]
    split
    · rename_i fresh
      refine .inr ⟨?_, rfl⟩
      cases hb : m.byte? addr' with
      | none => rfl
      | some v =>
          have := wfm.byte?_below (by rw [hb, Option.isSome_some])
          omega
    · exact .inl rfl

end Device

/-! ## Parcels -/

/-- The chunk that a patch writes. -/
def PointerPatch.chunk (p : PointerPatch) : Chunk := ⟨p.deviceSlot, Word.toBytes p.deviceValue⟩

/-- Something that a region sends to its device. -/
inductive Parcel where
  | copy (c : Chunk)
  | patch (p : PointerPatch)

namespace Parcel

variable {x y : Parcel} {parcels : List Parcel} {addr : Nat}

/-- The bytes that are written for a parcel. -/
def chunk : Parcel → Chunk
  | copy c => c
  | patch p => p.chunk

/-- Sends a parcel, now or later. -/
def send (strategy : Strategy) : Parcel → TransferM Unit
  | copy c => strategy.submit c.target c.content
  | patch p => strategy.patch p

/-- The copy of a parcel, if it has bytes. -/
def copy? : Parcel → Option Chunk
  | copy c => if c.content.isEmpty then none else some c
  | patch _ => none

/-- The patch of a parcel. -/
def patch? : Parcel → Option PointerPatch
  | copy _ => none
  | patch p => some p

/-- The copies that have bytes. -/
def copies (parcels : List Parcel) : List Chunk := parcels.filterMap copy?

/-- The patches. -/
def patches (parcels : List Parcel) : List PointerPatch := parcels.filterMap patch?

/-- The bytes of a copy are none of those that an earlier patch wrote. -/
def Spares : Parcel → Parcel → Prop
  | patch p, copy c => ∀ addr, p.chunk.byte? addr = none ∨ c.byte? addr = none
  | _, _ => True

/-- The shadows after all patches were remembered. -/
def shadows (start : ShadowTable) (parcels : List Parcel) : ShadowTable :=
  ((patches parcels).map PointerPatch.shadow).foldl AddressMap.insert start

theorem mem_copies {c : Chunk} : c ∈ copies parcels ↔ copy c ∈ parcels ∧ c.content ≠ [] := by
  rw [copies, List.mem_filterMap]
  constructor
  · rintro ⟨x, hx, kept⟩
    cases x with
    | copy d =>
        rw [copy?] at kept
        split at kept
        · cases kept
        · rename_i some
          cases kept
          exact ⟨hx, fun empty => some (List.isEmpty_iff.2 empty)⟩
    | patch p => cases kept
  · rintro ⟨hx, some⟩
    exact ⟨copy c, hx, if_neg fun empty => some (List.isEmpty_iff.1 empty)⟩

theorem mem_patches {p : PointerPatch} : p ∈ patches parcels ↔ patch p ∈ parcels := by
  rw [patches, List.mem_filterMap]
  constructor
  · rintro ⟨x, hx, kept⟩
    cases x with
    | copy d => cases kept
    | patch q =>
        cases kept
        exact hx
  · intro hx
    exact ⟨patch p, hx, rfl⟩

theorem written_copies_cons {c : Chunk} :
    Chunk.written (copies (copy c :: parcels)) addr =
      (Chunk.written (copies parcels) addr).or (c.byte? addr) := by
  rw [copies, List.filterMap_cons, copy?]
  split
  · rename_i none
    split at none
    · rename_i empty
      have : c.byte? addr = Option.none := by
        refine Chunk.byte?_eq_none fun inside => ?_
        rw [List.isEmpty_iff.1 empty, List.length_nil] at inside
        omega
      rw [this, Option.or_none, copies]
    · cases none
  · rename_i kept
    split at kept
    · cases kept
    · cases kept
      rfl

/-- Patches may as well be written after all copies. -/
theorem written_chunks (spares : parcels.Pairwise Spares) :
    Chunk.written (parcels.map chunk) addr =
      (Chunk.written ((patches parcels).map PointerPatch.chunk) addr).or
        (Chunk.written (copies parcels) addr) := by
  induction parcels with
  | nil => rfl
  | cons x rest ih =>
      obtain ⟨here, later⟩ := List.pairwise_cons.1 spares
      rw [List.map_cons, Chunk.written, ih later]
      cases x with
      | copy c =>
          rw [written_copies_cons, Option.or_assoc]
          rfl
      | patch p =>
          change _ = (Chunk.written (p.chunk :: (patches rest).map PointerPatch.chunk) addr).or
            (Chunk.written (copies rest) addr)
          rw [Chunk.written, chunk, Option.or_assoc, Option.or_assoc]
          congr 1
          -- what the patch writes no later copy writes
          cases hc : Chunk.written (copies rest) addr with
          | none => rw [Option.none_or, Option.or_none]
          | some v =>
              obtain ⟨c, hmem, hv⟩ := Chunk.shows_of_written hc
              rcases here _ (mem_copies.1 hmem).1 addr with none | none
              · rw [none, Option.none_or, Option.or_none]
              · rw [none] at hv
                cases hv

theorem copies_append {xs ys : List Parcel} : copies (xs ++ ys) = copies xs ++ copies ys :=
  List.filterMap_append

theorem patches_append {xs ys : List Parcel} : patches (xs ++ ys) = patches xs ++ patches ys :=
  List.filterMap_append

theorem shadows_copy {start : ShadowTable} {c : Chunk} :
    shadows start (parcels ++ [copy c]) = shadows start parcels := by
  have none : patches [copy c] = [] := rfl
  rw [shadows, patches_append, none, List.append_nil, shadows]

theorem shadows_patch {start : ShadowTable} {p : PointerPatch} :
    shadows start (parcels ++ [patch p]) = (shadows start parcels).insert p.shadow := by
  have one : patches [patch p] = [p] := rfl
  rw [shadows, patches_append, one, List.map_append, List.foldl_append, shadows]
  rfl

end Parcel

/-! ## Activations -/

/-- All parcels have reached the device. -/
structure Delivered (start : Link) (parcels : List Parcel) (a : Activation) : Prop where
  queue : a.queue = {}
  bytes : ∀ addr, a.link.byte? addr =
    (Chunk.written (parcels.map Parcel.chunk) addr).or (start.blank a.link addr)
  shadows : a.link.device.shadows = Parcel.shadows start.device.shadows parcels

/-- All parcels wait in the queue. -/
structure Queued (start : Link) (parcels : List Parcel) (a : Activation) : Prop where
  copies : a.queue.copies.map StagedCopy.chunk = Parcel.copies parcels
  patches : a.queue.patches = (Parcel.patches parcels).map PointerPatch.pending
  bytes : ∀ addr, a.link.byte? addr = start.blank a.link addr
  shadows : a.link.device.shadows = start.device.shadows

/-- What a strategy has made of the parcels so far. -/
def Handled (start : Link) (parcels : List Parcel) (a : Activation) : Strategy → Prop
  | .immediate => Delivered start parcels a
  | .bulk => Queued start parcels a

/-- An activation on a device that was `start` has handled the parcels and changed nothing else in
memory but for adding blocks. -/
structure Carried (strategy : Strategy) (start : Link) (parcels : List Parcel) (a : Activation) :
    Prop where
  wellFormed : a.link.accelerator.WellFormed
  confined : start.Confined a.link
  handled : Handled start parcels a strategy

section Carried

variable {strategy : Strategy} {start l : Link} {parcels : List Parcel} {a a' : Activation}
  {u : Unit} {x : Parcel}

theorem carried_nil (strategy : Strategy) (wf : a.link.accelerator.WellFormed) (idle : a.queue = {}) :
    Carried strategy a.link [] a := by
  have bytes : ∀ addr, a.link.byte? addr = a.link.blank a.link addr := by
    intro addr
    rw [Link.blank]
    cases a.link.byte? addr with
    | none => rfl
    | some v => rfl
  refine ⟨wf, Lasting.refl _, ?_⟩
  cases strategy with
  | immediate => exact ⟨idle, bytes, rfl⟩
  | bulk => exact ⟨by rw [idle]; rfl, by rw [idle]; rfl, bytes, rfl⟩

namespace Carried

theorem map {first base size : Nat} {implicit updateRef : Bool} {r : Option MappedSection}
    (h : Carried strategy start parcels a)
    (mapped : Returns (Device.map first base size implicit updateRef) a.link r l) :
    Carried strategy start parcels { a with link := l } := by
  obtain ⟨confined, bytes⟩ := Device.byte?_map h.wellFormed mapped
  have extended := Device.along_map.returns mapped
  -- an address that was in no block was not written either
  have grown : ∀ {w : Option UInt8} {addr : Nat},
      a.link.byte? addr = w.or (start.blank a.link addr) →
      l.byte? addr = w.or (start.blank l addr) := by
    intro w addr before
    rcases bytes addr with same | ⟨none, zero⟩
    · rw [same, before, Link.blank, Link.blank, same]
    · rw [none, eq_comm, Option.or_eq_none_iff] at before
      obtain ⟨rfl, blank⟩ := before
      rw [Link.blank, Option.or_eq_none_iff] at blank
      rw [zero, Option.none_or, Link.blank, blank.1, zero]
      rfl
  refine ⟨extended.wellFormed h.wellFormed, Lasting.trans h.confined confined, ?_⟩
  cases strategy with
  | immediate =>
      obtain ⟨idle, bytes, shadows⟩ := h.handled
      exact ⟨idle, fun addr => grown (bytes addr), extended.shadows.trans shadows⟩
  | bulk =>
      obtain ⟨copies, patches, bytes, shadows⟩ := h.handled
      refine ⟨copies, patches, fun addr => ?_, extended.shadows.trans shadows⟩
      exact grown (w := none) (bytes addr)

private theorem store {l' : Link} {chunk : Chunk} (h : Carried .immediate start parcels a)
    (stored : a.link.Stored l' [chunk]) (addr : Nat) :
    l'.byte? addr = (Chunk.written (parcels.map Parcel.chunk ++ [chunk]) addr).or
      (start.blank l' addr) := by
  rw [stored.bytes, stored.blank, h.handled.bytes, Chunk.written_append, Option.or_assoc]

theorem send (h : Carried strategy start parcels a) (sent : Returns (x.send strategy) a u a') :
    Carried strategy start (parcels ++ [x]) a' := by
  cases strategy with
  | immediate =>
      cases x with
      | copy c =>
          obtain ⟨l', submitted, rfl⟩ := TransferM.lifts_onDevice.returns.1 sent
          have stored := Device.stored_submit h.wellFormed submitted
          refine ⟨(Device.along_submit.returns submitted).wellFormed h.wellFormed,
            Lasting.trans h.confined stored.confined, h.handled.queue, fun addr => ?_, ?_⟩
          · rw [List.map_append]
            exact h.store stored addr
          · rw [Parcel.shadows_copy, ← h.handled.shadows]
            exact stored.shadows
      | patch p =>
          change Returns (TransferM.onDevice (Device.patch p.shadow)) a u a' at sent
          obtain ⟨l', patched, rfl⟩ := TransferM.lifts_onDevice.returns.1 sent
          have still := Device.along_patch.returns patched
          obtain ⟨_, l₁, submitted, recorded⟩ := returns_bind.1 patched
          have := returns_modify.1 recorded
          subst this
          have stored := Device.stored_submit h.wellFormed submitted
          refine ⟨still.wellFormed h.wellFormed, Lasting.trans h.confined ?_, h.handled.queue,
            fun addr => ?_, ?_⟩
          · exact Lasting.trans stored.confined (.of_memories rfl rfl)
          · rw [List.map_append]
            exact h.store stored addr
          · rw [Parcel.shadows_patch, ← h.handled.shadows, ← stored.shadows]
  | bulk =>
      obtain ⟨copies, patches, bytes, shadows⟩ := h.handled
      cases x with
      | copy c =>
          have after : a' = { a with queue := a.queue.stage c.target c.content } :=
            returns_modify.1 sent
          subst after
          have patched : Parcel.patches (parcels ++ [.copy c]) = Parcel.patches parcels := by
            have none : Parcel.patches [.copy c] = [] := rfl
            rw [Parcel.patches_append, none, List.append_nil]
          refine ⟨h.wellFormed, h.confined, ?_⟩
          by_cases empty : c.content.isEmpty = true
          · have same : a.queue.stage c.target c.content = a.queue := if_pos empty
            have none : Parcel.copies [.copy c] = [] := by
              simp [Parcel.copies, Parcel.copy?, empty]
            refine ⟨?_, ?_, bytes, shadows⟩
            · dsimp only
              rw [same, copies, Parcel.copies_append, none, List.append_nil]
            · dsimp only
              rw [same, patches, patched]
          · have more : (a.queue.stage c.target c.content).copies =
                a.queue.copies ++ [⟨c.target, a.queue.stagedBytes, c.content⟩] := by
              rw [TransferQueue.stage, if_neg empty]
            have same : (a.queue.stage c.target c.content).patches = a.queue.patches := by
              rw [TransferQueue.stage, if_neg empty]
            have one : Parcel.copies [.copy c] = [c] := by
              simp [Parcel.copies, Parcel.copy?, empty]
            refine ⟨?_, ?_, bytes, shadows⟩
            · dsimp only
              rw [more, List.map_append, copies, Parcel.copies_append, one]
              rfl
            · dsimp only
              rw [same, patches, patched]
      | patch p =>
          have := returns_modify.1 sent
          subst this
          refine ⟨h.wellFormed, h.confined, ?_, ?_, bytes, shadows⟩
          · rw [Parcel.copies_append, ← copies]
            exact (List.append_nil _).symm
          · rw [Parcel.patches_append, List.map_append, ← patches]
            rfl

theorem sendAll {xs : List Parcel} (h : Carried strategy start parcels a)
    (sent : Returns (xs.forM (Parcel.send strategy)) a u a') :
    Carried strategy start (parcels ++ xs) a' := by
  induction xs generalizing parcels a with
  | nil =>
      obtain ⟨-, rfl⟩ := returns_pure.1 sent
      rwa [List.append_nil]
  | cons x rest ih =>
      obtain ⟨a₁, first, others⟩ := returns_forM_cons.1 sent
      have := ih (h.send first) others
      rwa [List.append_assoc] at this

end Carried

/-! ## Flushing -/

/-- The device holds, for each address, what the last patch or else the copies want there, and it
remembers the patches. -/
structure Settled (start : Link) (parcels : List Parcel) (l : Link) : Prop where
  wellFormed : l.accelerator.WellFormed
  confined : start.Confined l
  bytes : ∀ addr, l.byte? addr =
    (Chunk.written ((Parcel.patches parcels).map PointerPatch.chunk) addr).or
      ((Chunk.written (Parcel.copies parcels) addr).or (start.blank l addr))
  shadows : l.device.shadows = Parcel.shadows start.device.shadows parcels

/-- Why parcels may be sent in any order: later copies spare the patched pointers, copies want the same
bytes where they overlap, and each patch is resolved in the end as it was when it was made. -/
structure Orderless (d : Device) (parcels : List Parcel) : Prop where
  spares : parcels.Pairwise Parcel.Spares
  consistent : Chunk.Consistent (Parcel.copies parcels)
  resolved : ∀ p ∈ Parcel.patches parcels, d.resolve? p.pending = some p.shadow

/-- What was sent at once is settled if later copies spare the patched pointers. -/
theorem Delivered.settled (h : Delivered start parcels a) (wf : a.link.accelerator.WellFormed)
    (confined : start.Confined a.link) (spares : parcels.Pairwise Parcel.Spares) :
    Settled start parcels a.link := by
  refine ⟨wf, confined, fun addr => ?_, h.shadows⟩
  rw [h.bytes, Parcel.written_chunks spares, Option.or_assoc]

private theorem resolved_all {d : Device} {patches : List PointerPatch}
    (h : ∀ p ∈ patches, d.resolve? p.pending = some p.shadow) :
    (patches.map PointerPatch.pending).mapM d.resolve? = some (patches.map PointerPatch.shadow) := by
  induction patches with
  | nil => rfl
  | cons p rest ih =>
      obtain ⟨first, others⟩ := List.forall_mem_cons.1 h
      rw [List.map_cons, List.mapM_cons, first, ih others]
      rfl

/-- The staged copies are sent as one batch. -/
theorem Device.stored_sendCopies {copies : List StagedCopy} {summary : BatchSummary} {l' : Link}
    (wf : l.accelerator.WellFormed) (h : Returns (Device.sendCopies copies) l summary l') :
    l.Stored l' (StagedCopy.chunks copies) := by
  rw [Device.sendCopies] at h
  split at h
  · rename_i empty
    obtain ⟨-, rfl⟩ := returns_pure.1 h
    have none : StagedCopy.chunks [] = [] := by
      rw [StagedCopy.chunks, List.mergeSort_nil]
      rfl
    rw [List.isEmpty_iff.1 empty, none]
    exact (Link.Counted.refl _).stored fun _ => rfl
  · exact Device.stored_submitBatch wf h

/-- What consistent copies show is what is left of them. -/
private theorem stored_consistent {copies : List StagedCopy} {l' : Link}
    (consistent : Chunk.Consistent (copies.map StagedCopy.chunk))
    (stored : l.Stored l' (StagedCopy.chunks copies)) :
    l.Stored l' (copies.map StagedCopy.chunk) := by
  have same : ∀ addr, Chunk.written (StagedCopy.chunks copies) addr =
      Chunk.written (copies.map StagedCopy.chunk) addr :=
    fun addr => consistent.written_congr fun _ _ => StagedCopy.shows_chunks
  refine ⟨stored.confined, stored.shadows, fun addr => ?_, fun addr => ?_⟩
  · rw [← same]
    exact stored.bytes addr
  · rw [← same]
    exact stored.inside addr

/-- Flushing sends the staged copies, then the pending patches. -/
theorem Strategy.returns_flush {n : Nat} (h : Returns (Strategy.flush .bulk) a n a') :
    ∃ summary l₁, Returns (Device.sendCopies a.queue.copies) a.link summary l₁ ∧
      Returns (Device.sendPatches a.queue.patches) l₁ n a'.link := by
  obtain ⟨_, a₁, copied, patched⟩ := returns_bind.1 h
  rw [TransferM.sendCopies, returns_get_bind, TransferM.onQueue, returns_modify_bind] at copied
  obtain ⟨l₁, sent₁, rfl⟩ := TransferM.lifts_onDevice.returns.1 copied
  rw [TransferM.sendPatches, returns_get_bind, TransferM.onQueue, returns_modify_bind] at patched
  obtain ⟨l₂, sent₂, rfl⟩ := TransferM.lifts_onDevice.returns.1 patched
  exact ⟨_, l₁, sent₁, sent₂⟩

/-- What was queued is settled by flushing if the order of the parcels does not matter. -/
theorem Queued.settled {n : Nat} (h : Queued start parcels a) (wf : a.link.accelerator.WellFormed)
    (confined : start.Confined a.link) (orderless : Orderless a.link.device parcels)
    (flushed : Returns (Strategy.flush .bulk) a n a') : Settled start parcels a'.link := by
  obtain ⟨_, l₁, sent₁, sent₂⟩ := Strategy.returns_flush flushed
  have still₁ := Device.along_sendCopies.returns sent₁
  have wf₁ := still₁.wellFormed wf
  have stored₁ := stored_consistent (by rw [h.copies]; exact orderless.consistent)
    (Device.stored_sendCopies wf sent₁)
  rw [h.copies] at stored₁
  rw [h.patches] at sent₂
  have middle : ∀ addr, l₁.byte? addr =
      (Chunk.written (Parcel.copies parcels) addr).or (start.blank l₁ addr) := by
    intro addr
    rw [stored₁.bytes, stored₁.blank, h.bytes]
  have resolved : ∀ p ∈ Parcel.patches parcels, l₁.device.resolve? p.pending = some p.shadow := by
    intro p hp
    have := orderless.resolved p hp
    obtain ⟨_, _, device⟩ := still₁.device
    rw [device]
    exact this
  rcases Device.returns_sendPatches sent₂ with ⟨none, same⟩ | ⟨shadows, _, l₃, found, batch, same⟩
  · rw [same]
    have none : Parcel.patches parcels = [] := List.map_eq_nil_iff.1 none
    refine ⟨wf₁, Lasting.trans confined stored₁.confined, fun addr => ?_, ?_⟩
    · rw [none, middle]
      rfl
    · rw [Parcel.shadows, none, stored₁.shadows, h.shadows]
      rfl
  · rw [same]
    rw [resolved_all resolved, Option.some.injEq] at found
    subst found
    have stored₂ := Device.stored_submitBatch wf₁ batch
    rw [List.map_map] at stored₂
    refine ⟨?_, Lasting.trans (Lasting.trans confined stored₁.confined)
      (Lasting.trans stored₂.confined (.of_memories rfl rfl)), fun addr => ?_, ?_⟩
    · exact (Device.along_submitBatch.returns batch).wellFormed wf₁
    · have here := stored₂.bytes addr
      rw [middle, ← stored₂.blank] at here
      exact here
    · change _ = ((Parcel.patches parcels).map PointerPatch.shadow).foldl AddressMap.insert _
      rw [← h.shadows, ← stored₁.shadows, ← stored₂.shadows]
      rfl

end Carried

end Offloading
