import Offloading.Proofs.Arrival
import Offloading.Proofs.Coalescing
/-!
# Flushing a queue

The patches of a queue are sent after its copies and decide the pointers that they name. They are
remembered together or not at all, and none of them is left in the queue.
-/

namespace Offloading

namespace Chunk

variable {c : Chunk} {earlier later chunks : List Chunk} {a : Nat}

theorem written_none (h : ∀ c ∈ chunks, c.byte? a = none) : written chunks a = none := by
  induction chunks with
  | nil => rfl
  | cons c rest ih =>
      obtain ⟨here, others⟩ := List.forall_mem_cons.1 h
      rw [written, ih others, here, Option.none_or]

/-- The last chunk with a byte for an address decides. -/
theorem written_last (last : ∀ d ∈ later, d.byte? a = none) (some : (c.byte? a).isSome) :
    written (earlier ++ c :: later) a = c.byte? a := by
  obtain ⟨v, hv⟩ := Option.isSome_iff_exists.1 some
  rw [written_append, written, written_none last, Option.none_or, hv, Option.some_or]

end Chunk

namespace ShadowPointer

variable {s t : ShadowPointer} {addr i : Nat}

theorem byte?_chunk :
    s.chunk.byte? (s.deviceSlot + i) = (Word.toBytes s.deviceValue)[i]? := by
  change (if s.deviceSlot ≤ s.deviceSlot + i then
    (Word.toBytes s.deviceValue)[s.deviceSlot + i - s.deviceSlot]? else none) = _
  rw [if_pos (Nat.le_add_right _ _), Nat.add_sub_cancel_left]

theorem byte?_chunk_none (outside : ¬ (s.deviceSlot ≤ addr ∧ addr < s.deviceSlot + Word.bytes)) :
    s.chunk.byte? addr = none := by
  apply Chunk.byte?_eq_none
  have length : s.chunk.content.length = Word.bytes := Word.length_toBytes _
  rwa [length]

/-- Two patched pointers have one slot or no byte in common. -/
def Apart (s t : ShadowPointer) : Prop :=
  s.deviceSlot = t.deviceSlot ∨ s.deviceSlot + Word.bytes ≤ t.deviceSlot ∨
    t.deviceSlot + Word.bytes ≤ s.deviceSlot

instance : Decidable (Apart s t) := inferInstanceAs (Decidable (_ ∨ _ ∨ _))

/-- Of the pointers that are patched at one slot the last one stays. -/
theorem written_chunks_last {earlier later : List ShadowPointer} (apart : ∀ t ∈ later, s.Apart t)
    (last : ∀ t ∈ later, t.deviceSlot ≠ s.deviceSlot) (lt : i < Word.bytes) :
    Chunk.written ((earlier ++ s :: later).map chunk) (s.deviceSlot + i) =
      (Word.toBytes s.deviceValue)[i]? := by
  have none : ∀ c ∈ later.map chunk, c.byte? (s.deviceSlot + i) = none := by
    rw [List.forall_mem_map]
    intro t ht
    apply byte?_chunk_none
    have other := last t ht
    rcases apart t ht with same | before | after
    · exact absurd same.symm other
    · omega
    · omega
  have some : (s.chunk.byte? (s.deviceSlot + i)).isSome := by
    have inside : i < (Word.toBytes s.deviceValue).length := by
      rw [Word.length_toBytes]
      exact lt
    rw [byte?_chunk, List.getElem?_eq_getElem inside, Option.isSome_some]
  rw [List.map_append, List.map_cons, Chunk.written_last none some, byte?_chunk]

theorem written_chunks_none {shadows : List ShadowPointer}
    (outside : ∀ s ∈ shadows, ¬ (s.deviceSlot ≤ addr ∧ addr < s.deviceSlot + Word.bytes)) :
    Chunk.written (shadows.map chunk) addr = none := by
  apply Chunk.written_none
  rw [List.forall_mem_map]
  exact fun s hs => byte?_chunk_none (outside s hs)

end ShadowPointer

namespace TransferQueue

/-- No two pending patches name device slots that overlap without being equal. -/
def SlotsApart (q : TransferQueue) (d : Device) : Prop :=
  ∀ p ∈ q.patches, ∀ r ∈ q.patches, ∀ s t, d.resolve? p = some s → d.resolve? r = some t → s.Apart t

end TransferQueue

namespace Device

variable {l l' : Link} {d : Device} {patches : List PendingPatch} {p : PendingPatch}
  {shadows : List ShadowPointer} {e : DeviceError}

theorem resolve?_eq_none : d.resolve? p = none ↔ d.translate? p.hostSlot Word.bytes = none := by
  rw [resolve?, Option.map_eq_none_iff]

/-- One patch whose pointer is not mapped keeps all of them from being resolved. -/
theorem resolved_none (hp : p ∈ patches) (unmapped : d.resolve? p = none) :
    patches.mapM d.resolve? = none := by
  induction patches with
  | nil => cases hp
  | cons r rest ih =>
      rw [List.mapM_cons]
      rcases List.mem_cons.1 hp with rfl | hp
      · rw [unmapped]
        rfl
      · rw [ih hp]
        cases d.resolve? r with
        | none => rfl
        | some s => rfl

theorem shadows_of_transferred (h : l.Transferred l') : l'.device.shadows = l.device.shadows := by
  obtain ⟨_, _, device⟩ := h.device
  rw [device]

theorem resolve?_of_transferred (h : l.Transferred l') : l'.device.resolve? = l.device.resolve? := by
  obtain ⟨_, _, device⟩ := h.device
  rw [device]
  rfl

theorem count_sendPatches {count : Nat} (h : Returns (sendPatches patches) l count l') :
    count = patches.length := by
  unfold sendPatches at h
  split at h
  · rename_i empty
    rw [List.isEmpty_iff.1 empty]
    exact (returns_pure.1 h).1
  · obtain ⟨_, _, -, h⟩ := returns_bind.1 h
    obtain ⟨_, _, -, h⟩ := returns_bind.1 h
    obtain ⟨_, _, -, h⟩ := returns_bind.1 h
    exact (returns_pure.1 h).1

/-- Pending patches of which one cannot be resolved, or whose batch fails, are not remembered. -/
theorem sendPatches_error (h : exec (sendPatches patches) l = (.error e, l')) :
    l'.device.shadows = l.device.shadows := by
  unfold sendPatches at h
  split at h
  · cases h
  · have resolving := Along.mapM (g := resolvePatch) (fun _ => along_resolvePatch) patches l
    rw [exec_bind] at h
    rcases resolved : exec (patches.mapM resolvePatch) l with ⟨_ | shadows, l₁⟩
    · rw [resolved] at h resolving
      cases h
      exact shadows_of_transferred resolving
    · rw [resolved] at h resolving
      dsimp only at h
      rw [exec_bind] at h
      have sending : l₁.Transferred (exec (submitBatch (shadows.map fun s =>
          ⟨s.deviceSlot, Word.toBytes s.deviceValue⟩)) l₁).2 := along_submitBatch l₁
      rcases sent : exec (submitBatch _) l₁ with ⟨_ | _, l₂⟩
      · rw [sent] at h sending
        cases h
        exact (shadows_of_transferred sending).trans (shadows_of_transferred resolving)
      · -- once the batch was sent, nothing can fail
        rw [sent] at h
        dsimp only at h
        rw [exec_bind_ok (exec_recordShadows shadows l₂)] at h
        cases h

/-- Patches are not sent if the slot of one of them is not mapped. -/
theorem sendPatches_unmapped (hp : p ∈ patches)
    (unmapped : l.device.translate? p.hostSlot Word.bytes = none) :
    ∃ e l', exec (sendPatches patches) l = (.error e, l') := by
  have unresolved := resolved_none hp (resolve?_eq_none.2 unmapped)
  rcases ran : exec (sendPatches patches) l with ⟨e | count, l'⟩
  · exact ⟨e, l', rfl⟩
  · rcases returns_sendPatches ran with ⟨rfl, -⟩ | ⟨shadows, _, _, resolved, -, -⟩
    · cases hp
    · rw [unresolved] at resolved
      cases resolved

/-- Patches are not sent if their batch is not. -/
theorem sendPatches_unsent {l₁ : Link} (nonempty : patches ≠ [])
    (resolved : patches.mapM l.device.resolve? = some shadows)
    (failed : exec (submitBatch (shadows.map ShadowPointer.chunk)) l = (.error e, l₁)) :
    ∃ e l', exec (sendPatches patches) l = (.error e, l') := by
  rcases ran : exec (sendPatches patches) l with ⟨e | count, l'⟩
  · exact ⟨e, l', rfl⟩
  · rcases returns_sendPatches ran with ⟨none, -⟩ | ⟨others, summary, l₂, resolved', sent, -⟩
    · exact absurd none nonempty
    · rw [resolved, Option.some.injEq] at resolved'
      subst resolved'
      have sent : exec (submitBatch (shadows.map ShadowPointer.chunk)) l = (.ok summary, l₂) := sent
      rw [failed] at sent
      cases sent

/-- Where patches were sent, each pointer holds what the last patch of its slot was resolved to, and all
other bytes are as before. -/
theorem bytes_sendPatches {count : Nat} (wf : l.accelerator.WellFormed)
    (resolved : patches.mapM l.device.resolve? = some shadows)
    (h : Returns (sendPatches patches) l count l') :
    (∀ addr, l'.byte? addr = (Chunk.written (shadows.map ShadowPointer.chunk) addr).or (l.byte? addr)) ∧
      l'.device.shadows = shadows.foldl AddressMap.insert l.device.shadows := by
  rcases returns_sendPatches h with ⟨rfl, rfl⟩ | ⟨others, summary, l₁, resolved', sent, rfl⟩
  · cases resolved
    exact ⟨fun _ => rfl, rfl⟩
  · rw [resolved, Option.some.injEq] at resolved'
    subst resolved'
    have stored := stored_submitBatch wf sent
    refine ⟨fun addr => stored.bytes addr, ?_⟩
    change shadows.foldl AddressMap.insert l₁.device.shadows = _
    rw [stored.shadows]

end Device

namespace Strategy

variable {a a' : Activation} {n : Nat}

/-- Once the copies are sent, flushing ends as sending the patches does, and leaves an empty queue. -/
theorem exec_flush {summary : BatchSummary} {a₁ : Activation}
    (sent : Returns TransferM.sendCopies a summary a₁) :
    exec (flush .bulk) a =
      ((exec (Device.sendPatches a.queue.patches) a₁.link).1,
        ⟨(exec (Device.sendPatches a.queue.patches) a₁.link).2, {}⟩) := by
  obtain ⟨l, -, rfl⟩ := TransferM.returns_sendCopies_iff.1 sent
  calc exec (flush .bulk) a
      = exec TransferM.sendPatches ⟨l, a.queue.withoutCopies⟩ := exec_bind_ok sent
    _ = _ := by
      change exec (TransferM.onDevice (Device.sendPatches a.queue.patches)) ⟨l, {}⟩ = _
      rw [TransferM.lifts_onDevice]
      rcases exec (Device.sendPatches a.queue.patches) l with ⟨_ | _, _⟩ <;> rfl

/-- What flushing makes of `a` where the patches are resolved to `shadows` and sending the copies alone
leaves `copied`: the last patch of a slot decides what the slot holds. -/
structure Patched (shadows : List ShadowPointer) (a copied a' : Activation) : Prop where
  queue : a'.queue = {}
  slots : ∀ earlier s later, shadows = earlier ++ s :: later →
    (∀ t ∈ later, t.deviceSlot ≠ s.deviceSlot) → ∀ i < Word.bytes,
      a'.link.byte? (s.deviceSlot + i) = (Word.toBytes s.deviceValue)[i]?
  others : ∀ addr, (∀ s ∈ shadows, ¬ (s.deviceSlot ≤ addr ∧ addr < s.deviceSlot + Word.bytes)) →
    a'.link.byte? addr = copied.link.byte? addr
  shadows : a'.link.device.shadows = shadows.foldl AddressMap.insert a.link.device.shadows

private theorem transferred_sendCopies {summary : BatchSummary} {a₁ : Activation}
    (sent : Returns TransferM.sendCopies a summary a₁) : a.link.Transferred a₁.link := by
  obtain ⟨l, ran, rfl⟩ := TransferM.returns_sendCopies_iff.1 sent
  exact Device.along_sendCopies.returns ran

private theorem patched_flush (wf : a.link.accelerator.WellFormed)
    (apart : a.queue.SlotsApart a.link.device) (flushed : Returns (flush .bulk) a n a') :
    n = a.queue.patches.length ∧ ∃ shadows summary a₁,
      a.queue.patches.mapM a.link.device.resolve? = some shadows ∧
      Returns TransferM.sendCopies a summary a₁ ∧ Patched shadows a a₁ a' := by
  obtain ⟨summary, a₁, sent, -⟩ := returns_bind.1 flushed
  have transferred := transferred_sendCopies sent
  rw [Returns, exec_flush sent, Prod.mk.injEq] at flushed
  obtain ⟨ok, rfl⟩ := flushed
  have patched := returns_of_ok ok
  have same := Device.resolve?_of_transferred transferred
  obtain ⟨shadows, resolved⟩ : ∃ shadows, a.queue.patches.mapM a.link.device.resolve? = some shadows := by
    rcases Device.returns_sendPatches patched with ⟨none, -⟩ | ⟨shadows, _, _, resolved, -⟩
    · rw [none]
      exact ⟨[], rfl⟩
    · exact ⟨shadows, same ▸ resolved⟩
  have apart' : ∀ s ∈ shadows, ∀ t ∈ shadows, s.Apart t := by
    intro s hs t ht
    obtain ⟨p, hp, hs⟩ := Device.mem_of_resolved resolved hs
    obtain ⟨r, hr, ht⟩ := Device.mem_of_resolved resolved ht
    exact apart p hp r hr s t hs ht
  obtain ⟨bytes, remembered⟩ :=
    Device.bytes_sendPatches (transferred.wellFormed wf) (same ▸ resolved) patched
  refine ⟨Device.count_sendPatches patched, shadows, summary, a₁, resolved, sent, ⟨rfl, ?_, ?_, ?_⟩⟩
  · intro earlier s later split last i lt
    have here : s ∈ shadows := split ▸ List.mem_append_right _ List.mem_cons_self
    have others : ∀ t ∈ later, s.Apart t := fun t ht =>
      apart' s here t (split ▸ List.mem_append_right _ (List.mem_cons_of_mem _ ht))
    have inside : i < (Word.toBytes s.deviceValue).length := by
      rw [Word.length_toBytes]
      exact lt
    rw [bytes, split, ShadowPointer.written_chunks_last others last lt,
      List.getElem?_eq_getElem inside, Option.some_or]
  · intro addr outside
    rw [bytes, ShadowPointer.written_chunks_none outside, Option.none_or]
  · rw [remembered, Device.shadows_of_transferred transferred]

private theorem flush_refused {summary : BatchSummary} {a₁ : Activation}
    (sent : Returns TransferM.sendCopies a summary a₁)
    (failing : ∃ e l, exec (Device.sendPatches a.queue.patches) a₁.link = (.error e, l)) :
    ∃ e a', exec (flush .bulk) a = (.error e, a') ∧
      a'.link.device.shadows = a.link.device.shadows ∧ a'.queue.patches = [] := by
  obtain ⟨e, l, failed⟩ := failing
  refine ⟨e, ⟨l, {}⟩, ?_, ?_, rfl⟩
  · rw [exec_flush sent, failed]
  · rw [Device.sendPatches_error failed, Device.shadows_of_transferred (transferred_sendCopies sent)]

/-- Flushing a queue sends its patches over its copies, all or none. Where it succeeds, it counts all
patches and leaves none, each patched pointer holds what the last patch of its slot was resolved to, all
other bytes are those that the copies alone leave, and the patches are remembered in their order. Where
the copies are sent but the pointer of some patch is not mapped, or the batch of patches fails, flushing
fails, no patch is remembered and none is left. -/
theorem flush_all_or_none (wf : a.link.accelerator.WellFormed) (apart : a.queue.SlotsApart a.link.device) :
    (∀ n a', Returns (flush .bulk) a n a' →
      n = a.queue.patches.length ∧ ∃ shadows summary a₁,
        a.queue.patches.mapM a.link.device.resolve? = some shadows ∧
        Returns TransferM.sendCopies a summary a₁ ∧ Patched shadows a a₁ a') ∧
    ∀ summary a₁, Returns TransferM.sendCopies a summary a₁ →
      ((∃ p ∈ a.queue.patches, a.link.device.translate? p.hostSlot Word.bytes = none) ∨
        ∃ shadows e l, a.queue.patches ≠ [] ∧
          a.queue.patches.mapM a.link.device.resolve? = some shadows ∧
          exec (Device.submitBatch (shadows.map ShadowPointer.chunk)) a₁.link = (.error e, l)) →
      ∃ e a', exec (flush .bulk) a = (.error e, a') ∧
        a'.link.device.shadows = a.link.device.shadows ∧ a'.queue.patches = [] := by
  refine ⟨fun n a' flushed => patched_flush wf apart flushed, fun summary a₁ sent failing => ?_⟩
  apply flush_refused sent
  have same := Device.resolve?_of_transferred (transferred_sendCopies sent)
  rcases failing with ⟨p, hp, unmapped⟩ | ⟨shadows, e, l, nonempty, resolved, failed⟩
  · apply Device.sendPatches_unmapped hp
    rw [← Device.resolve?_eq_none, same, Device.resolve?_eq_none]
    exact unmapped
  · exact Device.sendPatches_unsent nonempty (same ▸ resolved) failed

/-- A device with a mapped struct of 16 bytes, in whose block a pointer is patched twice and then covered
by a staged copy. -/
private def covered : Activation where
  link :=
    { device := { id := 0, unit := 0, mappings := (MappingTable.insert {} ⟨256, 256, 272, 64, .one⟩).2 }
      accelerator :=
        { memories := [(DeviceMemory.allocate { next := 64, capacity := 1024 } 16).2]
          initialised := [true] } }
  queue := ((({} : TransferQueue).suspend ⟨264, 512, 0, 512⟩).suspend ⟨264, 256, 0, 256⟩).stage 64
    (List.replicate 16 1)

theorem flush_covered : ∃ n a', Returns (flush .bulk) covered n a' ∧ n = 2 ∧ a'.queue = {} := by
  have reached : DeviceMemory.Reached (DeviceMemory.allocate { next := 64, capacity := 1024 } 16).2 :=
    (DeviceMemory.Reached.empty 64 1024).allocate 16
  have wf : covered.link.accelerator.WellFormed := by
    intro m hm
    rw [List.mem_singleton.1 hm]
    exact reached.wellFormed
  have slots : ∀ p ∈ covered.queue.patches,
      (covered.link.device.resolve? p).map ShadowPointer.deviceSlot = some 72 := by decide
  have apart : covered.queue.SlotsApart covered.link.device := by
    intro p hp r hr s t hs ht
    have left := slots p hp
    have right := slots r hr
    rw [hs, Option.map_some, Option.some.injEq] at left
    rw [ht, Option.map_some, Option.some.injEq] at right
    exact .inl (left.trans right.symm)
  have flushed : (exec (flush .bulk) covered).1 = .ok 2 := by cbv
  obtain ⟨-, _, _, _, -, -, patched⟩ := (flush_all_or_none wf apart).1 2 _ (returns_of_ok flushed)
  exact ⟨2, _, returns_of_ok flushed, rfl, patched.queue⟩

end Strategy

end Offloading
