import Offloading.Device.Upload
import Offloading.Device.Staging
import Offloading.Proofs.Accelerator
/-!
# Devices and their memory

The operations on a device that move bytes, allocate or launch, seen from the device: what they leave
in its memory when they succeed, and that they change nothing of its tables but the shadows.
-/

namespace Offloading

namespace Link

variable {l l' l'' : Link} {m m' : DeviceMemory}

/-- The memory of the device. -/
def memory? (l : Link) : Option DeviceMemory := l.accelerator.memory? l.device.unit

/-- The byte of device memory at an address. -/
def byte? (l : Link) (addr : Nat) : Option UInt8 := l.memory?.bind fun m => m.byte? addr

/-- Only the contents of the device's memory changed, and what is counted. -/
structure Wrote (l l' : Link) (m : DeviceMemory) : Prop where
  device : ∃ transfers tripCount, l'.device = { l.device with transfers, tripCount }
  memories : l'.accelerator.memories = (l.accelerator.withMemory l.device.unit m).memories

/-- Nothing changed but what is counted. -/
structure Counted (l l' : Link) : Prop where
  device : ∃ transfers tripCount, l'.device = { l.device with transfers, tripCount }
  memories : l'.accelerator.memories = l.accelerator.memories

theorem Counted.refl (l : Link) : l.Counted l := ⟨⟨_, _, rfl⟩, rfl⟩

theorem Counted.memory? (h : l.Counted l') : l'.memory? = l.memory? := by
  obtain ⟨⟨_, _, device⟩, memories⟩ := h
  rw [Link.memory?, Link.memory?, device]
  exact Accelerator.memory?_congr memories

namespace Wrote

theorem unit (h : l.Wrote l' m) : l'.device.unit = l.device.unit := by
  obtain ⟨_, _, device⟩ := h.device
  rw [device]

theorem mappings (h : l.Wrote l' m) : l'.device.mappings = l.device.mappings := by
  obtain ⟨_, _, device⟩ := h.device
  rw [device]

theorem shadows (h : l.Wrote l' m) : l'.device.shadows = l.device.shadows := by
  obtain ⟨_, _, device⟩ := h.device
  rw [device]

theorem memory? (h : l.Wrote l' m') (hm : l.memory? = some m) : l'.memory? = some m' := by
  rw [Link.memory?, h.unit, Accelerator.memory?_congr h.memories]
  exact Accelerator.memory?_withMemory hm

theorem map {β : Type} {view : DeviceMemory → β} (h : l.Wrote l' m') (hm : l.memory? = some m)
    (same : view m' = view m) :
    l'.accelerator.memories.map view = l.accelerator.memories.map view := by
  rw [h.memories]
  exact Accelerator.map_withMemory hm same

theorem wellFormed (h : l.Wrote l' m) (hl : l.accelerator.WellFormed) (hm : m.WellFormed) :
    l'.accelerator.WellFormed := by
  intro n hn
  rw [h.memories] at hn
  exact hl.withMemory hm n hn

end Wrote

end Link

namespace DeviceM

theorem lifts_call {α : Type} {wrap : AcceleratorError → DeviceError} {x : AcceleratorM α} :
    Lifts Link.accelerator (fun l accelerator => { l with accelerator }) wrap x (call wrap x) :=
  fun _ => rfl

theorem exec_device_bind {β : Type} {l : Link} {f : Device → DeviceM β} :
    exec (device >>= f) l = exec (f l.device) l := rfl

theorem returns_device_bind {β : Type} {b : β} {l l' : Link} {f : Device → DeviceM β} :
    Returns (device >>= f) l b l' ↔ Returns (f l.device) l b l' := Iff.rfl

theorem returns_count {f : TransferStats → TransferStats} {l l' : Link} {u : Unit} :
    Returns (count f) l u l' ↔
      l' = { l with device := { l.device with transfers := f l.device.transfers } } :=
  returns_modify

theorem returns_modifyMappings {f : MappingTable → MappingTable} {l l' : Link} {u : Unit} :
    Returns (modifyMappings f) l u l' ↔
      l' = { l with device := { l.device with mappings := f l.device.mappings } } :=
  returns_modify

end DeviceM

namespace Device

open DeviceM

variable {l l' : Link} {u : Unit} {content : List UInt8} {addr size target : Nat}

/-! ## Operations that succeed -/

theorem returns_submit (h : Returns (submit target content) l u l') :
    (content = [] ∧ l' = l) ∨
      ∃ m m', l.memory? = some m ∧ m.write target content = .ok m' ∧ l.Wrote l' m' := by
  rw [submit] at h
  split at h
  · rename_i empty
    exact .inl ⟨List.isEmpty_iff.1 empty, (returns_pure.1 h).2⟩
  · rw [returns_device_bind, returns_bind] at h
    obtain ⟨_, l₁, hc, h⟩ := h
    obtain ⟨a, submitted, rfl⟩ := lifts_call.returns.1 hc
    obtain ⟨m, m', found, hw, memories⟩ := Accelerator.returns_submit submitted
    have := returns_count.1 h
    subst this
    exact .inr ⟨m, m', found, hw, ⟨⟨_, _, rfl⟩, memories⟩⟩

theorem returns_retrieve (h : Returns (retrieve target size) l content l') :
    (size = 0 ∧ content = [] ∨
      ∃ m, l.memory? = some m ∧ m.read target size = .ok content) ∧ l.Counted l' := by
  rw [retrieve] at h
  split at h
  · rename_i empty
    obtain ⟨rfl, rfl⟩ := returns_pure.1 h
    exact ⟨.inl ⟨empty, rfl⟩, .refl _⟩
  · rw [returns_device_bind, returns_bind] at h
    obtain ⟨_, l₁, hc, h⟩ := h
    obtain ⟨a, retrieved, rfl⟩ := lifts_call.returns.1 hc
    obtain ⟨m, found, read, memories⟩ := Accelerator.returns_retrieve retrieved
    rw [returns_bind] at h
    obtain ⟨_, l₂, hn, h⟩ := h
    have := returns_count.1 hn
    subst this
    obtain ⟨rfl, rfl⟩ := returns_pure.1 h
    exact ⟨.inr ⟨m, found, read⟩, ⟨⟨_, _, rfl⟩, memories⟩⟩

theorem returns_allocate (h : Returns (allocate size) l addr l') :
    ∃ m m', l.memory? = some m ∧ m.allocate size = (some addr, m') ∧ l.Wrote l' m' := by
  rw [allocate, returns_device_bind, returns_bind] at h
  obtain ⟨_, l₁, hc, h⟩ := h
  obtain ⟨a, allocated, rfl⟩ := lifts_call.returns.1 hc
  obtain ⟨m, m', found, ha, memories⟩ := Accelerator.returns_allocate allocated
  rw [returns_bind] at h
  obtain ⟨_, l₂, hn, h⟩ := h
  have := returns_count.1 hn
  subst this
  obtain ⟨rfl, rfl⟩ := returns_pure.1 h
  exact ⟨m, m', found, ha, ⟨⟨_, _, rfl⟩, memories⟩⟩

theorem returns_free (h : Returns (free addr) l u l') :
    ∃ m m', l.memory? = some m ∧ m.free addr = (true, m') ∧ l.Wrote l' m' := by
  rw [free, returns_device_bind, returns_bind] at h
  obtain ⟨_, l₁, hc, h⟩ := h
  obtain ⟨a, freed, rfl⟩ := lifts_call.returns.1 hc
  obtain ⟨m, m', found, hf, memories⟩ := Accelerator.returns_delete freed
  have := returns_count.1 h
  subst this
  exact ⟨m, m', found, hf, ⟨⟨_, _, rfl⟩, memories⟩⟩

theorem returns_submitBatch {chunks : List Chunk} {summary : BatchSummary}
    (h : Returns (submitBatch chunks) l summary l') :
    (chunks = [] ∧ l.Counted l') ∨
      ∃ m m', l.memory? = some m ∧ Accelerator.storeAll m chunks = .ok m' ∧ l.Wrote l' m' := by
  unfold submitBatch at h
  rw [returns_device_bind] at h
  dsimp only at h
  rw [returns_bind] at h
  obtain ⟨_, l₁, hc, h⟩ := h
  obtain ⟨a, submitted, rfl⟩ := lifts_call.returns.1 hc
  rw [returns_bind] at h
  obtain ⟨_, l₂, hn, h⟩ := h
  have := returns_count.1 hn
  subst this
  obtain ⟨-, rfl⟩ := returns_pure.1 h
  rcases Accelerator.returns_submitBatch submitted with ⟨empty, memories⟩ | ⟨m, m', hm, stored, memories⟩
  · exact .inl ⟨empty, ⟨⟨_, _, rfl⟩, memories⟩⟩
  · exact .inr ⟨m, m', hm, stored, ⟨⟨_, _, rfl⟩, memories⟩⟩

theorem returns_launch {entry : Nat} {arguments : List Nat} {offsets : List Int}
    {kind : LaunchKind} (h : Returns (launch entry arguments offsets kind) l u l') :
    ∃ (m : DeviceMemory) (code : DeviceCode (Except KernelError Unit)),
      l.memory? = some m ∧ l.Wrote l' (code.run m).memory := by
  have key : ∀ {tripCount : Nat} {l₁ : Link}, l.Counted l₁ →
      Returns (do
        let d ← device
        call (.launchFailed d.id entry)
          (Accelerator.run d.unit entry arguments offsets kind tripCount)
        count .recordLaunch) l₁ u l' →
      ∃ (m : DeviceMemory) (code : DeviceCode (Except KernelError Unit)),
        l.memory? = some m ∧ l.Wrote l' (code.run m).memory := by
    intro tripCount l₁ counted h
    rw [returns_device_bind, returns_bind] at h
    obtain ⟨_, l₂, hc, h⟩ := h
    obtain ⟨a, ran, rfl⟩ := lifts_call.returns.1 hc
    obtain ⟨m, code, found, memories⟩ := Accelerator.returns_run ran
    have := returns_count.1 h
    subst this
    have hm : l₁.memory? = some m := found
    rw [counted.memory?] at hm
    obtain ⟨⟨_, _, device⟩, memories₁⟩ := counted
    refine ⟨m, code, hm, ⟨?_, ?_⟩⟩
    · simp only [device]
      exact ⟨_, _, rfl⟩
    · rw [memories, Accelerator.withMemory, Accelerator.withMemory, memories₁, device]
  unfold launch at h
  cases kind with
  | single => exact key (.refl l) (returns_pure_bind.1 h)
  | teams numTeams threadLimit =>
      rw [returns_bind] at h
      obtain ⟨_, l₁, ht, h⟩ := h
      rw [takeTripCount, returns_device_bind, modifyDevice, returns_modify_bind] at ht
      obtain ⟨-, rfl⟩ := returns_pure.1 ht
      have counted : l.Counted { l with device := { l.device with tripCount := 0 } } :=
        ⟨⟨_, _, rfl⟩, rfl⟩
      exact key counted h

theorem returns_visitShadows {lower upper : Nat} {erase : Bool} {visited : List ShadowPointer}
    (h : Returns (visitShadows lower upper erase) l visited l') :
    visited = l.device.shadows.range lower upper ∧
      l' = { l with device :=
        { l.device with
          shadows :=
            if erase then l.device.shadows.eraseRange lower upper else l.device.shadows } } := by
  rw [visitShadows, returns_device_bind] at h
  dsimp only [ShadowTable.visit] at h
  rw [modifyDevice, returns_modify_bind] at h
  exact returns_pure.1 h

theorem returns_pointerSlot {hostSlot : Nat} :
    Returns (pointerSlot hostSlot) l addr l' ↔
      l.device.translate? hostSlot Word.bytes = some addr ∧ l' = l := by
  rw [pointerSlot, returns_device_bind]
  constructor
  · intro h
    split at h
    · rename_i found
      obtain ⟨rfl, rfl⟩ := returns_pure.1 h
      exact ⟨found, rfl⟩
    · exact absurd h not_returns_throw
  · rintro ⟨found, rfl⟩
    rw [found]
    exact returns_pure.2 ⟨rfl, rfl⟩

/-- The shadow that a pending patch gets, if its pointer is mapped. -/
def resolve? (d : Device) (p : PendingPatch) : Option ShadowPointer :=
  (d.translate? p.hostSlot Word.bytes).map fun slot =>
    ⟨p.hostSlot, p.hostValue, slot,
      match d.translate? p.pointee 0 with
      | some addr => Word.sub addr p.delta
      | none => 0⟩

theorem returns_resolvePatch {p : PendingPatch} {s : ShadowPointer} :
    Returns (resolvePatch p) l s l' ↔ l.device.resolve? p = some s ∧ l' = l := by
  unfold resolvePatch
  rw [returns_device_bind]
  dsimp only
  rw [returns_bind]
  constructor
  · rintro ⟨slot, l₁, hs, h⟩
    obtain ⟨found, rfl⟩ := returns_pointerSlot.1 hs
    obtain ⟨rfl, rfl⟩ := returns_pure.1 h
    exact ⟨by rw [resolve?, found]; rfl, rfl⟩
  · rintro ⟨resolved, rfl⟩
    obtain ⟨slot, found, rfl⟩ := Option.map_eq_some_iff.1 resolved
    exact ⟨slot, l', returns_pointerSlot.2 ⟨found, rfl⟩, returns_pure.2 ⟨rfl, rfl⟩⟩

theorem returns_resolvePatches {patches : List PendingPatch} {shadows : List ShadowPointer} :
    Returns (patches.mapM resolvePatch) l shadows l' ↔
      patches.mapM l.device.resolve? = some shadows ∧ l' = l := by
  induction patches generalizing shadows l l' with
  | nil =>
      rw [List.mapM_nil, returns_pure, List.mapM_nil]
      change _ ↔ some [] = some shadows ∧ _
      rw [Option.some.injEq, eq_comm]
  | cons p rest ih =>
      rw [List.mapM_cons, returns_bind, List.mapM_cons]
      simp only [returns_bind, returns_resolvePatch, ih, returns_pure]
      constructor
      · rintro ⟨s, _, ⟨hs, rfl⟩, more, _, ⟨hm, rfl⟩, rfl, rfl⟩
        rw [hs, Option.bind_eq_bind, Option.bind_some, hm]
        exact ⟨rfl, rfl⟩
      · rintro ⟨h, rfl⟩
        obtain ⟨s, hs, h⟩ := Option.bind_eq_some_iff.1 h
        obtain ⟨more, hm, h⟩ := Option.bind_eq_some_iff.1 h
        exact ⟨s, l', ⟨hs, rfl⟩, more, l', ⟨hm, rfl⟩, by cases h; rfl, rfl⟩

/-- The device after pointers were patched. -/
def withShadows (d : Device) (shadows : List ShadowPointer) : Device :=
  { d with shadows := shadows.foldl AddressMap.insert d.shadows }

theorem exec_recordShadows (shadows : List ShadowPointer) (l : Link) :
    exec (shadows.forM recordShadow) l =
      (.ok (), { l with device := l.device.withShadows shadows }) := by
  induction shadows generalizing l with
  | nil => rfl
  | cons s rest ih =>
      change exec (recordShadow s >>= fun _ => rest.forM recordShadow) l = _
      rw [exec_bind]
      exact ih _

/-- All pending patches are sent in one batch and remembered afterwards. -/
theorem returns_sendPatches {patches : List PendingPatch} {count : Nat}
    (h : Returns (sendPatches patches) l count l') :
    (patches = [] ∧ l' = l) ∨
      ∃ shadows summary l₁, patches.mapM l.device.resolve? = some shadows ∧
        Returns (submitBatch (shadows.map fun s => ⟨s.deviceSlot, Word.toBytes s.deviceValue⟩))
          l summary l₁ ∧
        l' = { l₁ with device := l₁.device.withShadows shadows } := by
  rw [sendPatches] at h
  split at h
  · rename_i empty
    exact .inl ⟨List.isEmpty_iff.1 empty, (returns_pure.1 h).2⟩
  · rw [returns_bind] at h
    obtain ⟨shadows, l₀, hs, h⟩ := h
    obtain ⟨resolved, rfl⟩ := returns_resolvePatches.1 hs
    rw [returns_bind] at h
    obtain ⟨summary, l₁, hb, h⟩ := h
    rw [returns_bind] at h
    obtain ⟨_, l₂, hr, h⟩ := h
    obtain ⟨-, rfl⟩ := returns_pure.1 h
    rw [Returns, exec_recordShadows] at hr
    cases hr
    exact .inr ⟨shadows, summary, l₁, resolved, hb, rfl⟩

end Device

/-! ## What operations keep -/

namespace Link

variable {l l' l'' : Link}

/-- Nothing happened to the device but allocating, freeing, moving bytes and running kernels. -/
structure Moved (l l' : Link) : Prop where
  device : ∃ transfers tripCount, l'.device = { l.device with transfers, tripCount }
  wellFormed : l.accelerator.WellFormed → l'.accelerator.WellFormed

/-- The same without allocating and freeing. -/
structure Transferred (l l' : Link) : Prop extends l.Moved l' where
  layouts : l'.accelerator.layouts = l.accelerator.layouts
  failedReleases : l'.accelerator.failedReleases = l.accelerator.failedReleases

private theorem device_trans
    (h : ∃ transfers tripCount, l'.device = { l.device with transfers, tripCount })
    (h' : ∃ transfers tripCount, l''.device = { l'.device with transfers, tripCount }) :
    ∃ transfers tripCount, l''.device = { l.device with transfers, tripCount } := by
  obtain ⟨_, _, device⟩ := h
  obtain ⟨transfers, tripCount, device'⟩ := h'
  exact ⟨transfers, tripCount, by rw [device', device]⟩

/-- Mappings and blocks stayed where they are. -/
structure Still (l l' : Link) : Prop where
  id : l'.device.id = l.device.id
  unit : l'.device.unit = l.device.unit
  mappings : l'.device.mappings = l.device.mappings
  pending : l'.device.pending = l.device.pending
  wellFormed : l.accelerator.WellFormed → l'.accelerator.WellFormed
  layouts : l'.accelerator.layouts = l.accelerator.layouts
  failedReleases : l'.accelerator.failedReleases = l.accelerator.failedReleases

theorem Transferred.still (h : l.Transferred l') : l.Still l' := by
  obtain ⟨_, _, device⟩ := h.device
  refine ⟨?_, ?_, ?_, ?_, h.wellFormed, h.layouts, h.failedReleases⟩
  · rw [device]
  · rw [device]
  · rw [device]
  · rw [device]

instance : Lasting Moved where
  refl _ := ⟨⟨_, _, rfl⟩, id⟩
  trans h h' := ⟨device_trans h.device h'.device, fun hl => h'.wellFormed (h.wellFormed hl)⟩

instance : Lasting Transferred where
  refl _ := ⟨Lasting.refl _, rfl, rfl⟩
  trans h h' := ⟨Lasting.trans h.toMoved h'.toMoved, h'.layouts.trans h.layouts,
    h'.failedReleases.trans h.failedReleases⟩

instance : Lasting Still where
  refl _ := ⟨rfl, rfl, rfl, rfl, fun h => h, rfl, rfl⟩
  trans h h' := ⟨h'.id.trans h.id, h'.unit.trans h.unit, h'.mappings.trans h.mappings,
    h'.pending.trans h.pending, fun hl => h'.wellFormed (h.wellFormed hl),
    h'.layouts.trans h.layouts, h'.failedReleases.trans h.failedReleases⟩

end Link

namespace Device

open DeviceM

theorem along_call_moved {α : Type} {wrap : AcceleratorError → DeviceError} {x : AcceleratorM α}
    (hx : Along (Kept Accelerator.WellFormed) x) : Along Link.Moved (call wrap x) :=
  lifts_call.along hx fun _ _ h => ⟨⟨_, _, rfl⟩, h⟩

theorem along_call_transferred {α : Type} {wrap : AcceleratorError → DeviceError}
    {x : AcceleratorM α} (hx : Along Accelerator.Rewritten x) :
    Along Link.Transferred (call wrap x) :=
  lifts_call.along hx fun _ _ h => ⟨⟨⟨_, _, rfl⟩, h.wellFormed⟩, h.layouts, h.failedReleases⟩

theorem along_count {f : TransferStats → TransferStats} : Along Link.Transferred (count f) :=
  Along.modify fun _ => ⟨⟨⟨_, _, rfl⟩, fun h => h⟩, rfl, rfl⟩

theorem along_submit {target : Nat} {content : List UInt8} :
    Along Link.Transferred (submit target content) := by
  refine Along.ite Along.pure (Along.get.bind fun _ => Along.bind ?_ fun _ => along_count)
  exact along_call_transferred ((Accelerator.notes_submit Accelerator.Quiet.rewritten
    Accelerator.rewritten_write).along Accelerator.overlooks_rewritten)

theorem along_submitBatch {chunks : List Chunk} :
    Along Link.Transferred (submitBatch chunks) := by
  refine Along.get.bind fun _ => Along.bind ?_ fun _ => along_count.bind fun _ => Along.pure
  exact along_call_transferred ((Accelerator.notes_submitBatch Accelerator.Quiet.rewritten
    Accelerator.rewritten_write).along Accelerator.overlooks_rewritten)

theorem along_retrieve {target size : Nat} : Along Link.Transferred (retrieve target size) := by
  refine Along.ite Along.pure (Along.get.bind fun _ => Along.bind ?_ fun _ =>
    along_count.bind fun _ => Along.pure)
  exact along_call_transferred ((Accelerator.notes_retrieve Accelerator.Quiet.rewritten).along
    Accelerator.overlooks_rewritten)

theorem along_launch {entry : Nat} {arguments : List Nat} {offsets : List Int}
    {kind : LaunchKind} : Along Link.Transferred (launch entry arguments offsets kind) := by
  have run : ∀ tripCount, Along Link.Transferred (do
      let d ← device
      call (.launchFailed d.id entry)
        (Accelerator.run d.unit entry arguments offsets kind tripCount)
      count .recordLaunch) := by
    refine fun tripCount => Along.get.bind fun _ => Along.bind ?_ fun _ => along_count
    exact along_call_transferred ((Accelerator.notes_run Accelerator.Quiet.rewritten
      Accelerator.rewritten_code).along Accelerator.overlooks_rewritten)
  unfold launch
  cases kind with
  | single => exact Along.pure.bind run
  | teams numTeams threadLimit =>
      refine Along.bind ?_ run
      refine Along.get.bind fun _ => Along.bind (Along.modify fun _ => ?_) fun _ => Along.pure
      exact ⟨⟨⟨_, _, rfl⟩, fun h => h⟩, rfl, rfl⟩

theorem along_resubmitShadows {lower upper : Nat} :
    Along Link.Transferred (resubmitShadows lower upper) :=
  Along.get.bind fun _ => (Along.forM (fun _ => along_submit) _).bind fun _ => Along.pure

theorem along_pushTripCount {n : Nat} : Along Link.Transferred (pushTripCount n) :=
  Along.modify fun _ => ⟨⟨⟨_, _, rfl⟩, fun h => h⟩, rfl, rfl⟩

theorem along_visitShadows_still {lower upper : Nat} {erase : Bool} :
    Along Link.Still (visitShadows lower upper erase) := by
  refine Along.get.bind fun _ => Along.bind ?_ fun _ => Along.pure
  exact Along.modify fun _ => ⟨rfl, rfl, rfl, rfl, fun h => h, rfl, rfl⟩

theorem along_visitShadows_keep {lower upper : Nat} :
    Along Link.Transferred (visitShadows lower upper false) :=
  fun _ => ⟨⟨⟨_, _, rfl⟩, fun h => h⟩, rfl, rfl⟩

theorem along_recordShadow_still {s : ShadowPointer} : Along Link.Still (recordShadow s) :=
  Along.modify fun _ => ⟨rfl, rfl, rfl, rfl, fun h => h, rfl, rfl⟩

theorem along_patch {s : ShadowPointer} : Along Link.Still (patch s) :=
  (along_submit.mono Link.Transferred.still).bind fun _ => along_recordShadow_still

theorem along_sendCopies {copies : List StagedCopy} : Along Link.Transferred (sendCopies copies) :=
  Along.ite Along.pure along_submitBatch

theorem along_resolvePatch {p : PendingPatch} : Along Link.Transferred (resolvePatch p) := by
  refine Along.get.bind fun _ => Along.bind ?_ fun _ => Along.pure
  refine Along.get.bind fun l => ?_
  split
  · exact Along.pure
  · exact Along.throw

theorem along_sendPatches {patches : List PendingPatch} :
    Along Link.Still (sendPatches patches) := by
  refine Along.ite Along.pure (Along.bind ?_ fun shadows => Along.bind ?_ fun _ =>
    (Along.forM (fun _ => along_recordShadow_still) shadows).bind fun _ => Along.pure)
  · exact (Along.mapM (fun _ => along_resolvePatch) patches).mono Link.Transferred.still
  · exact along_submitBatch.mono Link.Transferred.still

theorem along_allocate {size : Nat} : Along Link.Moved (allocate size) := by
  refine Along.get.bind fun _ => Along.bind ?_ fun _ => Along.bind ?_ fun _ => Along.pure
  · exact along_call_moved Accelerator.along_allocate
  · exact along_count.mono Link.Transferred.toMoved

theorem along_free {addr : Nat} : Along Link.Moved (free addr) := by
  refine Along.get.bind fun _ => Along.bind ?_ fun _ => ?_
  · exact along_call_moved Accelerator.along_delete
  · exact along_count.mono Link.Transferred.toMoved

end Device

end Offloading
