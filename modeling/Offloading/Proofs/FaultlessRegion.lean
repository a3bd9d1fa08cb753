import Offloading.Proofs.Faultless
import Offloading.Proofs.AddressTable
import Offloading.Proofs.HostPointers
/-!
# Regions on a device without faults

What the steps of a region make of the device, of host memory, of the queue and of the blocks for the launch
when no call to the accelerator fails. Two kinds of arguments occur: a section that nothing is mapped in, and
a pointer in a mapped section together with such a section.
-/

namespace Offloading

/-- What decides the steps of a region on a device without faults. -/
structure RegionView where
  /-- The device. -/
  device : DeviceView
  /-- What waits to be sent. -/
  queue : TransferQueue := {}
  /-- Host memory. -/
  host : HostMemory
  /-- Blocks that live until the kernel has run. -/
  scratch : List Nat := []
  /-- Kernels launched. -/
  launched : Nat
  /-- Sections in all the address tables handed to kernels. -/
  tableEntries : Nat

/-- A region with these arguments works on a device without faults, and the rest is what the view shows. -/
structure RegionState.Shows (kernels : List Kernel) (args : ArgumentList) (v : RegionView)
    (s : RegionState) : Prop where
  link : s.activation.link.Shows kernels v.device
  queue : s.activation.queue = v.queue
  host : s.host = v.host
  arguments : s.arguments = args
  scratch : s.scratch = v.scratch
  launched : s.metrics.kernelsLaunched = v.launched
  tableEntries : s.metrics.tableEntries = v.tableEntries

/-- The device when a section has been mapped to a new block. -/
def DeviceView.mapped (v : DeviceView) (e : Mapping) (m : DeviceMemory) : DeviceView :=
  { v with
    mappings := (v.mappings.insert e).2
    memory := m
    transfers := v.transfers.recordAllocation }

/-- The device when a section has been mapped to a new block and its bytes were sent there at once. -/
def DeviceView.received (v : DeviceView) (e : Mapping) (m : DeviceMemory) (bytes : Nat) : DeviceView :=
  { v with
    mappings := (v.mappings.insert e).2
    memory := m
    transfers := v.transfers.recordAllocation.recordSubmission bytes }

/-- The device when a section has been found mapped. -/
def DeviceView.reused (v : DeviceView) : DeviceView := { v with mappings := v.mappings.recordReuse }

/-- The region when a whole section was copied back and its mapping removed with its block. Pointers in the
section are put back if they were patched. -/
def RegionView.released (v : RegionView) (direct : Bool) (e : Mapping) (content : List UInt8)
    (m : DeviceMemory) : RegionView :=
  let host := v.host.write e.hostBegin content
  { v with
    device :=
      { mappings := (v.device.mappings.remove e.hostBegin).2
        shadows := v.device.shadows.eraseRange e.hostBegin e.hostEnd
        memory := m
        transfers := (v.device.transfers.recordRetrieval e.length).recordDeallocation }
    host := if direct then host.restored (v.device.shadows.range e.hostBegin e.hostEnd) else host }

variable {kernels : List Kernel} {args : ArgumentList} {v w : RegionView} {s : RegionState}
  {settings : Settings} {α : Type} {x : α}

namespace TransferM

theorem attains_onQueue {f : TransferQueue → TransferQueue} {a : Activation} {P : Activation → Prop}
    (h : P { a with queue := f a.queue }) : Attains (onQueue f) a () P := Attains.modify h

end TransferM

namespace RegionM

theorem attains_onDevice {d : DeviceView} {y : DeviceM α} (h : s.Shows kernels args v)
    (hy : ∀ l : Link, l.Shows kernels v.device → Attains y l x (Link.Shows kernels d)) :
    Attains (onDevice y) s x (RegionState.Shows kernels args { v with device := d }) :=
  lifts_onDevice.attains (hy _ h.link) fun _ link =>
    ⟨link, h.queue, h.host, h.arguments, h.scratch, h.launched, h.tableEntries⟩

theorem attains_arguments_bind {β : Type} {b : β} {ask : ArgumentList → Except ArgumentError α}
    {f : α → RegionM β} {P : RegionState → Prop} (found : ask s.arguments = .ok x)
    (hf : Attains (f x) s b P) : Attains (arguments ask >>= f) s b P := by
  obtain ⟨s', ran, holds⟩ := hf
  exact ⟨s', returns_bind.2 ⟨x, s, returns_arguments.2 ⟨found, rfl⟩, ran⟩, holds⟩

theorem attains_writeHost {first : Nat} {content : List UInt8} (h : s.Shows kernels args v) :
    Attains (writeHost first content) s ()
      (RegionState.Shows kernels args { v with host := v.host.write first content }) :=
  Attains.modify ⟨h.link, h.queue, congrArg (·.write first content) h.host, h.arguments, h.scratch,
    h.launched, h.tableEntries⟩

theorem attains_restorePointers (shadows : List ShadowPointer) (h : s.Shows kernels args v) :
    Attains (restorePointers shadows) s ()
      (RegionState.Shows kernels args { v with host := v.host.restored shadows }) :=
  ⟨_, Region.exec_restorePointers shadows s, ⟨h.link, h.queue, congrArg (·.restored shadows) h.host,
    h.arguments, h.scratch, h.launched, h.tableEntries⟩⟩

theorem attains_record {p : Phase} (h : s.Shows kernels args v) :
    Attains (record settings p) s () (RegionState.Shows kernels args v) := by
  unfold record
  split
  · refine Attains.modify ⟨h.link, h.queue, h.host, h.arguments, h.scratch, ?_, ?_⟩
    · cases p <;> exact h.launched
    · cases p <;> exact h.tableEntries
  · exact Attains.pure h

theorem attains_device_bind {β : Type} {b : β} {f : Device → RegionM β} {P : RegionState → Prop} :
    Attains (device >>= f) s b P ↔ Attains (f s.activation.link.device) s b P := Iff.rfl

/-! ## Strategies -/

/-- Bytes are copied at once. -/
theorem attains_submit {m : DeviceMemory} {target : Nat} {content : List UInt8}
    (h : s.Shows kernels args v) (bytes : content ≠ [])
    (written : v.device.memory.write target content = .ok m) :
    Attains (transfer (Strategy.immediate.submit target content)) s ()
      (RegionState.Shows kernels args
        { v with
          device := { v.device with
            memory := m
            transfers := v.device.transfers.recordSubmission content.length } }) :=
  attains_onDevice h fun _ shows => Device.attains_submit shows bytes written

/-- A pointer is patched at once. -/
theorem attains_patch {m : DeviceMemory} {p : PointerPatch} (h : s.Shows kernels args v)
    (written : v.device.memory.write p.deviceSlot (Word.toBytes p.deviceValue) = .ok m) :
    Attains (transfer (Strategy.immediate.patch p)) s ()
      (RegionState.Shows kernels args
        { v with
          device := { v.device with
            memory := m
            transfers := v.device.transfers.recordSubmission Word.bytes
            shadows := v.device.shadows.insert p.shadow } }) :=
  attains_onDevice h fun _ shows => Device.attains_patch shows written

/-- A copy waits. -/
theorem attains_stage {target : Nat} {content : List UInt8} (h : s.Shows kernels args v) :
    Attains (transfer (Strategy.bulk.submit target content)) s ()
      (RegionState.Shows kernels args { v with queue := v.queue.stage target content }) :=
  ⟨_, rfl, ⟨h.link, congrArg (·.stage target content) h.queue, h.host, h.arguments, h.scratch, h.launched,
    h.tableEntries⟩⟩

/-- A patch waits. -/
theorem attains_suspend {p : PointerPatch} (h : s.Shows kernels args v) :
    Attains (transfer (Strategy.bulk.patch p)) s ()
      (RegionState.Shows kernels args { v with queue := v.queue.suspend p.pending }) :=
  ⟨_, rfl, ⟨h.link, congrArg (·.suspend p.pending) h.queue, h.host, h.arguments, h.scratch, h.launched,
    h.tableEntries⟩⟩

/-- What waits is sent, the copies first. -/
theorem attains_flush {d d' : DeviceView} {summary : BatchSummary} {count : Nat}
    (h : s.Shows kernels args v)
    (copies : ∀ l : Link, l.Shows kernels v.device →
      Attains (Device.sendCopies v.queue.copies) l summary (Link.Shows kernels d))
    (patches : ∀ l : Link, l.Shows kernels d →
      Attains (Device.sendPatches v.queue.patches) l count (Link.Shows kernels d')) :
    Attains (transfer Strategy.bulk.flush) s count
      (RegionState.Shows kernels args { v with device := d', queue := {} }) := by
  refine lifts_transfer.attains (P := fun a => a.link.Shows kernels d' ∧ a.queue = {}) ?_
    fun a shows => ⟨shows.1, shows.2, h.host, h.arguments, h.scratch, h.launched, h.tableEntries⟩
  refine Attains.bind (a := summary)
    (P := fun a : Activation => a.link.Shows kernels d ∧ a.queue = v.queue.withoutCopies) ?_
    fun a shows => ?_
  · refine Attains.bind_get ?_
    rw [h.queue]
    refine (TransferM.attains_onQueue (P := fun a : Activation =>
      a.link.Shows kernels v.device ∧ a.queue = v.queue.withoutCopies) ?_).bind fun a shows => ?_
    · exact ⟨h.link, congrArg TransferQueue.withoutCopies h.queue⟩
    · exact TransferM.lifts_onDevice.attains (copies _ shows.1) fun _ link => ⟨link, shows.2⟩
  · refine Attains.bind_get ?_
    rw [shows.2]
    refine (TransferM.attains_onQueue (P := fun a : Activation =>
      a.link.Shows kernels d ∧ a.queue = {}) ?_).bind fun a shows => ?_
    · exact ⟨shows.1, congrArg TransferQueue.withoutPatches shows.2⟩
    · exact TransferM.lifts_onDevice.attains (patches _ shows.1) fun _ link => ⟨link, shows.2⟩

end RegionM

namespace Region

open RegionM

variable {a : Argument} {padded : Bool} {index : Nat} {u : Unit}

/-! ## Entering -/

/-- An argument that stands for itself and is not written back is mapped as one region. -/
theorem attains_mapArgument (h : s.Shows kernels args v) (ha : args.arguments[index]? = some a)
    (mapped : a.isMapped = true) (plain : a.mapType.has .nested = false)
    (ran : Attains (mapRegion settings (isPadded args index a) a) s none
      (RegionState.Shows kernels args w)) :
    Attains (mapArgument settings index) s () (RegionState.Shows kernels args w) := by
  refine attains_arguments_bind (h.arguments ▸ ArgumentList.get_eq_ok.2 ha) ?_
  rw [mapped, Bool.not_true, if_neg Bool.false_ne_true]
  refine Attains.bind_get ?_
  rw [h.arguments]
  refine attains_arguments_bind (h.arguments ▸ plans_of_get ha plain) ?_
  refine Attains.bind (a := none) (P := RegionState.Shows kernels args w) ?_ fun _ h => Attains.pure h
  refine Attains.bind_get ?_
  exact ran.bind fun _ h => Attains.pure h

section mapRegion

variable {addr base slot : Nat} {e : Mapping} {m : DeviceMemory} {d : DeviceView}

/-- The bytes of a section that was just mapped are sent. -/
theorem attains_copyIn (h : s.Shows kernels args v) (sends : a.mapType.has .toDevice = true)
    (sent : ∀ s : RegionState, s.Shows kernels args v →
      Attains (transfer (settings.strategy.submit addr (v.host.read a.start a.size))) s ()
        (RegionState.Shows kernels args w)) :
    Attains (copyIn settings a a.start a.size (some ⟨addr, true⟩)) s ()
      (RegionState.Shows kernels args w) := by
  rw [copyIn, sends, if_pos rfl, copiesIn, Bool.true_or, if_pos rfl]
  refine Attains.bind (Attains.pure h) fun s h => ?_
  rw [if_pos rfl]
  refine Attains.bind_get ?_
  rw [h.host]
  exact sent s h

variable (mapped : a.isMapped = true) (whole : mappedSection settings padded a = (a.start, a.size))
  (sends : a.mapType.has .toDevice = true) (silent : a.mapType.has .returnParam = false)
  (some : 0 < a.size) (free : (v.device.mappings.lookup a.start a.size).mapping? = none)
  (place : v.device.memory.allocate a.size = (.some addr, m))

include mapped whole sends silent some free place

/-- A section that nothing is mapped in gets a block of its own, and its bytes are sent there. -/
theorem attains_mapSection (h : s.Shows kernels args v) (plain : a.mapType.has .pointerAndObject = false)
    (sent : ∀ s : RegionState,
      s.Shows kernels args
        { v with device := v.device.mapped ⟨a.base, a.start, a.start + a.size, addr, .one⟩ m } →
      Attains (transfer (settings.strategy.submit addr (v.host.read a.start a.size))) s ()
        (RegionState.Shows kernels args w)) :
    Attains (mapRegion settings padded a) s none (RegionState.Shows kernels args w) := by
  unfold mapRegion
  rw [mapped, Bool.not_true, if_neg Bool.false_ne_true]
  dsimp only
  rw [whole, mapPointer]
  dsimp only
  rw [plain, if_neg Bool.false_ne_true]
  refine Attains.bind (Attains.pure h) fun s h => Attains.bind_get ?_
  refine (attains_onDevice h fun l shows => Device.attains_map_new shows some free place).bind fun s h => ?_
  refine (attains_copyIn h sends sent).bind fun s h => ?_
  refine Attains.bind (Attains.pure h) fun s h => ?_
  rw [silent]
  exact Attains.pure h

/-- A pointer in a mapped section is found there, the section that it points at gets a block of its own, its
bytes are sent, and the device copy of the pointer is patched. -/
theorem attains_mapPointee (h : s.Shows kernels args v) (pointer : a.mapType.has .pointerAndObject = true)
    (member : a.mapType.isMember = true)
    (found : (v.device.mappings.lookup a.base Word.bytes).mapping? = .some e)
    (within : (v.device.mappings.lookup a.base Word.bytes).isPartial = false)
    (value : v.host.readPointer a.base = base)
    (sent : ∀ s : RegionState,
      s.Shows kernels args
        { v with
          device := v.device.reused.mapped ⟨base, a.start, a.start + a.size, addr, .one⟩ m } →
      Attains (transfer (settings.strategy.submit addr (v.host.read a.start a.size))) s ()
        (RegionState.Shows kernels args w))
    {w' : RegionView}
    (patched : ∀ s : RegionState, s.Shows kernels args w →
      Attains (patchPointer settings a.start base (.some addr) (.some ⟨a.base, e.translate a.base⟩)) s ()
        (RegionState.Shows kernels args w')) :
    Attains (mapRegion settings padded a) s none (RegionState.Shows kernels args w') := by
  unfold mapRegion
  rw [mapped, Bool.not_true, if_neg Bool.false_ne_true]
  dsimp only
  rw [whole, mapPointer]
  dsimp only
  rw [pointer, if_pos rfl, member, Bool.not_true]
  refine Attains.bind (a := Option.some ⟨a.base, e.translate a.base⟩)
    (P := RegionState.Shows kernels args { v with device := v.device.reused }) ?_ fun s h => ?_
  · exact (attains_onDevice h fun l shows => Device.attains_map_found shows found within).bind
      fun s h => Attains.pure h
  · have free' : (v.device.reused.mappings.lookup a.start a.size).mapping? = none :=
      (congrArg Coverage.mapping? (MappingTable.lookup_congr rfl)).trans free
    refine Attains.bind_get ?_
    dsimp only [objectBase]
    rw [h.host, value]
    refine (attains_onDevice h fun l shows => Device.attains_map_new shows some free' place).bind
      fun s h => ?_
    refine (attains_copyIn h sends sent).bind fun s h => ?_
    refine (patched s h).bind fun s h => ?_
    rw [silent]
    exact Attains.pure h

end mapRegion

/-- Pointers that kernels translate themselves are not patched. -/
theorem attains_patchPointer_none {first base : Nat} {target? : Option Nat} {pointer? : Option MappedPointer}
    (h : s.Shows kernels args v) (translates : settings.config.translatesOnDevice = true) :
    Attains (patchPointer settings first base target? pointer?) s () (RegionState.Shows kernels args v) := by
  cases pointer? with
  | none => exact Attains.pure h
  | some pointer =>
      rw [patchPointer, translates, if_pos rfl]
      exact Attains.pure h

/-- A pointer is patched, now or later, by its strategy. -/
theorem attains_patchPointer {first base slot hostSlot target : Nat}
    (direct : settings.config.translatesOnDevice = false)
    (patched : Attains (transfer (settings.strategy.patch
      ⟨hostSlot, base, slot, first, Word.sub first base, some target⟩)) s ()
        (RegionState.Shows kernels args w)) :
    Attains (patchPointer settings first base (some target) (some ⟨hostSlot, slot⟩)) s ()
      (RegionState.Shows kernels args w) := by
  rw [patchPointer, direct, if_neg Bool.false_ne_true]
  exact patched.bind fun _ => attains_record

/-! ## Leaving -/

section leave

variable {e : Mapping} {m : DeviceMemory} {content : List UInt8}

/-- A held section is copied back. -/
theorem attains_copyBack {source : Nat} (h : s.Shows kernels args v)
    (back : a.mapType.has .fromDevice = true) (owner : isPlainMember a = false) (some : a.size ≠ 0)
    (found : v.device.memory.read source a.size = .ok content) :
    Attains (copyBack a a.start a.size source true) s true
      (RegionState.Shows kernels args
        { v with
          device := { v.device with transfers := v.device.transfers.recordRetrieval a.size }
          host := v.host.write a.start content }) := by
  change (a.mapType.isMember && !a.mapType.has .pointerAndObject) = false at owner
  rw [copyBack]
  dsimp only
  rw [back, if_pos rfl, owner, if_neg Bool.false_ne_true]
  refine Attains.bind (Attains.pure h) fun s h => ?_
  rw [Bool.true_or, Bool.true_or, if_pos rfl]
  refine (attains_onDevice h fun l shows => Device.attains_retrieve shows some found).bind fun s h => ?_
  exact (attains_writeHost h).bind fun s h => Attains.pure h

/-- The host has the pointers of a section that was copied back as they were, if they were patched. -/
theorem attains_restoreShadows {first size : Nat} (h : s.Shows kernels args v) :
    Attains (restoreShadows settings first size true true) s ()
      (RegionState.Shows kernels args
        (if settings.config.translatesOnDevice then v
        else
          { v with
            device := { v.device with
              shadows := v.device.shadows.eraseRange first (first + size) }
            host := v.host.restored (v.device.shadows.range first (first + size)) })) := by
  rw [restoreShadows]
  cases settings.config.translatesOnDevice with
  | true => exact Attains.pure h
  | false =>
      refine (attains_onDevice h fun l shows => Device.attains_visitShadows shows).bind fun s h => ?_
      exact attains_restorePointers _ h

variable (back : a.mapType.has .fromDevice = true) (kept : a.mapType.has .delete = false)
  (owner : isPlainMember a = false) (some : a.size ≠ 0)
  (found : (v.device.mappings.lookup a.start a.size).mapping? = .some e) (last : e.refCount = .one)
  (hostBegin : e.hostBegin = a.start) (hostEnd : e.hostEnd = a.start + a.size)
  (held : v.device.memory.read (e.translate a.start) a.size = .ok content)
  (freed : v.device.memory.free e.deviceBegin = (true, m))

include back kept owner some found last hostBegin hostEnd held freed

/-- A whole section with one reference is copied back, its pointers are put back, and it is removed. -/
theorem attains_releaseSection (h : s.Shows kernels args v)
    (whole : mappedSection settings padded a = (a.start, a.size)) :
    Attains (releaseSection settings padded a) s ()
      (RegionState.Shows kernels args
        (v.released (!settings.config.translatesOnDevice) e content m)) := by
  have removed : (a.mapType.isMember && !a.mapType.has .pointerAndObject) = false := owner
  have length : e.length = a.size := by
    rw [Mapping.length, hostBegin, hostEnd, Nat.add_sub_cancel_left]
  unfold releaseSection
  dsimp only
  rw [whole, removed]
  refine (attains_onDevice h fun l shows => Device.attains_hold_last shows found last).bind fun s h => ?_
  dsimp only
  rw [Bool.true_or, Bool.not_false, Bool.and_true]
  refine (attains_copyBack h back owner some held).bind fun s h => ?_
  refine (attains_restoreShadows h).bind fun s h => ?_
  rw [if_pos rfl, kept, RegionView.released, length, hostBegin, hostEnd]
  cases translates : settings.config.translatesOnDevice with
  | true =>
      rw [translates, if_pos rfl] at h
      have := attains_onDevice h fun l shows => Device.attains_unmap_last shows found last freed
      rw [hostBegin, hostEnd] at this
      exact this
  | false =>
      rw [translates, if_neg Bool.false_ne_true] at h
      have := attains_onDevice h fun l shows => Device.attains_unmap_last shows found last freed
      rw [hostBegin, hostEnd] at this
      dsimp only at this
      rw [AddressMap.eraseRange_eraseRange] at this
      exact this

theorem attains_unmapArgument (h : s.Shows kernels args v) (ha : args.arguments[index]? = .some a)
    (mapped : a.isMapped = true) (plain : a.mapType.has .nested = false)
    (whole : mappedSection settings (isPadded args index a) a = (a.start, a.size))
    (slot : (a.mapType.has .pointerAndObject && !a.mapType.isMember) = false) :
    Attains (unmapArgument settings index) s ()
      (RegionState.Shows kernels args
        (v.released (!settings.config.translatesOnDevice) e content m)) := by
  refine attains_arguments_bind (h.arguments ▸ ArgumentList.get_eq_ok.2 ha) ?_
  rw [mapped, Bool.not_true, if_neg Bool.false_ne_true]
  refine Attains.bind_get ?_
  rw [h.arguments]
  refine attains_arguments_bind (h.arguments ▸ plans_of_get ha plain) ?_
  rw [forRegions]
  refine Attains.bind_get ?_
  refine Attains.bind (a := ()) (P := RegionState.Shows kernels args
    (v.released (!settings.config.translatesOnDevice) e content m)) ?_ fun s h => Attains.pure h
  rw [unmapRegion, mapped, Bool.not_true, if_neg Bool.false_ne_true]
  refine (attains_releaseSection back kept owner some found last hostBegin hostEnd held freed h whole).bind
    fun s h => ?_
  rw [slot]
  exact Attains.pure h

end leave

/-! ## Launching -/

section launch

variable {staged : Staged} {target : Nat} {m m' : DeviceMemory} {d : DeviceView} {plan : LaunchPlan}

/-- A plain argument that is mapped is passed to the kernel. -/
theorem attains_stageArgument_pass (h : s.Shows kernels args v) (passed : a.mapType.has .targetParam = true)
    (plain : a.kind = .plain) (found : v.device.translate? a.start a.size = some target) :
    Attains (stageArgument staged index a) s (staged.pass target a.baseOffset)
      (RegionState.Shows kernels args v) := by
  rw [stageArgument, passed, if_pos rfl]
  refine Attains.bind (a := (target, a.baseOffset)) (P := RegionState.Shows kernels args v) ?_
    fun s h => Attains.pure h
  rw [kernelArgument, plain]
  dsimp only
  rw [attains_device_bind, h.link.translate?, found]
  exact Attains.pure h

/-- A pointer is left out unless it is a parameter itself. -/
theorem attains_stageArgument_skip (h : s.Shows kernels args v) (passed : a.mapType.has .targetParam = false)
    (pointer : a.kind = .pointerAndObject) :
    Attains (stageArgument staged index a) s staged.skip (RegionState.Shows kernels args v) := by
  rw [stageArgument, passed, if_neg Bool.false_ne_true, pointer]
  exact Attains.bind (Attains.pure h) fun s h => Attains.pure h

theorem attains_stageArguments_append {xs ys : List Argument} {staged' staged'' : Staged}
    {P Q : RegionState → Prop} (first : Attains (stageArguments staged index xs) s staged' P)
    (others : ∀ s, P s → Attains (stageArguments staged' (index + xs.length) ys) s staged'' Q) :
    Attains (stageArguments staged index (xs ++ ys)) s staged'' Q := by
  induction xs generalizing s staged index with
  | nil =>
      obtain ⟨s', ran, holds⟩ := first
      obtain ⟨rfl, rfl⟩ := returns_pure.1 ran
      exact others _ holds
  | cons a rest ih =>
      obtain ⟨s', ran, holds⟩ := first
      obtain ⟨next, s₁, one, more⟩ := returns_bind.1 ran
      obtain ⟨s₂, ran', holds'⟩ := ih ⟨s', more, holds⟩ fun s h => by
        rw [Nat.add_assoc, Nat.add_comm 1]
        exact others s h
      exact ⟨s₂, returns_bind.2 ⟨next, s₁, one, ran'⟩, holds'⟩

/-- Without tables a kernel gets the arguments alone. -/
theorem attains_stage_plain (h : s.Shows kernels args v) (direct : settings.config.translatesOnDevice = false)
    (ran : ∀ s : RegionState, s.Shows kernels args v →
      Attains (stageArguments {} 0 args.arguments) s staged (RegionState.Shows kernels args v)) :
    Attains (stage settings) s ⟨staged.arguments, staged.offsets, 0⟩ (RegionState.Shows kernels args v) := by
  rw [Config.translatesOnDevice, Bool.or_eq_false_iff] at direct
  obtain ⟨noTable, noList⟩ := direct
  unfold stage
  rw [stageAddressTable, noTable, if_neg Bool.false_ne_true]
  refine Attains.bind (Attains.pure h) fun s h => ?_
  rw [stageOffsetList, Option.not_isSome_iff_eq_none.1 (Bool.eq_false_iff.1 noList)]
  refine Attains.bind (Attains.pure h) fun s h => Attains.bind_get ?_
  rw [h.arguments]
  exact (ran s h).bind fun s h => Attains.pure h

/-- What a kernel gets behind its arguments when there is an address table. -/
def Staged.withTable (staged : Staged) (table : UploadedTable) (mask? : Option Nat) : Staged :=
  let staged := (staged.push table.target 0).push table.segments 0
  match mask? with
  | some mask => staged.push mask 0
  | none => staged

theorem attains_adopt (h : s.Shows kernels args v) :
    Attains (adopt target) s () (RegionState.Shows kernels args { v with scratch := v.scratch ++ [target] }) :=
  Attains.modify ⟨h.link, h.queue, h.host, h.arguments, congrArg (· ++ [target]) h.scratch, h.launched,
    h.tableEntries⟩

/-- With an address table, that is uploaded first. -/
theorem attains_stage_table {table : AddressTable} (h : s.Shows kernels args v)
    (wanted : settings.config.addressTable = true) (noList : settings.config.addressOffset = none)
    (sections : AddressTable.ofMappings v.device.mappings.toList = table)
    (place : v.device.memory.allocate table.encode.length = (some target, m))
    (written : m.write target table.encode = .ok m')
    (uploaded : { v.device with
      memory := m'
      transfers := v.device.transfers.recordAllocation.recordSubmission table.encode.length } = d)
    (ran : ∀ s : RegionState, s.Shows kernels args { v with device := d, scratch := v.scratch ++ [target] } →
      Attains (stageArguments {} 0 args.arguments) s staged
        (RegionState.Shows kernels args { v with device := d, scratch := v.scratch ++ [target] })) :
    Attains (stage settings) s
      ⟨(staged.withTable ⟨target, table.size⟩ settings.config.addressMask).arguments,
        (staged.withTable ⟨target, table.size⟩ settings.config.addressMask).offsets, table.size⟩
      (RegionState.Shows kernels args { v with device := d, scratch := v.scratch ++ [target] }) := by
  have some : table.encode ≠ [] := by
    refine List.ne_nil_of_length_pos ?_
    rw [AddressTable.length_encode]
    exact Nat.mul_pos (Nat.succ_pos _) (by decide)
  unfold stage
  rw [stageAddressTable, wanted, if_pos rfl]
  refine Attains.bind (a := Option.some ⟨target, table.size⟩) (P := RegionState.Shows kernels args
    { v with device := d, scratch := v.scratch ++ [target] }) ?_ fun s h => ?_
  · rw [attains_device_bind, Device.addressTable, h.link.mappings, sections]
    refine (attains_onDevice (x := ⟨target, table.size⟩) (d := d) h fun l shows => ?_).bind fun s h => ?_
    · rw [← uploaded]
      exact (Device.attains_upload shows some place written).bind fun l shows => Attains.pure shows
    · exact (attains_adopt h).bind fun s h => Attains.pure h
  · rw [stageOffsetList, noList]
    refine Attains.bind (Attains.pure h) fun s h => Attains.bind_get ?_
    rw [h.arguments]
    refine (ran s h).bind fun s h => ?_
    cases settings.config.addressMask with
    | none => exact Attains.pure h
    | some mask => exact Attains.pure h

/-- A kernel that runs to its end is counted, with the sections in its address table. -/
theorem attains_stageAndLaunch {entry : Nat} (staged : Attains (stage settings) s plan
      (RegionState.Shows kernels args v))
    (launched : ∀ l : Link, l.Shows kernels v.device →
      Attains (Device.launch entry plan.arguments plan.offsets .single) l () (Link.Shows kernels d)) :
    Attains (stageAndLaunch settings entry .single) s ()
      (RegionState.Shows kernels args
        { v with
          device := d
          launched := v.launched + 1
          tableEntries := v.tableEntries + plan.tableEntries }) := by
  refine staged.bind fun s h => (attains_onDevice h launched).bind fun s h => ?_
  refine (attains_record h).bind fun s h => Attains.modify ?_
  exact ⟨h.link, h.queue, h.host, h.arguments, h.scratch, congrArg (· + 1) h.launched,
    congrArg (· + plan.tableEntries) h.tableEntries⟩

theorem attains_freeScratch_nil (h : s.Shows kernels args v) (none : v.scratch = []) :
    Attains freeScratch s .none (RegionState.Shows kernels args v) := by
  refine Attains.bind_get ?_
  rw [h.scratch, none]
  refine Attains.bind (Attains.modify (P := RegionState.Shows kernels args v) ?_) fun s h => Attains.pure h
  exact ⟨h.link, h.queue, h.host, h.arguments, none.symm, h.launched, h.tableEntries⟩

theorem attains_freeScratch_single (h : s.Shows kernels args v) (one : v.scratch = [target])
    (freed : v.device.memory.free target = (true, m)) :
    Attains freeScratch s none
      (RegionState.Shows kernels args
        { v with
          device := { v.device with memory := m, transfers := v.device.transfers.recordDeallocation }
          scratch := [] }) := by
  refine Attains.bind_get ?_
  rw [h.scratch, one]
  refine Attains.bind (Attains.modify (P := RegionState.Shows kernels args { v with scratch := [] }) ?_)
    fun s h => ?_
  · exact ⟨h.link, h.queue, h.host, h.arguments, rfl, h.launched, h.tableEntries⟩
  · refine Attains.bind (a := none) (Attains.tryCatch ?_) fun s h => Attains.bind (a := none) (Attains.pure h)
      fun s h => Attains.pure h
    exact (attains_onDevice h fun l shows => Device.attains_free shows freed).bind fun s h => Attains.pure h

/-- A region without faults enters, launches its kernel, frees its blocks and leaves. -/
theorem attains_run {entry : Nat} {P Q R S : RegionState → Prop} (entered : Attains (enter settings) s () P)
    (launched : ∀ s, P s → Attains (stageAndLaunch settings entry .single) s () Q)
    (freed : ∀ s, Q s → Attains freeScratch s none R)
    (left : ∀ s, R s → Attains (leave settings) s () S) :
    Attains (run settings entry .single) s () S :=
  entered.bind fun s holds => (Attains.tryCatch (launched s holds)).bind fun s holds =>
    (freed s holds).bind left

end launch

end Region

end Offloading
