import Offloading.Device.Upload
import Offloading.Proofs.Attains
import Offloading.Proofs.MappingLife
/-!
# Devices without faults

On an accelerator that lets no call fail, every operation of a device is decided by little: the mappings,
the patched pointers, the counters and the device memory. For each operation it is said here when it
succeeds, and what it then makes of these four.
-/

namespace Offloading

namespace Accelerator

variable {a : Accelerator} {kernels : List Kernel} {unit : Int} {m m' : DeviceMemory} {β : Type} {b : β}
  {addr size : Nat} {content : List UInt8}

/-- No call fails, and the device has the memory `m`. -/
structure Serves (kernels : List Kernel) (unit : Int) (m : DeviceMemory) (a : Accelerator) : Prop where
  schedule : ∀ call n, a.schedule call n = false
  kernels : a.kernels = kernels
  memory : a.memory? unit = some m

theorem Serves.withMemory (h : a.Serves kernels unit m) (m' : DeviceMemory) :
    (a.withMemory unit m').Serves kernels unit m' :=
  ⟨h.schedule, h.kernels, memory?_withMemory h.memory⟩

theorem attains_attempt (h : a.Serves kernels unit m) (call : CallKind) :
    Attains (attempt call) a () (Serves kernels unit m) := by
  refine ⟨{ a with calls := a.calls.add call }, ?_, ⟨h.schedule, h.kernels, h.memory⟩⟩
  change exec ((if a.schedule call (a.calls.of call) then throw (AcceleratorError.injected call)
    else pure ()) : AcceleratorM Unit)
    { a with calls := a.calls.add call } = _
  rw [h.schedule, if_neg Bool.false_ne_true]
  rfl

theorem attains_memory_bind {f : DeviceMemory → AcceleratorM β} {Q : Accelerator → Prop}
    (h : a.Serves kernels unit m) (hf : Attains (f m) a b Q) : Attains (memory unit >>= f) a b Q := by
  obtain ⟨a', ran, holds⟩ := hf
  exact ⟨a', returns_memory_bind.2 ⟨m, h.memory, ran⟩, holds⟩

theorem attains_noting {service : Service} {x : AcceleratorM β}
    (hx : Attains x a b (Serves kernels unit m)) :
    Attains (noting unit service x) a b (Serves kernels unit m) := by
  obtain ⟨a', ran, h⟩ := hx
  exact ⟨_, returns_noting.2 ⟨a', ran, rfl⟩, ⟨h.schedule, h.kernels, h.memory⟩⟩

theorem attains_allocate (h : a.Serves kernels unit m) (place : m.allocate size = (some addr, m')) :
    Attains (allocate unit size) a addr (Serves kernels unit m') := by
  refine (attains_attempt h .allocate).bind fun a h => attains_memory_bind h ?_
  rw [place]
  exact Attains.pure (h.withMemory m')

theorem attains_delete (h : a.Serves kernels unit m) (freed : m.free addr = (true, m')) :
    Attains (delete unit addr) a () (Serves kernels unit m') := by
  refine Attains.tryCatch ?_
  have noted : (a.noted unit (.released addr)).Serves kernels unit m :=
    ⟨h.schedule, h.kernels, h.memory⟩
  refine Attains.bind (P := Serves kernels unit m) ⟨_, rfl, noted⟩ fun a h => ?_
  refine (attains_attempt h .delete).bind fun a h => attains_memory_bind h ?_
  rw [freed]
  exact Attains.pure (h.withMemory m')

theorem attains_store {c : Chunk} (h : a.Serves kernels unit m)
    (written : m.write c.target c.content = .ok m') :
    Attains (store unit c) a () (Serves kernels unit m') := by
  refine attains_memory_bind h ?_
  rw [written]
  exact Attains.modify (h.withMemory m')

theorem attains_send {c : Chunk} (h : a.Serves kernels unit m)
    (written : m.write c.target c.content = .ok m') :
    Attains (send unit c) a () (Serves kernels unit m') :=
  (attains_attempt h .submit).bind fun _ h => attains_store h written

theorem attains_submit {c : Chunk} (h : a.Serves kernels unit m)
    (written : m.write c.target c.content = .ok m') :
    Attains (submit unit c) a () (Serves kernels unit m') :=
  attains_noting (attains_send h written)

theorem attains_retrieve (h : a.Serves kernels unit m) (found : m.read addr size = .ok content) :
    Attains (retrieve unit addr size) a content (Serves kernels unit m) := by
  refine attains_noting ((attains_attempt h .retrieve).bind fun a h => attains_memory_bind h ?_)
  rw [found]
  exact Attains.pure h

/-- Chunks that are stored one by one are all stored. -/
theorem attains_each {x : Chunk → AcceleratorM Unit} {chunks : List Chunk}
    (each : ∀ {a : Accelerator} {m m' : DeviceMemory} {c : Chunk}, a.Serves kernels unit m →
      m.write c.target c.content = .ok m' → Attains (x c) a () (Serves kernels unit m'))
    (h : a.Serves kernels unit m) (stored : storeAll m chunks = .ok m') :
    Attains (chunks.forM x) a () (Serves kernels unit m') := by
  induction chunks generalizing a m with
  | nil =>
      cases stored
      exact Attains.pure h
  | cons c rest ih =>
      obtain ⟨n, written, more⟩ := storeAll_cons.1 stored
      exact attains_forM_cons (each h written) fun a h => ih h more

/-- A batch is stored, be it served as a whole or chunk by chunk. -/
theorem attains_submitBatch {chunks : List Chunk} (h : a.Serves kernels unit m)
    (stored : storeAll m chunks = .ok m') :
    Attains (submitBatch unit chunks) a () (Serves kernels unit m') := by
  refine attains_noting (Attains.bind_get ?_)
  cases a.wholeBatches with
  | true =>
      refine (attains_attempt h .batch).bind fun a h => attains_memory_bind h ?_
      refine (attains_each attains_store h stored).bind fun a h => Attains.modify ?_
      exact ⟨h.schedule, h.kernels, h.memory⟩
  | false => exact attains_each attains_send h stored

theorem attains_run {entry tripCount : Nat} {arguments : List Nat} {offsets : List Int} {kernel : Kernel}
    {displaced : List Nat} {reports : List KernelReport} (h : a.Serves kernels unit m)
    (lengths : arguments.length = offsets.length)
    (found : kernels[entry - kernelBase]? = some kernel) (above : kernelBase ≤ entry)
    (values : List.zipWith Word.displace arguments offsets = displaced)
    (ran : (kernel.body ⟨displaced, 1, 1, 0⟩).run.run m = ⟨.ok (), m', reports⟩) :
    Attains (run unit entry arguments offsets .single tripCount) a () (Serves kernels unit m') := by
  refine attains_noting ((attains_attempt h .run).bind fun a h => ?_)
  have at? : a.kernelAt? entry = some kernel := by
    rw [kernelAt?, if_neg (by omega), h.kernels, found]
  simp only [lengths, ne_eq, not_true_eq_false, if_false]
  refine Attains.bind_get ?_
  rw [at?]
  refine attains_memory_bind h ?_
  rw [values, ran]
  refine Attains.bind (P := Serves kernels unit m') ⟨_, rfl, h.withMemory m'⟩ fun a h => ?_
  refine Attains.bind (P := Serves kernels unit m') (Attains.modify ?_) fun a h => Attains.pure h
  exact ⟨h.schedule, h.kernels, h.memory⟩

end Accelerator

/-- What decides the operations of a device without faults. -/
structure DeviceView where
  /-- The live mappings. -/
  mappings : MappingTable
  /-- The patched pointers. -/
  shadows : ShadowTable
  /-- What was moved, allocated and launched. -/
  transfers : TransferStats
  /-- The memory of the device. -/
  memory : DeviceMemory

/-- The first device, ready for use and without faults, with these kernels and with what the view shows. -/
structure Link.Shows (kernels : List Kernel) (v : DeviceView) (l : Link) : Prop where
  id : l.device.id = 0
  prepared : l.device.prepared = some (.ok ())
  pending : l.device.pending = false
  mappings : l.device.mappings = v.mappings
  shadows : l.device.shadows = v.shadows
  transfers : l.device.transfers = v.transfers
  serves : l.accelerator.Serves kernels l.device.unit v.memory

namespace DeviceView

/-- Where a host section lies on the device, if it meets a mapping. -/
def translate? (v : DeviceView) (first size : Nat) : Option Nat :=
  (v.mappings.lookup first size).mapping?.map (·.translate first)

/-- The shadow that a pending patch gets, if its pointer is mapped. -/
def resolve? (v : DeviceView) (p : PendingPatch) : Option ShadowPointer :=
  (v.translate? p.hostSlot Word.bytes).map fun slot =>
    ⟨p.hostSlot, p.hostValue, slot, (v.translate? p.pointee 0).elim 0 (Word.sub · p.delta)⟩

end DeviceView

namespace Link.Shows

variable {kernels : List Kernel} {v : DeviceView} {l : Link} {first size : Nat}

theorem translate? (h : l.Shows kernels v) : l.device.translate? first size = v.translate? first size := by
  rw [Device.translate?, DeviceView.translate?, h.mappings]

theorem resolve? (h : l.Shows kernels v) : l.device.resolve? = v.resolve? := by
  funext p
  rw [Device.resolve?, DeviceView.resolve?, h.translate?, h.translate?]
  cases v.translate? p.pointee 0 with
  | none => rfl
  | some _ => rfl

end Link.Shows

namespace DeviceM

variable {kernels : List Kernel} {v : DeviceView} {l : Link} {α : Type} {a : α} {m : DeviceMemory}

theorem attains_call {wrap : AcceleratorError → DeviceError} {x : AcceleratorM α} (h : l.Shows kernels v)
    (hx : Attains x l.accelerator a (Accelerator.Serves kernels l.device.unit m)) :
    Attains (call wrap x) l a (Link.Shows kernels { v with memory := m }) :=
  lifts_call.attains hx fun _ serves =>
    ⟨h.id, h.prepared, h.pending, h.mappings, h.shadows, h.transfers, serves⟩

theorem attains_device_bind {β : Type} {b : β} {f : Device → DeviceM β} {P : Link → Prop} :
    Attains (device >>= f) l b P ↔ Attains (f l.device) l b P := Iff.rfl

theorem attains_modifyDevice {f : Device → Device} {P : Link → Prop}
    (h : P { l with device := f l.device }) : Attains (modifyDevice f) l () P := Attains.modify h

theorem attains_count {f : TransferStats → TransferStats} (h : l.Shows kernels v) :
    Attains (count f) l () (Link.Shows kernels { v with transfers := f v.transfers }) :=
  Attains.modify ⟨h.id, h.prepared, h.pending, h.mappings, h.shadows, congrArg f h.transfers, h.serves⟩

theorem attains_modifyMappings {f : MappingTable → MappingTable} (h : l.Shows kernels v) :
    Attains (modifyMappings f) l () (Link.Shows kernels { v with mappings := f v.mappings }) :=
  Attains.modify ⟨h.id, h.prepared, h.pending, congrArg f h.mappings, h.shadows, h.transfers, h.serves⟩

end DeviceM

namespace Device

open DeviceM

variable {kernels : List Kernel} {v : DeviceView} {l : Link} {m m' : DeviceMemory} {e : Mapping}
  {first base size addr target : Nat} {implicit updateRef : Bool} {content : List UInt8}

/-! ## Memory -/

theorem attains_allocate (h : l.Shows kernels v) (place : v.memory.allocate size = (some addr, m)) :
    Attains (allocate size) l addr
      (Link.Shows kernels { v with memory := m, transfers := v.transfers.recordAllocation }) :=
  (attains_call h (Accelerator.attains_allocate h.serves place)).bind fun _ h =>
    (attains_count h).bind fun _ h => Attains.pure h

theorem attains_free (h : l.Shows kernels v) (freed : v.memory.free addr = (true, m)) :
    Attains (free addr) l ()
      (Link.Shows kernels { v with memory := m, transfers := v.transfers.recordDeallocation }) :=
  (attains_call h (Accelerator.attains_delete h.serves freed)).bind fun _ h => attains_count h

theorem attains_submit (h : l.Shows kernels v) (bytes : content ≠ [])
    (written : v.memory.write target content = .ok m) :
    Attains (submit target content) l ()
      (Link.Shows kernels
        { v with memory := m, transfers := v.transfers.recordSubmission content.length }) := by
  rw [submit, if_neg (by simpa using bytes)]
  exact (attains_call h (Accelerator.attains_submit h.serves written)).bind fun _ h => attains_count h

theorem attains_retrieve (h : l.Shows kernels v) (some : size ≠ 0)
    (found : v.memory.read addr size = .ok content) :
    Attains (retrieve addr size) l content
      (Link.Shows kernels { v with transfers := v.transfers.recordRetrieval size }) := by
  rw [retrieve, if_neg some]
  exact (attains_call h (Accelerator.attains_retrieve h.serves found)).bind fun _ h =>
    (attains_count h).bind fun _ h => Attains.pure h

theorem attains_submitBatch {chunks : List Chunk} (h : l.Shows kernels v)
    (stored : Accelerator.storeAll v.memory chunks = .ok m) :
    Attains (submitBatch chunks) l ⟨chunks.length, Chunk.totalLength chunks⟩
      (Link.Shows kernels
        { v with
          memory := m
          transfers := v.transfers.recordBatch chunks.length (Chunk.totalLength chunks) }) :=
  (attains_call h (Accelerator.attains_submitBatch h.serves stored)).bind fun _ h =>
    (attains_count h).bind fun _ h => Attains.pure h

/-- A block of its own for some bytes. -/
theorem attains_upload (h : l.Shows kernels v) (bytes : content ≠ [])
    (place : v.memory.allocate content.length = (some target, m))
    (written : m.write target content = .ok m') :
    Attains (upload content) l target
      (Link.Shows kernels
        { v with
          memory := m'
          transfers := v.transfers.recordAllocation.recordSubmission content.length }) := by
  refine (attains_allocate h place).bind fun l h => ?_
  exact (Attains.tryCatch (attains_submit h bytes written)).bind fun _ h => Attains.pure h

theorem attains_launch {entry : Nat} {arguments : List Nat} {offsets : List Int} {kernel : Kernel}
    {displaced : List Nat} {reports : List KernelReport} (h : l.Shows kernels v)
    (lengths : arguments.length = offsets.length)
    (found : kernels[entry - Accelerator.kernelBase]? = some kernel)
    (above : Accelerator.kernelBase ≤ entry)
    (values : List.zipWith Word.displace arguments offsets = displaced)
    (ran : (kernel.body ⟨displaced, 1, 1, 0⟩).run.run v.memory = ⟨.ok (), m, reports⟩) :
    Attains (launch entry arguments offsets .single) l ()
      (Link.Shows kernels { v with memory := m, transfers := v.transfers.recordLaunch }) := by
  refine Attains.bind (a := 0) (P := Link.Shows kernels v) (Attains.pure h) fun l h => Attains.bind_get ?_
  exact (attains_call h (Accelerator.attains_run h.serves lengths found above values ran)).bind fun _ h =>
    attains_count h

/-! ## Mappings -/

theorem attains_insertMapping (h : l.Shows kernels v) (some : e.hostBegin < e.hostEnd)
    (free : (v.mappings.lookup e.hostBegin e.length).mapping? = none) :
    Attains (insertMapping e) l ()
      (Link.Shows kernels { v with mappings := (v.mappings.insert e).2 }) := by
  rw [insertMapping, attains_device_bind, h.mappings, MappingTable.insert_eq some free]
  exact (attains_modifyMappings h).bind fun _ h => Attains.pure h

/-- A section that meets no mapping is mapped to a new block. -/
theorem attains_map_new (h : l.Shows kernels v) (some : 0 < size)
    (free : (v.mappings.lookup first size).mapping? = none)
    (place : v.memory.allocate size = (.some addr, m)) :
    Attains (map first base size implicit updateRef) l (.some ⟨addr, true⟩)
      (Link.Shows kernels
        { v with
          mappings := (v.mappings.insert ⟨base, first, first + size, addr, .one⟩).2
          memory := m
          transfers := v.transfers.recordAllocation }) := by
  have length : Mapping.length ⟨base, first, first + size, addr, .one⟩ = size :=
    Nat.add_sub_cancel_left first size
  rw [map, attains_device_bind]
  dsimp only
  rw [h.mappings, free]
  dsimp only
  rw [if_neg (by omega)]
  refine (attains_allocate h place).bind fun l h => ?_
  refine (attains_insertMapping h ?_ ?_).bind fun _ h => Attains.pure h
  · change first < first + size
    omega
  · rw [length]
    exact free

/-- A section within a mapping is found there, and nothing but counters changes. -/
theorem attains_map_found (h : l.Shows kernels v) (found : (v.mappings.lookup first size).mapping? = some e)
    (within : (v.mappings.lookup first size).isPartial = false) :
    Attains (map first base size implicit false) l (some ⟨e.translate first, false⟩)
      (Link.Shows kernels { v with mappings := v.mappings.recordReuse }) := by
  have same := MappingTable.setCount_self (MappingTable.mem_of_lookup found)
  rw [map, attains_device_bind]
  dsimp only
  rw [h.mappings, found, within]
  refine (attains_modifyMappings h).bind fun _ h => ?_
  rw [if_neg Bool.false_ne_true, same] at h
  exact Attains.pure h

/-- A mapping with one reference is about to be removed. -/
theorem attains_hold_last (h : l.Shows kernels v) (found : (v.mappings.lookup first size).mapping? = some e)
    (last : e.refCount = .one) :
    Attains (hold first size updateRef) l (some ⟨e.translate first, true⟩) (Link.Shows kernels v) := by
  have isLast : e.refCount.isLast = true := by
    rw [last]
    decide
  rw [hold, attains_device_bind, h.mappings, found]
  dsimp only
  rw [isLast, Bool.not_true, Bool.and_false]
  exact Attains.pure h

/-- With its last reference a mapping goes away, with the patched pointers in its section and its block. -/
theorem attains_unmap_last (h : l.Shows kernels v) (found : (v.mappings.lookup first size).mapping? = some e)
    (last : e.refCount = .one) (freed : v.memory.free e.deviceBegin = (true, m)) :
    Attains (unmap first size false) l ()
      (Link.Shows kernels
        { mappings := (v.mappings.remove e.hostBegin).2
          shadows := v.shadows.eraseRange e.hostBegin e.hostEnd
          memory := m
          transfers := v.transfers.recordDeallocation }) := by
  have finite : e.refCount.isInfinite = false := by
    rw [last]
    decide
  have gone : ¬ 0 < e.refCount.decrement.value := by
    rw [last]
    decide
  rw [unmap, attains_device_bind, h.mappings, found]
  dsimp only
  rw [finite, if_neg Bool.false_ne_true, if_neg Bool.false_ne_true, if_neg gone]
  refine (attains_modifyDevice (P := Link.Shows kernels { v with
    mappings := (v.mappings.remove e.hostBegin).2
    shadows := v.shadows.eraseRange e.hostBegin e.hostEnd }) ?_).bind fun l h => ?_
  · refine ⟨h.id, h.prepared, h.pending, ?_, ?_, h.transfers, h.serves⟩
    · dsimp only
      rw [h.mappings]
    · dsimp only
      rw [h.shadows]
  · exact attains_free h freed

/-! ## Patched pointers -/

theorem attains_recordShadow {x : ShadowPointer} (h : l.Shows kernels v) :
    Attains (recordShadow x) l () (Link.Shows kernels { v with shadows := v.shadows.insert x }) :=
  Attains.modify ⟨h.id, h.prepared, h.pending, h.mappings, congrArg (·.insert x) h.shadows, h.transfers,
    h.serves⟩

theorem attains_recordShadows (shadows : List ShadowPointer) (h : l.Shows kernels v) :
    Attains (shadows.forM recordShadow) l ()
      (Link.Shows kernels { v with shadows := shadows.foldl AddressMap.insert v.shadows }) :=
  ⟨_, exec_recordShadows shadows l, ⟨h.id, h.prepared, h.pending, h.mappings,
    congrArg (shadows.foldl AddressMap.insert ·) h.shadows, h.transfers, h.serves⟩⟩

theorem attains_patch {x : ShadowPointer} (h : l.Shows kernels v)
    (written : v.memory.write x.deviceSlot (Word.toBytes x.deviceValue) = .ok m) :
    Attains (patch x) l ()
      (Link.Shows kernels
        { v with
          memory := m
          transfers := v.transfers.recordSubmission Word.bytes
          shadows := v.shadows.insert x }) := by
  have some : Word.toBytes x.deviceValue ≠ [] := List.ne_nil_of_length_pos (by simp)
  refine (attains_submit h some written).bind fun l h => ?_
  rw [Word.length_toBytes] at h
  exact attains_recordShadow h

theorem attains_visitShadows {lower upper : Nat} (h : l.Shows kernels v) :
    Attains (visitShadows lower upper true) l (v.shadows.range lower upper)
      (Link.Shows kernels { v with shadows := v.shadows.eraseRange lower upper }) := by
  rw [visitShadows, attains_device_bind, h.shadows]
  refine (attains_modifyDevice (P := Link.Shows kernels { v with
    shadows := v.shadows.eraseRange lower upper }) ?_).bind fun _ h => Attains.pure h
  exact ⟨h.id, h.prepared, h.pending, h.mappings, rfl, h.transfers, h.serves⟩

/-! ## Staged transfers -/

theorem attains_sendCopies_nil (h : l.Shows kernels v) :
    Attains (sendCopies []) l {} (Link.Shows kernels v) := Attains.pure h

theorem attains_sendCopies {copies : List StagedCopy} {chunks : List Chunk} (h : l.Shows kernels v)
    (some : copies ≠ []) (sorted : StagedCopy.chunks copies = chunks)
    (stored : Accelerator.storeAll v.memory chunks = .ok m) :
    Attains (sendCopies copies) l ⟨chunks.length, Chunk.totalLength chunks⟩
      (Link.Shows kernels
        { v with
          memory := m
          transfers := v.transfers.recordBatch chunks.length (Chunk.totalLength chunks) }) := by
  rw [sendCopies, if_neg (by simpa using some), sorted]
  exact attains_submitBatch h stored

theorem attains_sendPatches_nil (h : l.Shows kernels v) :
    Attains (sendPatches []) l 0 (Link.Shows kernels v) := Attains.pure h

theorem attains_sendPatches {patches : List PendingPatch} {shadows : List ShadowPointer}
    {chunks : List Chunk} (h : l.Shows kernels v) (some : patches ≠ [])
    (resolved : patches.mapM v.resolve? = .some shadows)
    (values : (shadows.map fun s => ⟨s.deviceSlot, Word.toBytes s.deviceValue⟩) = chunks)
    (stored : Accelerator.storeAll v.memory chunks = .ok m) :
    Attains (sendPatches patches) l patches.length
      (Link.Shows kernels
        { v with
          memory := m
          transfers := v.transfers.recordBatch chunks.length (Chunk.totalLength chunks)
          shadows := shadows.foldl AddressMap.insert v.shadows }) := by
  rw [sendPatches, if_neg (by simpa using some)]
  refine Attains.bind (a := shadows) (P := Link.Shows kernels v)
    ⟨l, returns_resolvePatches.2 ⟨h.resolve? ▸ resolved, rfl⟩, h⟩ fun l h => ?_
  rw [values]
  refine (attains_submitBatch h stored).bind fun l h => ?_
  refine (attains_recordShadows shadows h).bind fun _ h => Attains.pure h

end Device

end Offloading
