import Offloading.Proofs.Link
import Offloading.Proofs.Services
/-!
# What operations on a device are made of

An operation changes the tables of its device and calls the accelerator, for which it counts what was
done. A relation that allows each of these steps is kept by all operations.
-/

namespace Offloading

/-- The count goes up by what the service amounts to. -/
structure TransferStats.Counts (f : TransferStats → TransferStats) (service : Service) : Prop where
  allocations : ∀ t, (f t).allocations = t.allocations
  deallocations : ∀ t, (f t).deallocations = t.deallocations
  submittedBytes : ∀ t, (f t).submittedBytes = t.submittedBytes + service.bytesIn
  retrievedBytes : ∀ t, (f t).retrievedBytes = t.retrievedBytes + service.bytesOut
  launches : ∀ t, (f t).launches = t.launches + if service.isRan then 1 else 0
  placed : service.isPlaced = false
  released : service.released? = none

namespace Device

open DeviceM

section counted

variable {α β : Type}

/-- The call `x` does one thing for the device if it succeeds, and then `k` counts it. -/
structure Counted (l : Link) (service : Service) (x : AcceleratorM α)
    (f : TransferStats → TransferStats) (k : α → DeviceM β) : Prop where
  notes : Accelerator.Notes Accelerator.Steady l.device.unit service x
  apart : ∀ other ≠ l.device.unit, Along (Accelerator.Apart other) x
  wellFormed : Along (Kept Accelerator.WellFormed) x
  amounts : TransferStats.Counts f service
  counts : ∀ v l, (exec (k v) l).2 =
    { l with device := { l.device with transfers := f l.device.transfers } }

end counted

/-- The relation allows all that operations are made of, except that a block is released. -/
structure Steps (R : Link → Link → Prop) : Prop where
  quiet : ∀ {l l' : Link}, l'.device.unit = l.device.unit →
    l'.device.transfers = l.device.transfers → l.accelerator.Quiet l'.accelerator → R l l'
  counted : ∀ {α β : Type} {l : Link} {wrap : AcceleratorError → DeviceError} {x : AcceleratorM α}
    {service : Service} {f : TransferStats → TransferStats} {k : α → DeviceM β},
    Counted l service x f k → R l (exec (call wrap x >>= k) l).2
  allocate : ∀ {size}, Along R (allocate size)

/-- The relation allows all that operations are made of. -/
structure AllSteps (R : Link → Link → Prop) : Prop extends Steps R where
  free : ∀ {addr}, Along R (free addr)

namespace Steps

variable {R : Link → Link → Prop} (steps : Steps R)

include steps

theorem modifyDevice {f : Device → Device} (unit : ∀ d, (f d).unit = d.unit)
    (transfers : ∀ d, (f d).transfers = d.transfers) : Along R (modifyDevice f) :=
  Along.modify fun l => steps.quiet (unit l.device) (transfers l.device) rfl

theorem modifyMappings {f : MappingTable → MappingTable} : Along R (modifyMappings f) :=
  steps.modifyDevice (fun _ => rfl) fun _ => rfl

theorem recordShadow {s : ShadowPointer} : Along R (recordShadow s) :=
  steps.modifyDevice (fun _ => rfl) fun _ => rfl

theorem pushTripCount {n : Nat} : Along R (pushTripCount n) :=
  steps.modifyDevice (fun _ => rfl) fun _ => rfl

theorem submitBatch {chunks : List Chunk} : Along R (submitBatch chunks) := by
  refine along_device_bind fun l => ?_
  refine steps.counted (f := (·.recordBatch chunks.length (Chunk.totalLength chunks)))
    ⟨Accelerator.steady_submitBatch, fun _ ne => Accelerator.apart_submitBatch ne, ?_,
      ⟨fun _ => rfl, fun _ => rfl, fun _ => rfl, fun _ => rfl, fun _ => rfl, rfl, rfl⟩, fun _ _ => rfl⟩
  exact (Accelerator.notes_submitBatch Accelerator.Quiet.wellFormed fun hm hw =>
    (Accelerator.rewritten_write hm hw).wellFormed).along Accelerator.overlooks_wellFormed

variable [Lasting R]

theorem prepare : Along R prepare := by
  refine along_device_bind fun l => ?_
  have tried : ∀ prepared, R l
      ⟨{ l.device with prepared }, (exec (Accelerator.initialise l.device.unit) l.accelerator).2⟩ :=
    fun prepared => steps.quiet rfl rfl
      (Accelerator.along_initialise (R := Accelerator.Quiet) (fun h => h) l.accelerator)
  cases hp : l.device.prepared with
  | some outcome =>
      cases outcome with
      | ok _ => exact Lasting.refl l
      | error e => exact Lasting.refl l
  | none =>
      rcases hr : exec (Accelerator.initialise l.device.unit) l.accelerator with ⟨outcome, a⟩
      rw [hr] at tried
      have run : (Accelerator.initialise l.device.unit).run.run l.accelerator = (outcome, a) := hr
      dsimp only
      rw [exec_get_bind, run]
      cases outcome with
      | ok _ => exact tried _
      | error e => exact tried _

theorem submit {target : Nat} {content : List UInt8} : Along R (submit target content) := by
  refine Along.ite Along.pure (along_device_bind fun l => ?_)
  refine steps.counted (f := (·.recordSubmission content.length))
    ⟨Accelerator.steady_submit, fun _ ne => Accelerator.apart_submit ne, ?_,
      ⟨fun _ => rfl, fun _ => rfl, fun _ => rfl, fun _ => rfl, fun _ => rfl, rfl, rfl⟩, fun _ _ => rfl⟩
  exact (Accelerator.notes_submit Accelerator.Quiet.wellFormed fun hm hw =>
    (Accelerator.rewritten_write hm hw).wellFormed).along Accelerator.overlooks_wellFormed

theorem retrieve {target size : Nat} : Along R (retrieve target size) := by
  refine Along.ite Along.pure (along_device_bind fun l => ?_)
  refine steps.counted (f := (·.recordRetrieval size))
    ⟨Accelerator.steady_retrieve, fun _ ne => Accelerator.apart_retrieve ne, ?_,
      ⟨fun _ => rfl, fun _ => rfl, fun _ => rfl, fun _ => rfl, fun _ => rfl, rfl, rfl⟩, fun _ _ => rfl⟩
  exact (Accelerator.notes_retrieve Accelerator.Quiet.wellFormed).along
    Accelerator.overlooks_wellFormed

theorem launch {entry : Nat} {arguments : List Nat} {offsets : List Int} {kind : LaunchKind} :
    Along R (launch entry arguments offsets kind) := by
  have run : ∀ tripCount, Along R (do
      let d ← device
      call (.launchFailed d.id entry)
        (Accelerator.run d.unit entry arguments offsets kind tripCount)
      count .recordLaunch) := by
    refine fun tripCount => along_device_bind fun l => ?_
    refine steps.counted (f := TransferStats.recordLaunch)
      ⟨Accelerator.steady_run, fun _ ne => Accelerator.apart_run ne, ?_,
        ⟨fun _ => rfl, fun _ => rfl, fun _ => rfl, fun _ => rfl, fun _ => rfl, rfl, rfl⟩, fun _ _ => rfl⟩
    exact (Accelerator.notes_run Accelerator.Quiet.wellFormed fun code hm =>
      (Accelerator.rewritten_code code hm).wellFormed).along Accelerator.overlooks_wellFormed
  unfold Device.launch
  cases kind with
  | single => exact Along.pure.bind run
  | teams numTeams threadLimit =>
      refine Along.bind (Along.get.bind fun _ => Along.bind ?_ fun _ => Along.pure) run
      exact steps.modifyDevice (fun _ => rfl) fun _ => rfl

/-! ## Mappings -/

theorem insertMapping {m : Mapping} : Along R (insertMapping m) := by
  refine Along.get.bind fun _ => Along.bind steps.modifyMappings fun _ => ?_
  split
  · exact Along.pure
  · exact Along.throw

theorem map {first base size : Nat} {implicit updateRef : Bool} :
    Along R (map first base size implicit updateRef) := by
  refine along_device_bind fun l => ?_
  dsimp only
  split
  · exact Along.ite (steps.modifyMappings.bind fun _ => Along.throw)
      (steps.modifyMappings.bind fun _ => Along.pure) l
  · exact Along.ite Along.pure (steps.allocate.bind fun _ =>
      steps.insertMapping.bind fun _ => Along.pure) l

theorem hold {first size : Nat} {updateRef : Bool} : Along R (hold first size updateRef) := by
  refine Along.get.bind fun l => ?_
  split
  · exact Along.pure
  · exact Along.ite (steps.modifyMappings.bind fun _ => Along.pure) Along.pure

theorem associate {first target size : Nat} : Along R (associate first target size) := by
  refine along_device_bind fun l => ?_
  dsimp only
  split
  · exact Along.ite Along.pure Along.throw l
  · exact steps.insertMapping l

theorem disassociate {first : Nat} : Along R (disassociate first) := by
  refine Along.get.bind fun l => ?_
  split
  · exact Along.throw
  · exact Along.ite steps.modifyMappings Along.throw

theorem mapGlobal {first target size : Nat} : Along R (mapGlobal first target size) :=
  Along.get.bind fun _ => Along.ite Along.pure (steps.insertMapping.bind fun _ => Along.pure)

/-! ## Patched pointers -/

theorem visitShadows {lower upper : Nat} {erase : Bool} :
    Along R (visitShadows lower upper erase) := by
  refine Along.get.bind fun _ => Along.bind ?_ fun _ => Along.pure
  exact steps.modifyDevice (fun _ => rfl) fun _ => rfl

theorem patch {s : ShadowPointer} : Along R (patch s) :=
  steps.submit.bind fun _ => steps.recordShadow

theorem resubmitShadows {lower upper : Nat} : Along R (resubmitShadows lower upper) :=
  Along.get.bind fun _ => (Along.forM (fun _ => steps.submit) _).bind fun _ => Along.pure

theorem sendCopies {copies : List StagedCopy} : Along R (sendCopies copies) :=
  Along.ite Along.pure steps.submitBatch

theorem sendPatches {patches : List PendingPatch} : Along R (sendPatches patches) := by
  refine Along.ite Along.pure (Along.bind (Along.mapM (fun _ => ?_) patches) fun shadows =>
    steps.submitBatch.bind fun _ =>
      (Along.forM (fun _ => steps.recordShadow) shadows).bind fun _ => Along.pure)
  refine Along.get.bind fun _ => Along.bind (Along.get.bind fun _ => ?_) fun _ => Along.pure
  split
  · exact Along.pure
  · exact Along.throw

end Steps

namespace AllSteps

variable {R : Link → Link → Prop} [Lasting R] (steps : AllSteps R)

include steps

private theorem removeMapping {m : Mapping} : Along R (removeMapping m) := by
  refine Along.bind ?_ fun _ => steps.free
  exact steps.modifyDevice (fun _ => rfl) fun _ => rfl

theorem unmap {first size : Nat} {force : Bool} : Along R (unmap first size force) := by
  refine Along.get.bind fun l => ?_
  split
  · exact Along.throw
  · exact Along.ite Along.pure (Along.ite steps.modifyMappings steps.removeMapping)

theorem upload {content : List UInt8} : Along R (upload content) := by
  refine steps.allocate.bind fun _ => Along.bind ?_ fun _ => Along.pure
  refine Along.tryCatch steps.submit fun _ => Along.bind ?_ fun _ => Along.throw
  exact Along.tryCatch steps.free fun _ => Along.pure

end AllSteps

end Device

end Offloading
