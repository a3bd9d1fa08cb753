import Offloading.Proofs.Enter
import Offloading.Proofs.PhaseTimes
/-!
# What the phases of a region keep

Entering and leaving change devices in a few ways only: sections are mapped, held and unmapped, bytes
are moved, and patched pointers are remembered and visited. A relation that admits each of these is kept
by each phase as a whole. Leaving does not even write to the device, so it keeps relations that do not
admit all of them. What a region counts are its kernel and its patched pointers, but no call.
-/

namespace Offloading

/-- Whether the phase is a call of the platform; kernels and patched pointers are parts of calls. -/
def Phase.isCall : Phase → Bool
  | .dataBegin | .dataEnd | .dataUpdate | .target => true
  | .kernel | .pointerUpdate => false

namespace Metrics

variable {m : Metrics} {p : Phase} {nanos tableEntries : Nat}

/-- No call was counted. -/
def SameCalls (m m' : Metrics) : Prop := ∀ p, p.isCall = true → m'.timing p = m.timing p

instance : Lasting SameCalls where
  refl _ _ _ := rfl
  trans h h' p call := (h' p call).trans (h p call)

theorem sameCalls_record (part : p.isCall = false) : m.SameCalls (m.record p nanos) := by
  intro q call
  rw [timing_record, if_neg]
  rintro rfl
  rw [part] at call
  cases call

theorem sameCalls_recordLaunch : m.SameCalls (m.recordLaunch tableEntries) :=
  fun p _ => timing_recordLaunch m tableEntries p

end Metrics

namespace Region

open RegionM

/-- The relation allows all that leaving does. -/
structure Leaves (R : RegionState → RegionState → Prop) : Prop where
  /-- Everything that happens elsewhere. -/
  rest : ∀ {s s'}, s'.activation.link = s.activation.link → s'.scratch = s.scratch →
    s.metrics.SameCalls s'.metrics → R s s'
  retrieve : ∀ {target size}, Along R (onDevice (Device.retrieve target size))
  visit : ∀ {lower upper erase}, Along R (onDevice (Device.visitShadows lower upper erase))
  hold : ∀ {first size updateRef}, Along R (onDevice (Device.hold first size updateRef))
  unmap : ∀ {first size force}, Along R (onDevice (Device.unmap first size force))

/-- The relation admits each operation that entering, refreshing and leaving are made of. -/
structure Admits (R : RegionState → RegionState → Prop) : Prop extends Leaves R where
  submit : ∀ {target content}, Along R (onDevice (Device.submit target content))
  submitBatch : ∀ {chunks}, Along R (onDevice (Device.submitBatch chunks))
  recordShadow : ∀ {shadow}, Along R (onDevice (Device.recordShadow shadow))
  map : ∀ {first base size implicit updateRef},
    Along R (onDevice (Device.map first base size implicit updateRef))

/-- The relation allows moving bytes of whatever kind, and changing mappings. -/
structure Allows (R : RegionState → RegionState → Prop) : Prop where
  /-- Moving bytes, and everything that happens elsewhere. -/
  still : ∀ {s s'}, s.activation.link.Still s'.activation.link → s'.scratch = s.scratch → R s s'
  map : ∀ {first base size implicit updateRef},
    Along R (onDevice (Device.map first base size implicit updateRef))
  hold : ∀ {first size updateRef}, Along R (onDevice (Device.hold first size updateRef))
  unmap : ∀ {first size force}, Along R (onDevice (Device.unmap first size force))

section small

variable {α β : Type} {R : RegionState → RegionState → Prop} [Lasting R] {region : Argument}
  {first size : Nat}

/-- Moving bytes in two steps is moving them twice. -/
theorem along_transfer_bind {x : TransferM α} {f : α → TransferM β} (hx : Along R (transfer x))
    (hf : ∀ a, Along R (transfer (f a))) : Along R (transfer (x >>= f)) := by
  intro s
  have steps : exec (transfer (x >>= f)) s = exec (transfer x >>= fun a => transfer (f a)) s := by
    rw [lifts_transfer s, exec_bind, exec_bind, lifts_transfer s]
    rcases exec x s.activation with ⟨_ | a, activation⟩
    · rfl
    · exact (lifts_transfer { s with activation }).symm
  rw [steps]
  exact hx.bind hf s

theorem along_onDevice_bind {x : DeviceM α} {f : α → DeviceM β} (hx : Along R (onDevice x))
    (hf : ∀ a, Along R (onDevice (f a))) : Along R (onDevice (x >>= f)) := by
  intro s
  have steps : exec (onDevice (x >>= f)) s = exec (onDevice x >>= fun a => onDevice (f a)) s := by
    rw [lifts_onDevice s, exec_bind, exec_bind, lifts_onDevice s]
    rcases exec x s.activation.link with ⟨_ | a, link⟩
    · rfl
    · exact (lifts_onDevice { s with activation := { s.activation with link } }).symm
  rw [steps]
  exact hx.bind hf s

namespace Allows

theorem readHost : Along R (readHost first size) := Along.get.bind fun _ => Along.pure

theorem arguments {ask : ArgumentList → Except ArgumentError α} : Along R (arguments ask) := by
  refine Along.get.bind fun s => ?_
  split
  · exact Along.pure
  · exact Along.throw

theorem unmapped : Along R (unmapped first size : RegionM α) := Along.get.bind fun _ => Along.throw

theorem translate : Along R (translate first size) := by
  refine Along.get.bind fun s => ?_
  split
  · exact Along.pure
  · exact unmapped

theorem parentIsSoleOwner : Along R (parentIsSoleOwner region) := by
  unfold RegionM.parentIsSoleOwner
  split
  · exact Along.pure
  · refine arguments.bind fun parent => Along.get.bind fun s => ?_
    split
    · exact Along.pure
    · exact Along.pure

theorem forRegions {step : Argument → RegionM Unit} (h : ∀ region, Along R (step region))
    (plans : List RegionPlan) : Along R (forRegions step plans) := by
  induction plans with
  | nil => exact Along.pure
  | cons plan rest ih =>
      rw [RegionM.forRegions]
      refine Along.get.bind fun s => ?_
      split
      · exact (h _).bind fun _ => ih
      · exact ih

end Allows

end small

/-! ## Moving bytes -/

namespace Leaves

variable {α : Type} {R : RegionState → RegionState → Prop} {settings : Settings}

/-- What happens elsewhere does not matter. -/
theorem modify (leaves : Leaves R) {f : RegionState → RegionState}
    (link : ∀ s, (f s).activation.link = s.activation.link)
    (scratch : ∀ s, (f s).scratch = s.scratch)
    (metrics : ∀ s : RegionState, s.metrics.SameCalls (f s).metrics) : Along R (modify f : RegionM PUnit) :=
  Along.modify fun s => leaves.rest (link s) (scratch s) (metrics s)

theorem record [Lasting R] (leaves : Leaves R) {p : Phase} (part : p.isCall = false) :
    Along R (record settings p) :=
  Along.ite (leaves.modify (fun _ => rfl) (fun _ => rfl) fun _ => Metrics.sameCalls_record part) Along.pure

/-- An operation that only looks at the device. -/
theorem peek (leaves : Leaves R) {x : DeviceM α} (hx : Along Eq x) : Along R (onDevice x) :=
  lifts_onDevice.along hx fun _ _ same => leaves.rest same.symm rfl (Lasting.refl _)

theorem onQueue (leaves : Leaves R) {f : TransferQueue → TransferQueue} :
    Along R (transfer (TransferM.onQueue f)) :=
  lifts_transfer.along (R := fun a a' => a'.link = a.link) (Along.modify fun _ => rfl)
    fun _ _ same => leaves.rest same rfl (Lasting.refl _)

end Leaves

namespace Admits

variable {R : RegionState → RegionState → Prop} [Lasting R] {settings : Settings} {padded : Bool}
  {region : Argument} {index first size : Nat} (admits : Admits R)

include admits

theorem patch {s : ShadowPointer} : Along R (onDevice (Device.patch s)) :=
  along_onDevice_bind admits.submit fun _ => admits.recordShadow

omit [Lasting R] in
theorem sendCopies {copies : List StagedCopy} : Along R (onDevice (Device.sendCopies copies)) := by
  unfold Device.sendCopies
  split
  · exact admits.peek Along.pure
  · exact admits.submitBatch

theorem recordShadows (shadows : List ShadowPointer) :
    Along R (onDevice (shadows.forM Device.recordShadow)) := by
  induction shadows with
  | nil => exact admits.peek Along.pure
  | cons s rest ih => exact along_onDevice_bind admits.recordShadow fun _ => ih

omit admits in
private theorem along_resolvePatch {p : PendingPatch} : Along Eq (Device.resolvePatch p) := by
  refine Along.get.bind fun _ => Along.bind ?_ fun _ => Along.pure
  refine Along.get.bind fun l => ?_
  split
  · exact Along.pure
  · exact Along.throw

theorem sendPatches {patches : List PendingPatch} :
    Along R (onDevice (Device.sendPatches patches)) := by
  unfold Device.sendPatches
  split
  · exact admits.peek Along.pure
  · refine along_onDevice_bind ?_ fun shadows => along_onDevice_bind admits.submitBatch fun _ =>
      along_onDevice_bind (admits.recordShadows shadows) fun _ => admits.peek Along.pure
    exact admits.peek (Along.mapM (fun _ => along_resolvePatch) patches)

theorem resubmitShadows {lower upper : Nat} :
    Along R (onDevice (Device.resubmitShadows lower upper)) := by
  have all : ∀ shadows : List ShadowPointer, Along R (onDevice
      (shadows.forM fun s => Device.submit s.deviceSlot (Word.toBytes s.deviceValue))) := by
    intro shadows
    induction shadows with
    | nil => exact admits.peek Along.pure
    | cons s rest ih => exact along_onDevice_bind admits.submit fun _ => ih
  have look : Along R (onDevice DeviceM.device) :=
    admits.peek (Along.get.bind fun _ => Along.pure)
  exact along_onDevice_bind look fun d => along_onDevice_bind (all _) fun _ => admits.peek Along.pure

omit [Lasting R] in
theorem transferSubmit {target : Nat} {content : List UInt8} (strategy : Strategy) :
    Along R (transfer (strategy.submit target content)) := by
  cases strategy with
  | immediate => exact admits.submit
  | bulk => exact admits.onQueue (f := fun q => q.stage target content)

theorem transferPatch {p : PointerPatch} (strategy : Strategy) :
    Along R (transfer (strategy.patch p)) := by
  cases strategy with
  | immediate => exact admits.patch
  | bulk => exact admits.onQueue (f := fun q => q.suspend p.pending)

theorem transferFlush (strategy : Strategy) : Along R (transfer strategy.flush) := by
  cases strategy with
  | immediate => exact admits.peek Along.pure
  | bulk =>
      have queue : Along R (transfer (get : TransferM Activation)) :=
        lifts_transfer.along (R := Eq) Along.get fun _ _ same =>
          admits.rest (congrArg _ same.symm) rfl (same ▸ Lasting.refl _)
      refine along_transfer_bind ?_ fun _ => ?_
      · exact along_transfer_bind queue fun _ => along_transfer_bind admits.onQueue fun _ =>
          admits.sendCopies
      · exact along_transfer_bind queue fun _ => along_transfer_bind admits.onQueue fun _ =>
          admits.sendPatches

/-! ## Entering -/

theorem mapPointer : Along R (mapPointer region) := by
  refine Along.ite (admits.map.bind fun mapped => ?_) Along.pure
  split
  · exact Along.pure
  · exact Allows.unmapped

theorem copyIn {mapped? : Option MappedSection} :
    Along R (copyIn settings region first size mapped?) := by
  unfold Region.copyIn
  split
  · exact Along.pure
  · refine Along.ite (Along.bind ?_ fun copies => ?_) Along.pure
    · exact Along.ite Along.pure (Along.ite Allows.parentIsSoleOwner Along.pure)
    · exact Along.ite (Allows.readHost.bind fun _ => admits.transferSubmit _) Along.pure

theorem patchPointer {base : Nat} {target? : Option Nat} {pointer? : Option MappedPointer} :
    Along R (patchPointer settings first base target? pointer?) := by
  unfold Region.patchPointer
  split
  · exact Along.pure
  · refine Along.ite Along.pure (Along.bind ?_ fun _ => admits.record rfl)
    exact admits.transferPatch _

theorem mapRegion : Along R (mapRegion settings padded region) :=
  Along.ite Along.pure (admits.mapPointer.bind fun _ => Along.get.bind fun _ =>
    admits.map.bind fun _ => admits.copyIn.bind fun _ => admits.patchPointer.bind fun _ =>
      Along.pure)

theorem mapPlans (plans : List RegionPlan) (returned : Option Nat) :
    Along R (mapPlans settings padded plans returned) := by
  induction plans generalizing returned with
  | nil => exact Along.pure
  | cons plan rest ih =>
      rw [Region.mapPlans]
      refine Along.get.bind fun s => ?_
      split
      · exact ih returned
      · exact admits.mapRegion.bind fun base => ih _

theorem mapArgument : Along R (mapArgument settings index) := by
  refine Allows.arguments.bind fun a => Along.ite Along.pure (Along.get.bind fun s => ?_)
  refine Allows.arguments.bind fun plans => (admits.mapPlans plans none).bind fun base => ?_
  split
  · exact Along.pure
  · exact Allows.arguments.bind fun changed => admits.modify (fun _ => rfl) (fun _ => rfl) fun _ => Lasting.refl _

theorem enter : Along R (enter settings) := by
  refine Along.get.bind fun s => (Along.forM (fun _ => admits.mapArgument) _).bind fun _ => ?_
  refine Along.bind (admits.transferFlush _) fun patched => Along.ite (admits.record rfl) Along.pure

/-! ## Refreshing -/

theorem refreshRegion : Along R (refreshRegion region) := by
  have write : ∀ {first : Nat} {content : List UInt8}, Along R (writeHost first content) :=
    admits.modify (fun _ => rfl) (fun _ => rfl) fun _ => Lasting.refl _
  have submit : ∀ {target first size : Nat}, Along R (do
      onDevice (Device.submit target (← RegionM.readHost first size))
      let _ ← onDevice (Device.resubmitShadows first (first + size))
      return true) := Allows.readHost.bind fun _ => admits.submit.bind fun _ =>
    admits.resubmitShadows.bind fun _ => Along.pure
  refine Along.ite Along.pure (Along.get.bind fun s => ?_)
  split
  · exact Along.pure
  · refine Along.ite ?_ (Along.pure.bind fun _ => Along.ite submit Along.pure)
    exact admits.retrieve.bind fun _ => write.bind fun _ => admits.visit.bind fun _ =>
      (Along.forM (fun _ => write) _).bind fun _ => Along.ite submit Along.pure

theorem refresh : Along R refresh := by
  have plans : ∀ plans, Along R (refreshPlans plans) := by
    intro plans
    induction plans with
    | nil => exact Along.pure
    | cons plan rest ih =>
        rw [refreshPlans]
        refine Along.get.bind fun s => ?_
        split
        · exact admits.refreshRegion.bind fun _ => ih.bind fun _ => Along.pure
        · exact Along.pure.bind fun _ => ih.bind fun _ => Along.pure
  have all : ∀ indices, Along R (refreshAll indices) := by
    intro indices
    induction indices with
    | nil => exact Along.pure
    | cons index rest ih =>
        refine Along.bind ?_ fun _ => ih.bind fun _ => Along.pure
        refine Allows.arguments.bind fun a => Along.ite Along.pure ?_
        exact Allows.arguments.bind fun ps => plans ps
  exact Along.get.bind fun _ => all _

end Admits

namespace Allows

variable {α : Type} {R : RegionState → RegionState → Prop} [Lasting R] {settings : Settings}

omit [Lasting R] in
theorem modify (allows : Allows R) {f : RegionState → RegionState}
    (activation : ∀ s, (f s).activation.link = s.activation.link)
    (scratch : ∀ s, (f s).scratch = s.scratch) : Along R (modify f : RegionM PUnit) :=
  Along.modify fun s => allows.still (activation s ▸ Lasting.refl _) (scratch s)

omit [Lasting R] in
theorem transfer (allows : Allows R) {x : TransferM α}
    (hx : Along (fun a a' => a.link.Still a'.link) x) : Along R (transfer x) :=
  lifts_transfer.along hx fun _ _ h => allows.still h rfl

omit [Lasting R] in
theorem onDevice (allows : Allows R) {x : DeviceM α} (hx : Along Link.Still x) :
    Along R (onDevice x) := allows.transfer (TransferM.along_onDevice hx)

omit [Lasting R] in
theorem leaves (allows : Allows R) : Leaves R where
  rest link scratch _ := allows.still (link ▸ Lasting.refl _) scratch
  retrieve := allows.onDevice (Device.along_retrieve.mono Link.Transferred.still)
  visit := allows.onDevice Device.along_visitShadows_still
  hold := allows.hold
  unmap := allows.unmap

omit [Lasting R] in
theorem admits (allows : Allows R) : Admits R where
  toLeaves := allows.leaves
  submit := allows.onDevice (Device.along_submit.mono Link.Transferred.still)
  submitBatch := allows.onDevice (Device.along_submitBatch.mono Link.Transferred.still)
  recordShadow := allows.onDevice Device.along_recordShadow_still
  map := allows.map

theorem enter (allows : Allows R) : Along R (enter settings) := allows.admits.enter

end Allows

/-! ## Leaving -/

namespace Leaves

variable {R : RegionState → RegionState → Prop} {settings : Settings} {padded : Bool}
  {region : Argument} {first size : Nat} (leaves : Leaves R)

include leaves

theorem writeHost {content : List UInt8} : Along R (writeHost first content) :=
  Along.modify fun _ => leaves.rest rfl rfl (Lasting.refl _)

variable [Lasting R]

theorem restorePointers {shadows : List ShadowPointer} : Along R (restorePointers shadows) :=
  Along.forM (fun _ => leaves.writeHost) shadows

theorem copyBack {source : Nat} {removed : Bool} :
    Along R (copyBack region first size source removed) := by
  have copy : Along R (do
      RegionM.writeHost first (← RegionM.onDevice (Device.retrieve source size))
      return true) := leaves.retrieve.bind fun _ => leaves.writeHost.bind fun _ => Along.pure
  refine Along.ite (Along.ite (Allows.parentIsSoleOwner.bind fun _ => ?_)
    (Along.pure.bind fun _ => ?_)) Along.pure
  · exact Along.ite copy Along.pure
  · exact Along.ite copy Along.pure

theorem restoreShadows {copied removed : Bool} :
    Along R (restoreShadows settings first size copied removed) :=
  Along.ite (leaves.visit.bind fun _ => Along.ite leaves.restorePointers Along.pure) Along.pure

theorem releasePointer {slot : Nat} : Along R (releasePointer slot) := by
  refine leaves.hold.bind fun held => ?_
  split
  · exact Allows.unmapped
  · exact Along.ite leaves.unmap Along.pure

theorem releaseSection : Along R (releaseSection settings padded region) := by
  unfold Region.releaseSection
  refine leaves.hold.bind fun held => ?_
  split
  · exact Along.ite Along.pure Allows.unmapped
  · exact leaves.copyBack.bind fun copied => leaves.restoreShadows.bind fun _ =>
      Along.ite leaves.unmap Along.pure

theorem unmapRegion : Along R (unmapRegion settings padded region) :=
  Along.ite Along.pure (leaves.releaseSection.bind fun _ =>
    Along.ite leaves.releasePointer Along.pure)

theorem unmapArgument {index : Nat} : Along R (unmapArgument settings index) := by
  refine Allows.arguments.bind fun a => Along.ite Along.pure (Along.get.bind fun s => ?_)
  exact Allows.arguments.bind fun plans => Allows.forRegions (fun _ => leaves.unmapRegion) plans

theorem leave : Along R (leave settings) :=
  Along.get.bind fun _ => Along.forM (fun _ => leaves.unmapArgument) _

end Leaves

end Region

end Offloading
