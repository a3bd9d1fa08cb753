import Offloading.Region.Launch
import Offloading.Region.Refresh
import Offloading.Proofs.MappingLife
/-!
# Region phases

How the steps of a region move the device that the region works on. Refreshing, launching
and leaving are orderly, and they keep the arguments.
-/

namespace Offloading

/-- A region step that moves the device along `R` and host memory along `H`, and keeps the arguments
and the queue. -/
structure Step (R : Link → Link → Prop) (H : HostMemory → HostMemory → Prop)
    (s s' : RegionState) : Prop where
  link : R s.activation.link s'.activation.link
  host : H s.host s'.host
  arguments : s'.arguments = s.arguments
  queue : s'.activation.queue = s.activation.queue

section Step

variable {R S : Link → Link → Prop} {H : HostMemory → HostMemory → Prop} {s s' : RegionState}

instance [Lasting R] [Lasting H] : Lasting (Step R H) where
  refl _ := ⟨Lasting.refl _, Lasting.refl _, rfl, rfl⟩
  trans h h' := ⟨Lasting.trans h.link h'.link, Lasting.trans h.host h'.host,
    h'.arguments.trans h.arguments, h'.queue.trans h.queue⟩

theorem Step.mono (hRS : ∀ {l l'}, R l l' → S l l') (h : Step R H s s') : Step S H s s' :=
  ⟨hRS h.link, h.host, h.arguments, h.queue⟩

end Step

namespace TransferM

theorem lifts_onDevice {α : Type} {x : DeviceM α} :
    Lifts Activation.link (fun s link => { s with link }) (fun e => e) x (onDevice x) := by
  intro s
  have same : ∀ r : Except DeviceError α, r.mapError (fun e => e) = r := by
    intro r
    cases r with
    | ok _ => rfl
    | error _ => rfl
  rw [same]
  rfl

end TransferM

namespace RegionM

variable {α β : Type} {R : Link → Link → Prop} {H : HostMemory → HostMemory → Prop}
  {s s' : RegionState}

theorem lifts_transfer {x : TransferM α} :
    Lifts RegionState.activation (fun s activation => { s with activation }) .ofDevice x
      (transfer x) :=
  fun _ => rfl

theorem lifts_onDevice {x : DeviceM α} :
    Lifts (fun s => s.activation.link)
      (fun s link => { s with activation := { s.activation with link } }) .ofDevice x
      (onDevice x) :=
  fun _ => rfl

theorem along_onDevice [Lasting H] {x : DeviceM α} (hx : Along R x) :
    Along (Step R H) (onDevice x) :=
  lifts_onDevice.along hx fun _ _ h => ⟨h, Lasting.refl _, rfl, rfl⟩

theorem returns_device_bind {b : β} {f : Device → RegionM β} :
    Returns (device >>= f) s b s' ↔ Returns (f s.activation.link.device) s b s' := Iff.rfl

theorem exec_device_bind {f : Device → RegionM β} :
    exec (device >>= f) s = exec (f s.activation.link.device) s := rfl

theorem returns_arguments {ask : ArgumentList → Except ArgumentError α} {a : α} :
    Returns (arguments ask) s a s' ↔ ask s.arguments = .ok a ∧ s' = s := by
  rw [arguments, returns_get_bind]
  constructor
  · intro h
    split at h
    · rename_i found
      obtain ⟨rfl, rfl⟩ := returns_pure.1 h
      exact ⟨found, rfl⟩
    · exact absurd h not_returns_throw
  · rintro ⟨found, rfl⟩
    rw [found]
    exact returns_pure.2 ⟨rfl, rfl⟩

theorem not_returns_unmapped {first size : Nat} {a : α} :
    ¬ Returns (unmapped first size) s a s' := by
  intro h
  rw [unmapped, returns_device_bind] at h
  exact not_returns_throw h

variable [Lasting R] [Lasting H]

theorem along_arguments {ask : ArgumentList → Except ArgumentError α} :
    Along (Step R H) (arguments ask) := by
  refine Along.get.bind fun s => ?_
  split
  · exact Along.pure
  · exact Along.throw

theorem along_readHost {first size : Nat} : Along (Step R H) (readHost first size) :=
  Along.get.bind fun _ => Along.pure

omit [Lasting H] in
theorem along_modify {f : RegionState → RegionState} (link : ∀ s, (f s).activation = s.activation)
    (host : ∀ s, H s.host (f s).host) (arguments : ∀ s, (f s).arguments = s.arguments) :
    Along (Step R H) (modify f : RegionM PUnit) := by
  refine Along.modify fun s => ⟨?_, host s, arguments s, ?_⟩
  · rw [link]
    exact Lasting.refl _
  · rw [link]

theorem along_writeHost {first : Nat} {content : List UInt8} :
    Along (Step R Anything) (writeHost first content) :=
  along_modify (fun _ => rfl) (fun _ => trivial) fun _ => rfl

theorem along_restorePointers {shadows : List ShadowPointer} :
    Along (Step R Anything) (restorePointers shadows) :=
  Along.forM (fun _ => along_writeHost) shadows

theorem along_record {settings : Settings} {p : Phase} :
    Along (Step R H) (record settings p) :=
  Along.ite (along_modify (fun _ => rfl) (fun _ => Lasting.refl _) fun _ => rfl) Along.pure

theorem along_unmapped {first size : Nat} : Along (Step R H) (unmapped first size : RegionM α) :=
  Along.get.bind fun _ => Along.throw

theorem along_translate {first size : Nat} : Along (Step R H) (translate first size) := by
  refine Along.get.bind fun s => ?_
  split
  · exact Along.pure
  · exact along_unmapped

theorem along_parentIsSoleOwner {region : Argument} :
    Along (Step R H) (parentIsSoleOwner region) := by
  unfold parentIsSoleOwner
  split
  · exact Along.pure
  · refine along_arguments.bind fun parent => Along.get.bind fun s => ?_
    split
    · exact Along.pure
    · exact Along.pure

theorem along_forRegions {step : Argument → RegionM Unit} (h : ∀ region, Along (Step R H) (step region))
    (plans : List RegionPlan) : Along (Step R H) (forRegions step plans) := by
  induction plans with
  | nil => exact Along.pure
  | cons plan rest ih =>
      rw [forRegions]
      refine Along.get.bind fun s => ?_
      split
      · exact (h _).bind fun _ => ih
      · exact ih

end RegionM

namespace Region

open RegionM

variable {settings : Settings} {padded : Bool} {region : Argument}

/-! ## Leaving -/

theorem along_copyBack {first size source : Nat} {removed : Bool} :
    Along (Step Link.Transferred Anything) (copyBack region first size source removed) := by
  have copy : Along (Step Link.Transferred Anything) (do
      writeHost first (← onDevice (Device.retrieve source size))
      return true) :=
    (along_onDevice Device.along_retrieve).bind fun _ => along_writeHost.bind fun _ => Along.pure
  refine Along.ite ?_ Along.pure
  refine Along.ite (along_parentIsSoleOwner.bind fun _ => ?_) (Along.pure.bind fun _ => ?_)
  · exact Along.ite copy Along.pure
  · exact Along.ite copy Along.pure

theorem along_restoreShadows {R : Link → Link → Prop} [Lasting R] {first size : Nat}
    {copied removed : Bool} (h : Along R (Device.visitShadows first (first + size) removed)) :
    Along (Step R Anything) (restoreShadows settings first size copied removed) := by
  refine Along.ite ((along_onDevice h).bind fun _ => ?_) Along.pure
  exact Along.ite along_restorePointers Along.pure

theorem along_releasePointer {slot : Nat} : Along (Step Link.Orderly Anything) (releasePointer slot) := by
  refine (along_onDevice Device.along_hold).bind fun held => ?_
  split
  · exact along_unmapped
  · exact Along.ite (along_onDevice Device.along_unmap) Along.pure

theorem along_releaseSection : Along (Step Link.Orderly Anything) (releaseSection settings padded region) := by
  unfold releaseSection
  refine (along_onDevice Device.along_hold).bind fun held => ?_
  split
  · exact Along.ite Along.pure along_unmapped
  · refine (along_copyBack.mono (Step.mono Link.Transferred.orderly)).bind fun copied => ?_
    refine (along_restoreShadows Device.along_visitShadows).bind fun _ => ?_
    exact Along.ite (along_onDevice Device.along_unmap) Along.pure

theorem along_unmapRegion : Along (Step Link.Orderly Anything) (unmapRegion settings padded region) := by
  refine Along.ite Along.pure (along_releaseSection.bind fun _ => ?_)
  exact Along.ite along_releasePointer Along.pure

theorem along_unmapArgument {index : Nat} :
    Along (Step Link.Orderly Anything) (unmapArgument settings index) := by
  refine along_arguments.bind fun a => Along.ite Along.pure ?_
  refine Along.get.bind fun s => along_arguments.bind fun plans => ?_
  exact along_forRegions (fun _ => along_unmapRegion) plans

theorem along_leave : Along (Step Link.Orderly Anything) (leave settings) :=
  Along.get.bind fun _ => Along.forM (fun _ => along_unmapArgument) _

/-! ## Refreshing -/

theorem along_refreshRegion : Along (Step Link.Transferred Anything) (refreshRegion region) := by
  have submit : ∀ {target first size : Nat}, Along (Step Link.Transferred Anything) (do
      onDevice (Device.submit target (← readHost first size))
      let _ ← onDevice (Device.resubmitShadows first (first + size))
      return true) := by
    refine along_readHost.bind fun _ => Along.bind ?_ fun _ => Along.bind ?_ fun _ => Along.pure
    · exact along_onDevice Device.along_submit
    · exact along_onDevice Device.along_resubmitShadows
  refine Along.ite Along.pure (Along.get.bind fun s => ?_)
  split
  · exact Along.pure
  · refine Along.ite ?_ (Along.pure.bind fun _ => Along.ite submit Along.pure)
    refine Along.bind ?_ fun _ => along_writeHost.bind fun _ => Along.bind ?_ fun _ =>
      along_restorePointers.bind fun _ => Along.ite submit Along.pure
    · exact along_onDevice Device.along_retrieve
    · exact along_onDevice Device.along_visitShadows_keep

theorem along_refreshPlans (plans : List RegionPlan) :
    Along (Step Link.Transferred Anything) (refreshPlans plans) := by
  induction plans with
  | nil => exact Along.pure
  | cons plan rest ih =>
      rw [refreshPlans]
      refine Along.get.bind fun s => ?_
      split
      · exact along_refreshRegion.bind fun _ => ih.bind fun _ => Along.pure
      · exact Along.pure.bind fun _ => ih.bind fun _ => Along.pure

theorem along_refreshArgument {index : Nat} :
    Along (Step Link.Transferred Anything) (refreshArgument index) := by
  refine along_arguments.bind fun a => Along.ite Along.pure ?_
  exact along_arguments.bind fun plans => along_refreshPlans plans

/-- Refreshing moves bytes and nothing else. -/
theorem along_refresh : Along (Step Link.Transferred Anything) refresh := by
  have all : ∀ indices, Along (Step Link.Transferred Anything) (refreshAll indices) := by
    intro indices
    induction indices with
    | nil => exact Along.pure
    | cons index rest ih =>
        exact along_refreshArgument.bind fun _ => ih.bind fun _ => Along.pure
  exact Along.get.bind fun _ => all _

/-! ## Launching -/

/-- The relation allows all that launching does to a device: it allocates, frees, moves bytes and runs
the kernel. -/
structure Launches (R : Link → Link → Prop) : Prop where
  transferred : ∀ {l l'}, l.Transferred l' → R l l'
  allocate : ∀ {size}, Along R (Device.allocate size)
  free : ∀ {addr}, Along R (Device.free addr)

theorem launches_moved : Launches Link.Moved :=
  ⟨Link.Transferred.toMoved, Device.along_allocate, Device.along_free⟩

theorem along_adopt {R : Link → Link → Prop} [Lasting R] {H : HostMemory → HostMemory → Prop}
    [Lasting H] {target : Nat} : Along (Step R H) (adopt target) :=
  along_modify (fun _ => rfl) (fun _ => Lasting.refl _) fun _ => rfl

namespace Launches

variable {R : Link → Link → Prop} [Lasting R] {H : HostMemory → HostMemory → Prop} [Lasting H]
  (launches : Launches R)

include launches

theorem allocateScratch {size : Nat} : Along (Step R H) (allocateScratch size) :=
  (along_onDevice launches.allocate).bind fun _ => along_adopt.bind fun _ => Along.pure

theorem freeAll (blocks : List Nat) : Along (Step R H) (freeAll blocks) := by
  induction blocks with
  | nil => exact Along.pure
  | cons target rest ih =>
      rw [Region.freeAll]
      refine Along.bind (Along.tryCatch ?_ fun _ => Along.pure) fun _ => ih.bind fun _ => Along.pure
      exact (along_onDevice launches.free).bind fun _ => Along.pure

theorem freeScratch : Along (Step R H) freeScratch :=
  Along.get.bind fun _ => Along.bind (along_modify (fun _ => rfl) (fun _ => Lasting.refl _) fun _ => rfl) fun _ =>
    launches.freeAll _

theorem patchCapture {staged : Staged} {index : Nat} {parent? : Option Nat} :
    Along (Step R H) (patchCapture staged index region parent?) := by
  unfold Region.patchCapture
  split
  · exact Along.throw
  · split
    · exact Along.throw
    · refine along_arguments.bind fun parent => Along.get.bind fun s => ?_
      split
      · exact along_onDevice (Device.along_submit.mono launches.transferred)
      · exact Along.pure

theorem kernelArgument : Along (Step R H) (kernelArgument region) := by
  unfold Region.kernelArgument
  split
  · exact Along.pure
  · refine launches.allocateScratch.bind fun target => Along.ite ?_ Along.pure
    refine along_readHost.bind fun _ => Along.bind ?_ fun _ => Along.pure
    exact along_onDevice (Device.along_submit.mono launches.transferred)
  · exact along_translate.bind fun _ => Along.pure
  all_goals
    refine Along.get.bind fun s => ?_
    split
    · exact Along.pure
    · exact Along.ite Along.pure along_unmapped

theorem stageArgument {staged : Staged} {index : Nat} :
    Along (Step R H) (stageArgument staged index region) := by
  refine Along.ite (launches.kernelArgument.bind fun _ => Along.pure) ?_
  split
  · exact launches.patchCapture.bind fun _ => Along.pure
  · exact Along.pure

theorem stageArguments {staged : Staged} {index : Nat} (arguments : List Argument) :
    Along (Step R H) (stageArguments staged index arguments) := by
  induction arguments generalizing staged index with
  | nil => exact Along.pure
  | cons a rest ih => exact launches.stageArgument.bind fun _ => ih

theorem upload {content : List UInt8} : Along R (Device.upload content) := by
  refine launches.allocate.bind fun target => Along.bind (Along.tryCatch ?_ fun e => ?_) fun _ =>
    Along.pure
  · exact Device.along_submit.mono launches.transferred
  · exact (Along.tryCatch launches.free fun _ => Along.pure).bind fun _ => Along.throw

theorem stageAddressTable : Along (Step R H) (stageAddressTable settings) := by
  refine Along.ite (Along.get.bind fun s => Along.bind ?_ fun _ => ?_) Along.pure
  · exact along_onDevice (launches.upload.bind fun _ => Along.pure)
  · exact along_adopt.bind fun _ => Along.pure

theorem stageOffsetList : Along (Step R H) (stageOffsetList settings) := by
  unfold Region.stageOffsetList
  split
  · exact Along.pure
  · refine Along.bind ?_ fun list => Along.bind ?_ fun _ => along_adopt.bind fun _ => Along.pure
    · refine along_onDevice (Along.get.bind fun l => ?_)
      split
      · exact Along.pure
      · exact Along.throw
    · exact along_onDevice (launches.upload.bind fun _ => Along.pure)

theorem stage : Along (Step R H) (stage settings) := by
  refine launches.stageAddressTable.bind fun table? => launches.stageOffsetList.bind fun offsets? => ?_
  exact Along.get.bind fun s => (launches.stageArguments _).bind fun staged => Along.pure

theorem stageAndLaunch {entry : Nat} {kind : LaunchKind} :
    Along (Step R H) (stageAndLaunch settings entry kind) := by
  refine launches.stage.bind fun plan => Along.bind ?_ fun _ => along_record.bind fun _ => ?_
  · exact along_onDevice (Device.along_launch.mono launches.transferred)
  · exact along_modify (fun _ => rfl) (fun _ => Lasting.refl _) fun _ => rfl

end Launches

end Region

end Offloading
