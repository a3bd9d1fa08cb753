import Offloading.Proofs.Faultless
import Offloading.Proofs.Phases
import Offloading.Proofs.Refusal
/-!
# Which calls fail

An accelerator fails its calls by a schedule, and nothing that a region does to its device changes the
schedule. An accelerator that lets no call fail stays one.
-/

namespace Offloading

namespace Accelerator

variable {a : Accelerator} {unit : Int} {β : Type} {service : Service} {x : AcceleratorM β}

/-- No call fails. -/
def Reliable (a : Accelerator) : Prop := ∀ call n, a.schedule call n = false

/-- Which calls are to fail does not change. -/
abbrev SameSchedule : Accelerator → Accelerator → Prop := Fixed Accelerator.schedule

theorem Reliable.serves {m : DeviceMemory} (h : a.Reliable) (hm : a.memory? unit = some m) :
    a.Serves a.kernels unit m := ⟨h, rfl, hm⟩

theorem along_attempt_schedule (call : CallKind) : Along SameSchedule (attempt call) :=
  (along_attempt_failures call).mono fun h => (Prod.mk.inj h).1

theorem along_noting_schedule (hx : Along SameSchedule x) : Along SameSchedule (noting unit service x) :=
  hx.bind fun _ => Along.bind (Along.modify fun _ => rfl) fun _ => Along.pure

theorem along_store_schedule (c : Chunk) : Along SameSchedule (store unit c) := along_store fun _ _ => rfl

theorem along_send_schedule (c : Chunk) : Along SameSchedule (send unit c) :=
  (along_attempt_schedule .submit).bind fun _ => along_store_schedule c

theorem along_submit_schedule (c : Chunk) : Along SameSchedule (submit unit c) :=
  along_noting_schedule (along_send_schedule c)

theorem along_submitBatch_schedule (chunks : List Chunk) :
    Along SameSchedule (submitBatch unit chunks) := by
  refine along_noting_schedule (Along.get.bind fun a => Along.ite ?_ ?_)
  · refine (along_attempt_schedule .batch).bind fun _ => along_memory_bind fun a _ _ => ?_
    refine Along.bind_at (Along.forM along_store_schedule chunks a) fun _ => ?_
    exact Along.modify fun _ => rfl
  · exact Along.forM along_send_schedule chunks

theorem along_retrieve_schedule (addr size : Nat) : Along SameSchedule (retrieve unit addr size) := by
  refine along_noting_schedule ((along_attempt_schedule .retrieve).bind fun _ => ?_)
  refine along_memory_bind fun a m _ => ?_
  split
  · exact Lasting.refl a
  · exact Lasting.refl a

theorem along_delete_schedule (addr : Nat) : Along SameSchedule (delete unit addr) := by
  refine Along.tryCatch ?_ fun _ => Along.bind (Along.modify fun _ => rfl) fun _ => Along.throw
  refine Along.bind (Along.modify fun _ => rfl) fun _ => (along_attempt_schedule .delete).bind fun _ => ?_
  refine along_memory_bind fun a m _ => ?_
  exact Along.bind_at (x := setMemory _ _) (by rfl) fun _ => Along.ite Along.pure Along.throw

theorem along_initialise_schedule : Along SameSchedule (initialise unit) :=
  (along_attempt_schedule .initialise).bind fun _ => along_memory_bind fun _ _ _ => by rfl

end Accelerator

/-- Neither which calls of the accelerator are to fail changes nor how the device was prepared. -/
abbrev Link.SameService : Link → Link → Prop := Fixed fun l => (l.accelerator.schedule, l.device.prepared)

namespace Link.SameService

variable {l l' : Link} (h : l.SameService l')

include h

theorem prepared : l'.device.prepared = l.device.prepared := (Prod.mk.inj h).2

theorem reliable (reliable : l.accelerator.Reliable) : l'.accelerator.Reliable :=
  fun call n => (congrFun (congrFun (Prod.mk.inj h).1 call) n).trans (reliable call n)

end Link.SameService

namespace Device

open DeviceM

variable {l l' : Link} {α : Type} {first base size target : Nat} {u : Unit}

theorem along_call_service {wrap : AcceleratorError → DeviceError} {x : AcceleratorM α}
    (hx : Along Accelerator.SameSchedule x) : Along Link.SameService (call wrap x) :=
  lifts_call.along hx fun _ _ h => Prod.ext h rfl

theorem along_modifyDevice_service {f : Device → Device} (h : ∀ d, (f d).prepared = d.prepared) :
    Along Link.SameService (modifyDevice f) :=
  Along.modify fun l => Prod.ext rfl (h l.device)

theorem along_submit_service {content : List UInt8} : Along Link.SameService (submit target content) :=
  Along.ite Along.pure (Along.get.bind fun _ =>
    (along_call_service (Accelerator.along_submit_schedule _)).bind fun _ =>
      along_modifyDevice_service fun _ => rfl)

theorem along_submitBatch_service {chunks : List Chunk} : Along Link.SameService (submitBatch chunks) :=
  Along.get.bind fun _ => (along_call_service (Accelerator.along_submitBatch_schedule _)).bind fun _ =>
    Along.bind (along_modifyDevice_service fun _ => rfl) fun _ => Along.pure

theorem along_retrieve_service : Along Link.SameService (retrieve target size) :=
  Along.ite Along.pure (Along.get.bind fun _ =>
    (along_call_service (Accelerator.along_retrieve_schedule _ _)).bind fun _ =>
      Along.bind (along_modifyDevice_service fun _ => rfl) fun _ => Along.pure)

theorem along_free_service {addr : Nat} : Along Link.SameService (free addr) :=
  Along.get.bind fun _ => (along_call_service (Accelerator.along_delete_schedule _)).bind fun _ =>
    along_modifyDevice_service fun _ => rfl

theorem along_allocate_service : Along Link.SameService (allocate size) := by
  have allocated : ∀ unit, Along Accelerator.SameSchedule (Accelerator.allocate unit size) :=
    fun _ => Accelerator.along_allocate_failures.mono fun h => (Prod.mk.inj h).1
  exact Along.get.bind fun _ => (along_call_service (allocated _)).bind fun _ =>
    Along.bind (along_modifyDevice_service fun _ => rfl) fun _ => Along.pure

theorem along_map_service {implicit updateRef : Bool} :
    Along Link.SameService (map first base size implicit updateRef) := by
  refine Along.get.bind fun l => ?_
  dsimp only
  split
  · exact Along.ite (Along.bind (along_modifyDevice_service fun _ => rfl) fun _ => Along.throw)
      (Along.bind (along_modifyDevice_service fun _ => rfl) fun _ => Along.pure)
  · refine Along.ite Along.pure (along_allocate_service.bind fun _ => Along.bind ?_ fun _ => Along.pure)
    refine Along.get.bind fun _ => Along.bind (along_modifyDevice_service fun _ => rfl) fun _ => ?_
    split
    · exact Along.pure
    · exact Along.throw

theorem along_hold_service {updateRef : Bool} : Along Link.SameService (hold first size updateRef) := by
  refine Along.get.bind fun l => ?_
  split
  · exact Along.pure
  · exact Along.ite (Along.bind (along_modifyDevice_service fun _ => rfl) fun _ => Along.pure) Along.pure

theorem along_unmap_service {force : Bool} : Along Link.SameService (unmap first size force) := by
  refine Along.get.bind fun l => ?_
  split
  · exact Along.throw
  · refine Along.ite Along.pure (Along.ite (along_modifyDevice_service fun _ => rfl) ?_)
    exact Along.bind (along_modifyDevice_service fun _ => rfl) fun _ => along_free_service

/-- Preparing does not change which calls are to fail. -/
theorem along_prepare_schedule : Along (Fixed fun l : Link => l.accelerator.schedule) prepare := by
  refine along_device_bind fun l => ?_
  cases hp : l.device.prepared with
  | some outcome =>
      cases outcome with
      | ok _ => exact Lasting.refl l
      | error e => exact Lasting.refl l
  | none =>
      have same : Accelerator.SameSchedule l.accelerator
          (exec (Accelerator.initialise l.device.unit) l.accelerator).2 :=
        Accelerator.along_initialise_schedule l.accelerator
      rcases hr : exec (Accelerator.initialise l.device.unit) l.accelerator with ⟨outcome, a⟩
      rw [hr] at same
      have run : (Accelerator.initialise l.device.unit).run.run l.accelerator = (outcome, a) := hr
      dsimp only
      rw [exec_get_bind, run]
      cases outcome with
      | ok _ => exact same
      | error e => exact same

/-- A device that was prepared is prepared for good. -/
theorem returns_prepare_again (prepared : l.device.prepared = some (.ok ())) : Returns prepare l () l := by
  rw [prepare, DeviceM.returns_device_bind, prepared]
  exact returns_pure.2 ⟨rfl, rfl⟩

theorem prepared_of_prepare (h : Returns prepare l u l') : l'.device.prepared = some (.ok ()) := by
  rw [prepare, DeviceM.returns_device_bind] at h
  cases hp : l.device.prepared with
  | some outcome =>
      rw [hp] at h
      cases outcome with
      | ok _ =>
          rw [(returns_pure.1 h).2]
          exact hp
      | error e => exact absurd h not_returns_throw
  | none =>
      rw [hp] at h
      dsimp only at h
      rw [returns_get_bind] at h
      rcases hr : (Accelerator.initialise l.device.unit).run.run l.accelerator with ⟨outcome, a⟩
      rw [hr] at h
      obtain ⟨_, l₁, written, h⟩ := returns_bind.1 h
      cases written
      rw [returns_pure_bind] at h
      cases outcome with
      | ok _ =>
          rw [(returns_pure.1 h).2]
      | error e => exact absurd h not_returns_throw

end Device

namespace Region

open RegionM

/-- Neither which calls of the accelerator are to fail changes nor how the device was prepared. -/
abbrev SameService : RegionState → RegionState → Prop :=
  Fixed fun s => (s.activation.link.accelerator.schedule, s.activation.link.device.prepared)

theorem admits_sameService : Admits SameService where
  rest link _ _ := congrArg (fun l : Link => (l.accelerator.schedule, l.device.prepared)) link
  retrieve := lifts_onDevice.along Device.along_retrieve_service fun _ _ h => h
  visit := lifts_onDevice.along (R := Link.SameService) (Along.get.bind fun _ =>
    Along.bind (Device.along_modifyDevice_service fun _ => rfl) fun _ => Along.pure) fun _ _ h => h
  hold := lifts_onDevice.along Device.along_hold_service fun _ _ h => h
  unmap := lifts_onDevice.along Device.along_unmap_service fun _ _ h => h
  submit := lifts_onDevice.along Device.along_submit_service fun _ _ h => h
  submitBatch := lifts_onDevice.along Device.along_submitBatch_service fun _ _ h => h
  recordShadow := lifts_onDevice.along (Device.along_modifyDevice_service fun _ => rfl) fun _ _ h => h
  map := lifts_onDevice.along Device.along_map_service fun _ _ h => h

end Region

end Offloading
