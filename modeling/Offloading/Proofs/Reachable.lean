import Offloading.Proofs.Calls
/-!
# Reachable platforms

What programs do to a platform: they call it, write to their own memory, and use the accelerators
directly. Every platform that is reached from a fresh one is sound.
-/

namespace Offloading

/-- Something that a program does. -/
inductive Call where
  | dataBegin (id : Int) (l : ArgumentList)
  | dataEnd (id : Int) (l : ArgumentList)
  | dataUpdate (id : Int) (l : ArgumentList)
  | target (id : Int) (l : ArgumentList) (hostAddr : Nat) (kind : LaunchKind)
  | associate (id : Int) (first target size : Nat)
  | disassociate (id : Int) (first : Nat)
  | pushTripCount (id : Int) (n : Nat)
  | register (d : LibraryDescription)
  | unregister (library : Nat)
  /-- Writes to host memory. -/
  | write (first : Nat) (content : List UInt8)
  /-- Allocates a block on an accelerator. -/
  | allocate (accelerator : Nat) (unit : Int) (size : Nat)
  /-- Releases a block on an accelerator. -/
  | release (accelerator : Nat) (unit : Int) (addr : Nat)
  /-- Copies bytes to an accelerator. -/
  | store (accelerator : Nat) (unit : Int) (c : Chunk)
  /-- Adds a kernel to an accelerator. -/
  | addKernel (accelerator : Nat) (k : Kernel)

namespace Platform

variable {pl pl' : Platform}

/-- The platform after a call with an argument list, whether the call succeeds or not. -/
def afterCall {α : Type} (pl : Platform) (l : ArgumentList) (x : CallM α) : Platform :=
  (exec x { platform := pl, arguments := l }).2.platform

/-- The platform after one of its accelerators was used directly. -/
def afterUse {α : Type} (pl : Platform) (accelerator : Nat) (x : AcceleratorM α) : Platform :=
  { pl with accelerators := pl.accelerators.modify accelerator fun a => (exec x a).2 }

/-- The platform after something was done, whether it succeeded or not. -/
def perform (pl : Platform) : Call → Platform
  | .dataBegin id l => pl.afterCall l (dataBegin id)
  | .dataEnd id l => pl.afterCall l (dataEnd id)
  | .dataUpdate id l => pl.afterCall l (dataUpdate id)
  | .target id l hostAddr kind => pl.afterCall l (target id hostAddr kind)
  | .associate id first target size => (exec (associate id first target size) pl).2
  | .disassociate id first => (exec (disassociate id first) pl).2
  | .pushTripCount id n => (exec (pushTripCount id n) pl).2
  | .register d => (pl.register d).2
  | .unregister library => (pl.unregister library).2
  | .write first content => { pl with host := pl.host.write first content }
  | .allocate accelerator unit size => pl.afterUse accelerator (Accelerator.allocate unit size)
  | .release accelerator unit addr => pl.afterUse accelerator (Accelerator.delete unit addr)
  | .store accelerator unit c => pl.afterUse accelerator (Accelerator.submit unit c)
  | .addKernel accelerator k => pl.afterUse accelerator (modify (·.register k) : AcceleratorM Unit)

/-- The platform after several things were done, one after the other. -/
def performAll (pl : Platform) (calls : List Call) : Platform := calls.foldl perform pl

/-- A platform as it is created over accelerators on which nothing was allocated yet. -/
def Fresh (pl : Platform) : Prop :=
  ∃ config accelerators, ofAccelerators config accelerators = .ok pl ∧
    ∀ a ∈ accelerators, ∃ n capacity, a.memories = (Accelerator.ofDevices n capacity).memories

/-- A platform that programs can bring about. -/
inductive Reachable : Platform → Prop where
  | fresh {pl : Platform} (h : pl.Fresh) : Reachable pl
  | perform {pl : Platform} (h : Reachable pl) (c : Call) : Reachable (pl.perform c)

/-! ## Fresh platforms -/

theorem device_of_mem_slots {accelerators : List Accelerator} {id position : Nat}
    {slot : DeviceSlot} (h : slot ∈ slots id position accelerators) :
    ∃ id unit, slot.device = { id, unit } := by
  induction accelerators generalizing id position with
  | nil => cases h
  | cons a rest ih =>
      rw [slots] at h
      rcases List.mem_append.1 h with h | h
      · obtain ⟨unit, -, rfl⟩ := List.mem_map.1 h
        exact ⟨_, _, rfl⟩
      · exact ih h

theorem ofAccelerators_eq_ok {config : Config} {accelerators : List Accelerator}
    (h : ofAccelerators config accelerators = .ok pl) :
    ∃ strategy, config.validate = .ok () ∧ config.strategy = .ok strategy ∧
      pl = { settings := ⟨config, strategy⟩, accelerators, devices := slots 0 0 accelerators,
             listed := (slots 0 0 accelerators).length } := by
  rw [ofAccelerators] at h
  cases valid : config.validate with
  | error e =>
      rw [valid] at h
      cases h
  | ok _ =>
      rw [valid] at h
      cases mode : config.strategy with
      | error e =>
          rw [mode] at h
          cases h
      | ok strategy =>
          rw [mode] at h
          cases h
          exact ⟨strategy, rfl, rfl, rfl⟩

theorem Fresh.sound (h : pl.Fresh) : pl.Sound := by
  obtain ⟨config, accelerators, created, empty⟩ := h
  obtain ⟨strategy, -, -, rfl⟩ := ofAccelerators_eq_ok created
  refine ⟨fun slot hs => ?_, fun a ha => ?_⟩
  · obtain ⟨id, unit, same⟩ := device_of_mem_slots hs
    rw [same]
    exact MappingTable.wellFormed_empty
  · obtain ⟨n, capacity, memories⟩ := empty a ha
    exact Accelerator.wellFormed_ofDevices memories

theorem Fresh.tidy (h : pl.Fresh) : pl.Tidy := by
  obtain ⟨config, accelerators, created, -⟩ := h
  obtain ⟨strategy, -, -, rfl⟩ := ofAccelerators_eq_ok created
  intro slot hs
  obtain ⟨id, unit, same⟩ := device_of_mem_slots hs
  rw [same]
  exact fun s hs => absurd hs AddressMap.not_mem_empty

/-- A platform over one empty device. -/
def oneDevice : Platform :=
  { accelerators := [.ofDevices 1 1024], devices := [⟨0, { id := 0, unit := 0 }⟩], listed := 1 }

theorem fresh_oneDevice : oneDevice.Fresh := by
  refine ⟨{}, [.ofDevices 1 1024], rfl, fun a ha => ⟨1, 1024, ?_⟩⟩
  rw [List.mem_singleton.1 ha]

/-- A struct of 32 bytes and a member of it that points at 16 bytes. -/
def holderList : ArgumentList :=
  { arguments := [⟨64, 64, 32, .ofFlags [.toDevice, .fromDevice]⟩,
      ⟨64, 128, 16, (MapType.ofFlags [.toDevice, .fromDevice, .pointerAndObject]).withMemberOf 0⟩] }

/-! ## Steps -/

/-- Registering only flags devices. -/
theorem device_of_mem_register {d : LibraryDescription} {slot : DeviceSlot}
    (h : slot ∈ (pl.register d).2.devices) :
    ∃ old ∈ pl.devices, slot.device.mappings = old.device.mappings ∧
      slot.device.shadows = old.device.shadows := by
  rcases List.mem_append.1 h with h | h
  · obtain ⟨old, ho, rfl⟩ := List.mem_map.1 h
    exact ⟨old, List.mem_of_mem_take ho, rfl, rfl⟩
  · exact ⟨slot, List.mem_of_mem_drop h, rfl, rfl⟩

theorem orderly_register (d : LibraryDescription) : pl.Orderly (pl.register d).2 := by
  refine fun hs => ⟨⟨fun slot h => ?_, hs.accelerators⟩, fun ht slot h s hsh => ?_⟩
  · obtain ⟨old, ho, mappings, -⟩ := device_of_mem_register h
    rw [mappings]
    exact hs.mappings old ho
  · obtain ⟨old, ho, mappings, shadows⟩ := device_of_mem_register h
    rw [mappings]
    rw [shadows] at hsh
    exact ht old ho s hsh

theorem orderly_unregister (library : Nat) : pl.Orderly (pl.unregister library).2 := by
  unfold unregister
  split
  · exact orderly_of_same rfl rfl
  · exact orderly_of_same rfl rfl

/-- Using an accelerator directly does not touch devices. -/
theorem orderly_afterUse {α : Type} {x : AcceleratorM α} {accelerator : Nat}
    (hx : Along (Kept Accelerator.WellFormed) x) : pl.Orderly (pl.afterUse accelerator x) := by
  refine fun hs => ⟨⟨hs.mappings, fun a ha => ?_⟩, id⟩
  obtain ⟨i, hi⟩ := List.mem_iff_getElem?.1 ha
  change (pl.accelerators.modify _ _)[i]? = some a at hi
  rw [List.getElem?_modify] at hi
  obtain ⟨before, hb, rfl⟩ := Option.map_eq_some_iff.1 hi
  have sound := hs.accelerators before (List.mem_of_getElem? hb)
  split
  · exact hx before sound
  · exact sound

end Platform

namespace Call

open Platform

variable {pl : Platform} {c : Call}

/-- The call maps nothing implicitly. -/
def Explicit : Call → Prop
  | dataBegin _ l | target _ l _ _ => l.Explicit
  | _ => True

/-- Whether the call is one that ends an association. -/
def disassociates : Call → Bool
  | disassociate _ _ => true
  | _ => false

private theorem along_store {unit : Int} {c : Chunk} :
    Along (Kept Accelerator.WellFormed) (Accelerator.submit unit c) :=
  ((Accelerator.notes_submit Accelerator.Quiet.rewritten Accelerator.rewritten_write).along
    Accelerator.overlooks_rewritten).mono fun h => h.wellFormed

private theorem along_addKernel {k : Kernel} :
    Along (Kept Accelerator.WellFormed) (modify (·.register k) : AcceleratorM Unit) :=
  Along.modify fun _ h => h

theorem sound_perform (c : Call) : Kept Sound pl (pl.perform c) := by
  cases c with
  | dataBegin id l => exact sound_dataBegin { platform := pl, arguments := l }
  | dataEnd id l => exact (orderly_dataEnd { platform := pl, arguments := l }).sound
  | dataUpdate id l => exact (orderly_dataUpdate { platform := pl, arguments := l }).sound
  | target id l hostAddr kind => exact sound_target { platform := pl, arguments := l }
  | associate id first target size => exact (orderly_associate pl).sound
  | disassociate id first => exact sound_disassociate pl
  | pushTripCount id n => exact (orderly_pushTripCount pl).sound
  | register d => exact (orderly_register d).sound
  | unregister library => exact (orderly_unregister library).sound
  | write first content => exact fun h => h.of_same rfl rfl
  | allocate accelerator unit size => exact (orderly_afterUse Accelerator.along_allocate).sound
  | release accelerator unit addr => exact (orderly_afterUse Accelerator.along_delete).sound
  | store accelerator unit c =>
      exact (orderly_afterUse along_store).sound
  | addKernel accelerator k => exact (orderly_afterUse along_addKernel).sound

/-- Only ending an association may leave patched pointers behind. -/
theorem orderly_perform (explicit : c.Explicit) (keeps : c.disassociates = false) :
    pl.Orderly (pl.perform c) := by
  cases c with
  | dataBegin id l => exact orderly_dataBegin (s := { platform := pl, arguments := l }) explicit
  | dataEnd id l => exact orderly_dataEnd { platform := pl, arguments := l }
  | dataUpdate id l => exact orderly_dataUpdate { platform := pl, arguments := l }
  | target id l hostAddr kind =>
      exact orderly_target (s := { platform := pl, arguments := l }) explicit
  | associate id first target size => exact orderly_associate pl
  | disassociate id first => cases keeps
  | pushTripCount id n => exact orderly_pushTripCount pl
  | register d => exact orderly_register d
  | unregister library => exact orderly_unregister library
  | write first content => exact orderly_of_same rfl rfl
  | allocate accelerator unit size => exact orderly_afterUse Accelerator.along_allocate
  | release accelerator unit addr => exact orderly_afterUse Accelerator.along_delete
  | store accelerator unit c =>
      exact orderly_afterUse along_store
  | addKernel accelerator k => exact orderly_afterUse along_addKernel

end Call

namespace Platform

variable {pl : Platform}

theorem Reachable.sound (h : pl.Reachable) : pl.Sound := by
  induction h with
  | fresh h => exact h.sound
  | perform _ c ih => exact c.sound_perform ih

theorem Reachable.performAll {calls : List Call} (h : pl.Reachable) :
    (pl.performAll calls).Reachable := by
  induction calls generalizing pl with
  | nil => exact h
  | cons c rest ih => exact ih (h.perform c)

theorem sound_performAll {calls : List Call} (h : pl.Sound) : (pl.performAll calls).Sound := by
  induction calls generalizing pl with
  | nil => exact h
  | cons c rest ih => exact ih (c.sound_perform h)

end Platform

end Offloading
