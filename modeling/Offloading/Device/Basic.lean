import Offloading.Device.Error
import Offloading.Device.Stats
import Offloading.Shadow
/-!
# Devices

What the platform keeps about one device, and the operations on it. An operation works on the device
together with the accelerator that serves it; what it did before it failed stays done.
-/

namespace Offloading

/-- What the platform keeps about a device. -/
structure Device where
  /-- The number that messages name. -/
  id : Nat
  /-- The number by which the accelerator knows the device. -/
  unit : Int
  /-- The live mappings. -/
  mappings : MappingTable := {}
  /-- The patched pointers. -/
  shadows : ShadowTable := ∅
  /-- Whether libraries may wait to be loaded. -/
  pending : Bool := false
  /-- How preparing the device ended, once it was tried. -/
  prepared : Option (Except AcceleratorError Unit) := none
  /-- The trip count for the next team launch. -/
  tripCount : Nat := 0
  /-- What was moved, allocated and launched. -/
  transfers : TransferStats := {}

namespace Device

instance : Inhabited Device := ⟨{ id := 0, unit := 0 }⟩

/-- Whether the device was prepared with success. -/
def isPrepared (d : Device) : Bool :=
  match d.prepared with
  | some (.ok ()) => true
  | _ => false

/-- The device address of a host section, if it meets a mapping. -/
def translate? (d : Device) (first size : Nat) : Option Nat :=
  (d.mappings.lookup first size).mapping?.map (·.translate first)

/-- The device in one line, for people. -/
def debugText (d : Device) : String :=
  "Device \x7b id: " ++ toString d.id ++ ", plugin: \"" ++ Accelerator.name ++ "\", rtl_device: "
    ++ toString d.unit ++ ", mappings: " ++ toString d.mappings.size ++ " \x7d"

end Device

/-- A device and the accelerator that serves it. -/
structure Link where
  /-- The device. -/
  device : Device
  /-- The accelerator. -/
  accelerator : Accelerator
  deriving Inhabited

/-- An operation on a device. -/
abbrev DeviceM := ExceptT DeviceError (StateM Link)

namespace DeviceM

/-- What is kept about the device. -/
def device : DeviceM Device := do return (← get).device

/-- Changes what is kept about the device. -/
def modifyDevice (f : Device → Device) : DeviceM Unit :=
  modify fun s => { s with device := f s.device }

/-- Changes the mapping table. -/
def modifyMappings (f : MappingTable → MappingTable) : DeviceM Unit :=
  modifyDevice fun d => { d with mappings := f d.mappings }

/-- Counts something in the transfer statistics. -/
def count (f : TransferStats → TransferStats) : DeviceM Unit :=
  modifyDevice fun d => { d with transfers := f d.transfers }

/-- Calls the accelerator. -/
def call {α : Type} (wrap : AcceleratorError → DeviceError) (x : AcceleratorM α) : DeviceM α :=
  ExceptT.mk fun s =>
    let (result, accelerator) := x.run.run s.accelerator
    (result.mapError wrap, { s with accelerator })

end DeviceM

namespace Device

open DeviceM

/-- Prepares the device at the first call; later calls end as the first one did. -/
def prepare : DeviceM Unit := do
  let d ← device
  let outcome ← match d.prepared with
    | some outcome => pure outcome
    | none =>
      let s ← get
      let (outcome, accelerator) := (Accelerator.initialise d.unit).run.run s.accelerator
      set { s with accelerator, device := { d with prepared := some outcome } }
      pure outcome
  match outcome with
  | .ok () => pure ()
  | .error e => throw (.initFailed d.id e)

end Device

end Offloading
