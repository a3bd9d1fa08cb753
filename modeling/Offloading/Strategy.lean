import Offloading.Config
import Offloading.Device.Staging
/-!
# Transfer strategies

How the copies and pointer patches of one region activation reach the device: at once, or collected
in the activation's queue and sent when all arguments are mapped.
-/

namespace Offloading

/-- A pointer whose device copy is to point at a device section. -/
structure PointerPatch where
  /-- Host address of the pointer. -/
  hostSlot : Nat
  /-- Host value of the pointer. -/
  hostValue : Nat
  /-- Device address of the pointer. -/
  deviceSlot : Nat
  /-- Where the section that it points into begins. -/
  pointee : Nat
  /-- Distance from the pointer's value to that beginning. -/
  delta : Nat
  /-- Device address of the section, if it is mapped. -/
  pointeeTarget : Option Nat
  deriving DecidableEq, Repr, Inhabited

namespace PointerPatch

/-- What the device copy of the pointer receives; null for a section that is not mapped. -/
def deviceValue (p : PointerPatch) : Nat :=
  match p.pointeeTarget with
  | some target => Word.sub target p.delta
  | none => 0

/-- The shadow that remembers the patch. -/
def shadow (p : PointerPatch) : ShadowPointer :=
  ⟨p.hostSlot, p.hostValue, p.deviceSlot, p.deviceValue⟩

/-- What waits in a queue of the patch. -/
def pending (p : PointerPatch) : PendingPatch := ⟨p.hostSlot, p.pointee, p.delta, p.hostValue⟩

end PointerPatch

/-- A device and the queue of one region activation. -/
structure Activation where
  /-- The device and its accelerator. -/
  link : Link
  /-- What waits to be sent. -/
  queue : TransferQueue := {}
  deriving Inhabited

/-- A step of a region activation that moves bytes. -/
abbrev TransferM := ExceptT DeviceError (StateM Activation)

namespace TransferM

/-- Works on the device alone. -/
def onDevice {α : Type} (x : DeviceM α) : TransferM α :=
  ExceptT.mk fun s =>
    let (result, link) := x.run.run s.link
    (result, { s with link })

/-- Works on the queue alone. -/
def onQueue (f : TransferQueue → TransferQueue) : TransferM Unit :=
  modify fun s => { s with queue := f s.queue }

/-- Sends the staged copies, which leaves none, even if that fails. -/
def sendCopies : TransferM BatchSummary := do
  let copies := (← get).queue.copies
  onQueue .withoutCopies
  onDevice (Device.sendCopies copies)

/-- Sends the pending patches, which leaves none, even if that fails. -/
def sendPatches : TransferM Nat := do
  let patches := (← get).queue.patches
  onQueue .withoutPatches
  onDevice (Device.sendPatches patches)

end TransferM

namespace Strategy

open TransferM

/-- Copies bytes to the device, now or later. -/
def submit (target : Nat) (content : List UInt8) : Strategy → TransferM Unit
  | immediate => onDevice (Device.submit target content)
  | bulk => onQueue (·.stage target content)

/-- Patches a pointer, now or later. -/
def patch (p : PointerPatch) : Strategy → TransferM Unit
  | immediate => onDevice (Device.patch p.shadow)
  | bulk => onQueue (·.suspend p.pending)

/-- Does what was left for later and gives the number of pointers patched thereby. -/
def flush : Strategy → TransferM Nat
  | immediate => pure 0
  | bulk => do
    let _ ← sendCopies
    sendPatches

end Strategy

end Offloading
