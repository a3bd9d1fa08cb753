import Offloading.Device.Mapping
/-!
# Moving bytes and running kernels

Copies between host bytes and device memory, patched pointers, and launches. Copies of no bytes
never reach the accelerator and are not counted.
-/

namespace Offloading.Device

open DeviceM

/-- Copies bytes to the device. -/
def submit (target : Nat) (content : List UInt8) : DeviceM Unit := do
  if content.isEmpty then return
  let d ← device
  call (.transferFailed d.id .hostToDevice target content.length)
    (Accelerator.submit d.unit ⟨target, content⟩)
  count (·.recordSubmission content.length)

/-- Copies bytes from the device. -/
def retrieve (target size : Nat) : DeviceM (List UInt8) := do
  if size = 0 then return []
  let d ← device
  let content ← call (.transferFailed d.id .deviceToHost target size)
    (Accelerator.retrieve d.unit target size)
  count (·.recordRetrieval size)
  return content

/-- Remembers a patched pointer. -/
def recordShadow (s : ShadowPointer) : DeviceM Unit :=
  modifyDevice fun d => { d with shadows := d.shadows.insert s }

/-- Writes the device value of a pointer into its copy and remembers its host value. -/
def patch (s : ShadowPointer) : DeviceM Unit := do
  submit s.deviceSlot (Word.toBytes s.deviceValue)
  recordShadow s

/-- The patched pointers with host slots in `[lower, upper)`, highest first; they are forgotten if
`erase` is set. -/
def visitShadows (lower upper : Nat) (erase : Bool) : DeviceM (List ShadowPointer) := do
  let (visited, shadows) := ShadowTable.visit (← device).shadows lower upper erase
  modifyDevice fun d => { d with shadows }
  return visited

/-- Writes the device values of the patched pointers in `[lower, upper)` once more. -/
def resubmitShadows (lower upper : Nat) : DeviceM Nat := do
  let patched := (← device).shadows.range lower upper
  patched.forM fun s => submit s.deviceSlot (Word.toBytes s.deviceValue)
  return patched.length

/-- The device address of the pointer at a host slot. -/
def pointerSlot (hostSlot : Nat) : DeviceM Nat := do
  let d ← device
  match d.translate? hostSlot Word.bytes with
  | some addr => pure addr
  | none => throw (.unmapped d.id hostSlot Word.bytes)

/-- Sets the trip count for the next team launch. -/
def pushTripCount (n : Nat) : DeviceM Unit := modifyDevice fun d => { d with tripCount := n }

/-- Takes the trip count, which leaves zero. -/
def takeTripCount : DeviceM Nat := do
  let d ← device
  modifyDevice fun d => { d with tripCount := 0 }
  return d.tripCount

/-- Runs a kernel. A team launch uses up the trip count, whether the kernel runs or not. -/
def launch (entry : Nat) (arguments : List Nat) (offsets : List Int) (kind : LaunchKind) :
    DeviceM Unit := do
  let tripCount ← match kind with
    | .single => pure 0
    | .teams _ _ => takeTripCount
  let d ← device
  call (.launchFailed d.id entry)
    (Accelerator.run d.unit entry arguments offsets kind tripCount)
  count .recordLaunch

end Offloading.Device
