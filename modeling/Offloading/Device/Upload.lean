import Offloading.Device.Transfer
/-!
# Uploaded tables

An address table or offset list of the live mappings is copied into a block of its own, which the
caller frees after the launch.
-/

namespace Offloading

/-- A table in device memory. -/
structure UploadedTable where
  /-- Where it lies. -/
  target : Nat
  /-- How many sections or windows it has. -/
  segments : Nat
  deriving DecidableEq, Repr, Inhabited

namespace Device

open DeviceM

/-- The address table of the live mappings. -/
def addressTable (d : Device) : AddressTable := .ofMappings d.mappings.toList

/-- The offset list of the live mappings. -/
def offsetList (mask : UInt64) (shift : UInt32) : DeviceM OffsetList := do
  let d ← device
  match OffsetList.ofMappings mask shift d.mappings.toList with
  | .ok list => pure list
  | .error conflict => throw (.offsetConflict d.id conflict)

/-- Copies bytes into a fresh block. If the copy fails, the block is freed at once. -/
def upload (content : List UInt8) : DeviceM Nat := do
  let target ← allocate content.length
  try
    submit target content
  catch e =>
    try free target catch _ => pure ()
    throw e
  return target

/-- Copies an address table to the device. -/
def uploadAddressTable (t : AddressTable) : DeviceM UploadedTable := do
  return ⟨← upload t.encode, t.size⟩

/-- Copies an offset list to the device. -/
def uploadOffsetList (l : OffsetList) : DeviceM UploadedTable := do
  return ⟨← upload l.encode, l.usedWindows⟩

end Device

end Offloading
