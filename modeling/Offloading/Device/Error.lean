import Offloading.Accelerator
import Offloading.Mapping.Table
/-!
# Device errors

Why an operation on a device fails.
-/

namespace Offloading

/-- Which way bytes move. -/
inductive Direction where
  /-- From the host to the device. -/
  | hostToDevice
  /-- From the device to the host. -/
  | deviceToHost
  deriving DecidableEq, Repr

/-- The direction in words. -/
def Direction.text : Direction → String
  | hostToDevice => "host-to-device"
  | deviceToHost => "device-to-host"

/-- Why user memory is not associated, or not released, at a host address. -/
inductive AssociationError where
  /-- The section is mapped to another place, or only in part. -/
  | mappedElsewhere (hostBegin : Nat)
  /-- Nothing is mapped there. -/
  | notAssociated (hostBegin : Nat)
  /-- A region made the mapping. -/
  | mappedByRegion (hostBegin : Nat)
  deriving DecidableEq, Repr

/-- The error in words. -/
def AssociationError.message : AssociationError → String
  | mappedElsewhere hostBegin => "host " ++ Text.hex hostBegin ++ " is already mapped elsewhere"
  | notAssociated hostBegin => "host " ++ Text.hex hostBegin ++ " is not associated"
  | mappedByRegion hostBegin =>
    "host " ++ Text.hex hostBegin ++ " was mapped by a region, not associated"

/-- Why an operation on device number `device` fails. -/
inductive DeviceError where
  /-- The accelerator could not allocate. -/
  | allocationFailed (device size : Nat)
  /-- A copy of `size` bytes failed. -/
  | transferFailed (device : Nat) (direction : Direction) (target size : Nat)
      (cause : AcceleratorError)
  /-- A block could not be released. -/
  | releaseFailed (device target : Nat) (cause : AcceleratorError)
  /-- A kernel could not be run, or failed. -/
  | launchFailed (device entry : Nat) (cause : AcceleratorError)
  /-- A host section is not mapped. -/
  | unmapped (device first size : Nat)
  /-- A section cannot be mapped. -/
  | overlap (device : Nat) (cause : MappingError)
  /-- User memory cannot be associated or released. -/
  | association (device : Nat) (cause : AssociationError)
  /-- The mappings have no offset list. -/
  | offsetConflict (device : Nat) (cause : OffsetConflict)
  /-- The device could not be prepared. -/
  | initFailed (device : Nat) (cause : AcceleratorError)
  deriving DecidableEq, Repr

/-- How messages name a device. -/
def deviceLabel (device : Nat) : String := "device " ++ toString device

/-- The error in words. -/
def DeviceError.message : DeviceError → String
  | allocationFailed device size =>
    deviceLabel device ++ ": failed to allocate " ++ toString size ++ " bytes"
  | transferFailed device direction target size cause =>
    deviceLabel device ++ ": " ++ direction.text ++ " transfer of " ++ toString size
      ++ " bytes at " ++ Text.hex target ++ " failed: " ++ cause.message
  | releaseFailed device target cause =>
    deviceLabel device ++ ": failed to free " ++ Text.hex target ++ ": " ++ cause.message
  | launchFailed device entry cause =>
    deviceLabel device ++ ": kernel " ++ Text.hex entry ++ " failed: " ++ cause.message
  | unmapped device first size =>
    deviceLabel device ++ ": no mapping for host section at " ++ Text.hex first ++ " ("
      ++ toString size ++ " bytes)"
  | overlap device cause => deviceLabel device ++ ": " ++ cause.message
  | association device cause => deviceLabel device ++ ": " ++ cause.message
  | offsetConflict device cause => deviceLabel device ++ ": " ++ cause.message
  | initFailed device cause =>
    deviceLabel device ++ ": initialisation failed: " ++ cause.message

/-- The error in words, and the errors below it, where they are told apart. -/
def DeviceError.chain (e : DeviceError) : List String :=
  match e with
  | transferFailed _ _ _ _ cause | releaseFailed _ _ cause | launchFailed _ _ cause =>
    [e.message, cause.message]
  | overlap _ cause => [e.message, cause.message]
  | offsetConflict _ cause => [e.message, cause.message]
  | _ => [e.message]

end Offloading
