import Offloading.Argument.List
import Offloading.Config
import Offloading.Device.Error
/-!
# Errors of the platform

Why a call to the platform fails.
-/

namespace Offloading

/-- Why a device cannot be used. -/
inductive ReadinessError where
  /-- No device has this number. -/
  | invalidId (id : Int)
  /-- There are only so many devices. -/
  | onlyDevices (count : Nat)
  /-- The device could not be prepared. -/
  | initFailed (error : DeviceError)
  /-- An image could not be loaded. -/
  | loadFailed (cause : AcceleratorError)
  /-- An image has more or fewer symbols than the library. -/
  | symbolCount (image host : Nat)
  deriving DecidableEq, Repr

/-- The error in words. -/
def ReadinessError.message : ReadinessError → String
  | invalidId id => "invalid device id " ++ toString id
  | onlyDevices count => "only " ++ toString count ++ " devices available"
  | initFailed error => error.message
  | loadFailed cause => "loading image failed: " ++ cause.message
  | symbolCount image host =>
    "image has " ++ toString image ++ " entries but the host table has " ++ toString host

/-- Why a call to the platform fails. -/
inductive OffloadError where
  /-- A device has no room. -/
  | allocationFailure (device size : Nat)
  /-- A copy failed. -/
  | transferFailure (direction : Direction) (cause : DeviceError)
  /-- A kernel could not be run, or failed. -/
  | launchFailure (entry : Nat) (cause : DeviceError)
  /-- A section that has to be mapped is not. -/
  | unmappedAddress (device first size : Nat)
  /-- A section cannot be mapped. -/
  | overlapViolation (cause : DeviceError)
  /-- A block could not be released. -/
  | releaseFailure (device target : Nat) (cause : AcceleratorError)
  /-- User memory cannot be associated or released. -/
  | associationConflict (device : Nat) (cause : AssociationError)
  /-- The mappings have no offset list. -/
  | offsetConflict (cause : DeviceError)
  /-- No loaded library has a kernel for a host function. -/
  | entryTableExhausted (hostAddr : Nat)
  /-- A device cannot be used. -/
  | deviceNotReady (device : Nat) (cause : ReadinessError)
  /-- The argument list is inconsistent. -/
  | invalidArguments (cause : ArgumentError)
  /-- The configuration is unusable. -/
  | config (cause : ConfigError)
  deriving DecidableEq, Repr

namespace OffloadError

/-- The error in words. -/
def message : OffloadError → String
  | allocationFailure device size =>
    deviceLabel device ++ ": allocation of " ++ toString size ++ " bytes failed"
  | transferFailure direction cause =>
    direction.text ++ " transfer failed: " ++ cause.message
  | launchFailure entry cause =>
    "launch of entry " ++ Text.hex entry ++ " failed: " ++ cause.message
  | unmappedAddress device first size =>
    deviceLabel device ++ ": host range [" ++ Text.hex first ++ ", +" ++ toString size
      ++ ") is not mapped"
  | overlapViolation cause => "overlapping map: " ++ cause.message
  | releaseFailure device target cause =>
    deviceLabel device ++ ": release of " ++ Text.hex target ++ " failed: " ++ cause.message
  | associationConflict device cause =>
    deviceLabel device ++ ": association rejected: " ++ cause.message
  | offsetConflict cause => "offset translation impossible: " ++ cause.message
  | entryTableExhausted hostAddr => "no target entry for host function " ++ Text.hex hostAddr
  | deviceNotReady device cause => deviceLabel device ++ " not ready: " ++ cause.message
  | invalidArguments cause => "invalid arguments: " ++ cause.message
  | config cause => "configuration error: " ++ cause.message

/-- The error in words, and the errors below it, where they are told apart. -/
def chain (e : OffloadError) : List String :=
  match e with
  | transferFailure _ cause | launchFailure _ cause | overlapViolation cause
  | offsetConflict cause => e.message :: cause.chain
  | releaseFailure _ _ cause => [e.message, cause.message]
  | invalidArguments cause => [e.message, cause.message]
  | _ => [e.message]

/-- A device error as the platform's callers see it. -/
def ofDevice (e : DeviceError) : OffloadError :=
  match e with
  | .allocationFailed device size => allocationFailure device size
  | .transferFailed _ direction _ _ _ => transferFailure direction e
  | .releaseFailed device target cause => releaseFailure device target cause
  | .launchFailed _ entry _ => launchFailure entry e
  | .unmapped device first size => unmappedAddress device first size
  | .overlap _ _ => overlapViolation e
  | .association device cause => associationConflict device cause
  | .offsetConflict _ _ => offsetConflict e
  | .initFailed device _ => deviceNotReady device (.initFailed e)

end OffloadError

/-- The status that a call reports: zero for success and minus one for an error. -/
def returnCode {α : Type} : Except OffloadError α → Int
  | .ok _ => 0
  | .error _ => -1

end Offloading
