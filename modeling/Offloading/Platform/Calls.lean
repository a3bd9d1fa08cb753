import Offloading.Region.Launch
import Offloading.Region.Refresh
import Offloading.Platform.Libraries
/-!
# Calls to the platform

The calls that a program makes. Each one prepares the device that it names, works on the argument list
of the caller, and counts itself when it has succeeded.
-/

namespace Offloading

/-- The platform and the argument list of a call. -/
structure CallState where
  /-- The platform. -/
  platform : Platform
  /-- The argument list. -/
  arguments : ArgumentList := {}
  deriving Inhabited

/-- A call with an argument list. What it did before it failed stays done. -/
abbrev CallM := ExceptT OffloadError (StateM CallState)

namespace CallM

/-- Works on the platform alone. -/
def onPlatform {α : Type} (x : PlatformM α) : CallM α :=
  ExceptT.mk fun s =>
    let (result, platform) := x.run.run s.platform
    (result, { s with platform })

/-- Works on a device, host memory and the arguments. -/
def inRegion {α : Type} (dev : Nat) (x : Settings → RegionM α) : CallM α := do
  let s ← get
  let link ← onPlatform (Platform.link dev)
  let (result, after) := (x s.platform.settings).run.run
    { activation := { link }
      host := s.platform.host
      arguments := s.arguments
      metrics := s.platform.metrics }
  set { s with
    arguments := after.arguments
    platform := { s.platform.setLink dev after.activation.link with
      host := after.host
      metrics := after.metrics } }
  match result with
  | .ok value => pure value
  | .error e => throw e

/-- Runs a region with the kernel of a host function. -/
def runRegion (dev hostAddr : Nat) (kind : LaunchKind) : CallM Unit := do
  let link ← onPlatform (Platform.link dev)
  let entry ← onPlatform (Platform.resolveEntry link.device.id hostAddr)
  inRegion dev fun settings => Region.run settings entry kind

end CallM

namespace Platform

open CallM

/-- Runs a constructor as a region without arguments. -/
def runConstructor (dev hostAddr : Nat) : PlatformM Unit :=
  ExceptT.mk fun pl =>
    let (result, s) := (runRegion dev hostAddr .single).run.run { platform := pl }
    (result, s.platform)

/-- The position of the device that a caller names, prepared and with all libraries loaded. -/
def ready (id : Int) : PlatformM Nat := do
  let dev ← deviceIndex id
  checkReady dev (runConstructor dev)
  return dev

/-- Maps the arguments. -/
def dataBegin (id : Int) : CallM Unit := do
  let dev ← onPlatform (ready id)
  inRegion dev Region.enter
  onPlatform (record .dataBegin)

/-- Releases the arguments. -/
def dataEnd (id : Int) : CallM Unit := do
  let dev ← onPlatform (ready id)
  inRegion dev Region.leave
  onPlatform (record .dataEnd)

/-- Refreshes the mapped sections of the arguments and counts them. -/
def dataUpdate (id : Int) : CallM Nat := do
  let dev ← onPlatform (ready id)
  let moved ← inRegion dev fun _ => Region.refresh
  onPlatform (record .dataUpdate)
  return moved

/-- Maps the arguments, runs the kernel of a host function, and releases the arguments. -/
def target (id : Int) (hostAddr : Nat) (kind : LaunchKind) : CallM Unit := do
  let dev ← onPlatform (ready id)
  runRegion dev hostAddr kind
  onPlatform (record .target)

/-- Maps a section to user memory. -/
def associate (id : Int) (first target size : Nat) : PlatformM Unit := do
  onDevice (← ready id) (Device.associate first target size)

/-- Removes the mapping of user memory. -/
def disassociate (id : Int) (first : Nat) : PlatformM Unit := do
  onDevice (← ready id) (Device.disassociate first)

/-- Sets the trip count for the next team launch on a device. -/
def pushTripCount (id : Int) (n : Nat) : PlatformM Unit := do
  onDevice (← deviceIndex id) (Device.pushTripCount n)

end Platform

end Offloading
