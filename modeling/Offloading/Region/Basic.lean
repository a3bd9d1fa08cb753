import Offloading.Error
import Offloading.Metrics
import Offloading.Strategy
/-!
# Region activations

What one call of a region works on, host memory and a device among it, and the small steps that all
phases of a region share.
-/

namespace Offloading

/-- The settings under which regions run. -/
structure Settings where
  /-- The configuration. -/
  config : Config := {}
  /-- The strategy that the configuration names. -/
  strategy : Strategy := .immediate
  deriving DecidableEq, Repr, Inhabited

/-- What one call of a region works on. -/
structure RegionState where
  /-- The device and the copies that wait. -/
  activation : Activation
  /-- Host memory. -/
  host : HostMemory
  /-- The arguments. -/
  arguments : ArgumentList := {}
  /-- Blocks that live until the kernel has run. -/
  scratch : List Nat := []
  /-- What the platform has done. -/
  metrics : Metrics := {}
  deriving Inhabited

/-- A step of a region. What it did before it failed stays done. -/
abbrev RegionM := ExceptT OffloadError (StateM RegionState)

namespace RegionM

/-- Moves bytes, now or later. -/
def transfer {α : Type} (x : TransferM α) : RegionM α :=
  ExceptT.mk fun s =>
    let (result, activation) := x.run.run s.activation
    (result.mapError .ofDevice, { s with activation })

/-- Works on the device. -/
def onDevice {α : Type} (x : DeviceM α) : RegionM α := transfer (TransferM.onDevice x)

/-- What is kept about the device. -/
def device : RegionM Device := do return (← get).activation.link.device

/-- Asks the argument list. -/
def arguments {α : Type} (ask : ArgumentList → Except ArgumentError α) : RegionM α := do
  match ask (← get).arguments with
  | .ok value => pure value
  | .error e => throw (.invalidArguments e)

/-- The host bytes of a section. -/
def readHost (first size : Nat) : RegionM (List UInt8) := do return (← get).host.read first size

/-- Stores bytes in host memory. -/
def writeHost (first : Nat) (content : List UInt8) : RegionM Unit :=
  modify fun s => { s with host := s.host.write first content }

/-- Puts the host values of patched pointers back into host memory. -/
def restorePointers (shadows : List ShadowPointer) : RegionM Unit :=
  shadows.forM fun s => writeHost s.hostSlot (Word.toBytes s.hostValue)

/-- Counts one run of a phase, if phases are timed. -/
def record (settings : Settings) (p : Phase) : RegionM Unit := do
  if settings.config.profiling then
    modify fun s => { s with metrics := s.metrics.record p 0 }

/-- Fails because a section is not mapped. -/
def unmapped {α : Type} (first size : Nat) : RegionM α := do
  throw (.unmappedAddress (← device).id first size)

/-- The device address of a section that must be mapped. -/
def translate (first size : Nat) : RegionM Nat := do
  match (← device).translate? first size with
  | some addr => pure addr
  | none => unmapped first size

/-- Whether exactly one reference holds the struct that a region is a member of. -/
def parentIsSoleOwner (region : Argument) : RegionM Bool := do
  match region.mapType.memberOf? with
  | none => return false
  | some parent =>
    let parent ← arguments (·.get parent)
    match (← device).mappings.refCountAt? parent.start with
    | some refCount => return refCount.value == 1
    | none => return false

/-- Does a step for every region of an argument. The plan of a region is resolved when its turn
comes. -/
def forRegions (step : Argument → RegionM Unit) : List RegionPlan → RegionM Unit
  | [] => pure ()
  | plan :: rest => do
    match plan.resolve (← get).host with
    | some region => step region
    | none => pure ()
    forRegions step rest

end RegionM

namespace Region

/-- First byte and length of the section that is mapped for a region. The section of a struct whose
members follow begins at a multiple of the struct alignment. -/
def mappedSection (settings : Settings) (padded : Bool) (region : Argument) : Nat × Nat :=
  if padded then
    let pad := region.start % settings.config.structAlignment
    (region.start - pad, region.size + pad)
  else (region.start, region.size)

/-- Whether the argument at a position is a struct whose section is padded. -/
def isPadded (arguments : ArgumentList) (index : Nat) (a : Argument) : Bool :=
  !a.mapType.has .nested && arguments.headsStruct index

end Region

end Offloading
