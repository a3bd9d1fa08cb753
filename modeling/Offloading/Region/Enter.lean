import Offloading.Region.Basic
/-!
# Entering a region

Maps the arguments of a region in order, copies what has to be copied to the device and patches the
device copies of pointers.
-/

namespace Offloading.Region

open RegionM

/-- A pointer of the region and the device address of its copy. -/
structure MappedPointer where
  /-- Host address. -/
  hostSlot : Nat
  /-- Device address. -/
  deviceSlot : Nat

/-- Maps the pointer slot of a region, if it has one. -/
def mapPointer (region : Argument) : RegionM (Option MappedPointer) := do
  let t := region.mapType
  if t.has .pointerAndObject then
    let slot := region.base
    match ← onDevice (Device.map slot slot Word.bytes (t.has .implicit) (!t.isMember)) with
    | some mapped => return some ⟨slot, mapped.addr⟩
    | none => unmapped slot Word.bytes
  else return none

/-- Whether the bytes of a region go to the device: when its mapping is new, when they always do, and
when it is a member of a struct with a single owner. -/
def copiesIn (region : Argument) (isNew : Bool) : RegionM Bool := do
  if isNew || region.mapType.has .always then return true
  if region.mapType.isMember then parentIsSoleOwner region else return false

/-- Sends the bytes of a mapped section to the device, if they have to go there. -/
def copyIn (settings : Settings) (region : Argument) (first size : Nat) :
    Option MappedSection → RegionM Unit
  | none => pure ()
  | some mapped => do
    if region.mapType.has .toDevice then
      if ← copiesIn region mapped.isNew then
        transfer (settings.strategy.submit mapped.addr (← readHost first size))

/-- Points the device copy of a region's pointer, whose host value is `base`, at the device copy of
the section at `first`, unless kernels translate host addresses themselves. -/
def patchPointer (settings : Settings) (first base : Nat) (target? : Option Nat) :
    Option MappedPointer → RegionM Unit
  | none => pure ()
  | some pointer => do
    unless settings.config.translatesOnDevice do
      transfer (settings.strategy.patch
        ⟨pointer.hostSlot, base, pointer.deviceSlot, first, Word.sub first base, target?⟩)
      record settings .pointerUpdate

/-- The base of the object that a region belongs to: what its pointer holds, if it has one. -/
def objectBase (host : HostMemory) (region : Argument) : Option MappedPointer → Nat
  | some pointer => host.readPointer pointer.hostSlot
  | none => region.base

/-- The device address that stands for `base` when the section at `first` is mapped to `target?`;
null for a section that is not mapped. -/
def deviceBase (first base : Nat) : Option Nat → Nat
  | some target => Word.sub target (Word.sub first base)
  | none => 0

/-- Maps one region and gives its device base, if that is to be written back. -/
def mapRegion (settings : Settings) (padded : Bool) (region : Argument) : RegionM (Option Nat) := do
  if !region.isMapped then return none
  let t := region.mapType
  let (first, size) := mappedSection settings padded region
  let pointer? ← mapPointer region
  let base := objectBase (← get).host region pointer?
  let updateRef := pointer?.isSome || !t.isMember
  let mapped? ← onDevice (Device.map first base size (t.has .implicit) updateRef)
  copyIn settings region first size mapped?
  let target? := mapped?.map (·.addr)
  patchPointer settings first base target? pointer?
  return if t.has .returnParam then some (deviceBase first base target?) else none

/-- Maps the regions of an argument and gives the last device base that is to be written back. -/
def mapPlans (settings : Settings) (padded : Bool) :
    List RegionPlan → (returned : Option Nat) → RegionM (Option Nat)
  | [], returned => pure returned
  | plan :: rest, returned => do
    match plan.resolve (← get).host with
    | none => mapPlans settings padded rest returned
    | some region =>
      let base ← mapRegion settings padded region
      mapPlans settings padded rest (base.or returned)

/-- Maps the argument at a position. -/
def mapArgument (settings : Settings) (index : Nat) : RegionM Unit := do
  let a ← arguments (·.get index)
  if !a.isMapped then return
  let padded := isPadded (← get).arguments index a
  let plans ← arguments (·.plans index)
  match ← mapPlans settings padded plans none with
  | none => pure ()
  | some base =>
    let changed ← arguments (·.setBase index base)
    modify fun s => { s with arguments := changed }

/-- Maps all arguments in order and sends what waits then. -/
def enter (settings : Settings) : RegionM Unit := do
  (List.range (← get).arguments.size).forM (mapArgument settings)
  let patched ← transfer settings.strategy.flush
  if 0 < patched then record settings .pointerUpdate

end Offloading.Region
