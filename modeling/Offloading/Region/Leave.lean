import Offloading.Region.Basic
/-!
# Leaving a region

Releases the arguments of a region, the last one first. Sections whose last reference goes away are
copied back and freed, and the host values of patched pointers are put back after each copy.
-/

namespace Offloading.Region

open RegionM

/-- Gives back the reference that a region took on its pointer slot. -/
def releasePointer (slot : Nat) : RegionM Unit := do
  match ← onDevice (Device.hold slot Word.bytes true) with
  | none => unmapped slot Word.bytes
  | some held => if held.isLast then onDevice (Device.unmap slot Word.bytes false)

/-- Copies a section back if it is mapped from the device and `removed`, always copied, or a member of
a struct with a single owner. -/
def copyBack (region : Argument) (first size source : Nat) (removed : Bool) : RegionM Bool := do
  let t := region.mapType
  if t.has .fromDevice then
    let member ←
      if t.isMember && !t.has .pointerAndObject then parentIsSoleOwner region else pure false
    if removed || t.has .always || member then
      writeHost first (← onDevice (Device.retrieve source size))
      return true
  return false

/-- Puts the host values of the pointers in a section back after it was copied, and forgets the
pointers if the section's mapping is removed. -/
def restoreShadows (settings : Settings) (first size : Nat) (copied removed : Bool) :
    RegionM Unit := do
  if (copied || removed) && !settings.config.translatesOnDevice then
    let shadows ← onDevice (Device.visitShadows first (first + size) removed)
    if copied then restorePointers shadows

/-- Releases the section of a region, without its pointer slot. Plain members never remove the mapping
of their struct. -/
def releaseSection (settings : Settings) (padded : Bool) (region : Argument) : RegionM Unit := do
  let t := region.mapType
  let (first, size) := mappedSection settings padded region
  let plainMember := t.isMember && !t.has .pointerAndObject
  match ← onDevice (Device.hold first size (!plainMember)) with
  | none => unless size = 0 do unmapped first size
  | some held =>
    let removed := (held.isLast || t.has .delete) && !plainMember
    let copied ← copyBack region first size held.addr removed
    restoreShadows settings first size copied removed
    if removed then onDevice (Device.unmap first size (t.has .delete))

/-- Releases one region. -/
def unmapRegion (settings : Settings) (padded : Bool) (region : Argument) : RegionM Unit := do
  if !region.isMapped then return
  releaseSection settings padded region
  if region.mapType.has .pointerAndObject && !region.mapType.isMember then
    releasePointer region.base

/-- Releases the argument at a position. -/
def unmapArgument (settings : Settings) (index : Nat) : RegionM Unit := do
  let a ← arguments (·.get index)
  if !a.isMapped then return
  let padded := isPadded (← get).arguments index a
  forRegions (unmapRegion settings padded) (← arguments (·.plans index))

/-- Releases all arguments, the last one first. -/
def leave (settings : Settings) : RegionM Unit := do
  (List.range (← get).arguments.size).reverse.forM (unmapArgument settings)

end Offloading.Region
