import Offloading.Region.Basic
/-!
# Refreshing mapped sections

Copies mapped sections in either direction without touching their mappings. Sections that are not
mapped are left out.
-/

namespace Offloading.Region

open RegionM

/-- Refreshes one region; whether it was mapped. -/
def refreshRegion (region : Argument) : RegionM Bool := do
  if !region.isMapped then return false
  let (first, size) := (region.start, region.size)
  match (← device).translate? first size with
  | none => return false
  | some target =>
    if region.mapType.has .fromDevice then
      writeHost first (← onDevice (Device.retrieve target size))
      restorePointers (← onDevice (Device.visitShadows first (first + size) false))
    if region.mapType.has .toDevice then
      onDevice (Device.submit target (← readHost first size))
      let _ ← onDevice (Device.resubmitShadows first (first + size))
    return true

/-- Refreshes the regions of an argument and counts those that were mapped. -/
def refreshPlans : List RegionPlan → RegionM Nat
  | [] => pure 0
  | plan :: rest => do
    let moved ← match plan.resolve (← get).host with
      | some region => refreshRegion region
      | none => pure false
    let others ← refreshPlans rest
    return (if moved then 1 else 0) + others

/-- Refreshes the argument at a position and counts its mapped regions. -/
def refreshArgument (index : Nat) : RegionM Nat := do
  let a ← arguments (·.get index)
  if !a.isMapped then return 0
  refreshPlans (← arguments (·.plans index))

/-- Refreshes the arguments at the given positions. -/
def refreshAll : List Nat → RegionM Nat
  | [] => pure 0
  | index :: rest => do
    let moved ← refreshArgument index
    let others ← refreshAll rest
    return moved + others

/-- Refreshes all arguments in order and counts the regions that were mapped. -/
def refresh : RegionM Nat := do refreshAll (List.range (← get).arguments.size)

end Offloading.Region
