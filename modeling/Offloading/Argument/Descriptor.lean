import Offloading.Argument.Basic
import Offloading.Memory.Host
/-!
# Descriptors

A nested argument stands for several regions, which its descriptor lists. Regions that depend on
host memory are listed as plans, and a plan is resolved only when its turn comes, so that it sees
what the regions before it wrote.
-/

namespace Offloading

/-- A region still to be resolved. -/
inductive RegionPlan where
  /-- A region that is known beforehand. -/
  | known (region : Argument)
  /-- The `size` bytes behind the pointer stored at a host slot, if it is not null. -/
  | pointee (slot size : Nat) (mapType : MapType)
  deriving DecidableEq, Repr

/-- The region of a plan in the present host memory. -/
def RegionPlan.resolve (host : HostMemory) : RegionPlan → Option Argument
  | known region => some region
  | pointee slot size mapType =>
    match host.readPointer slot with
    | 0 => none
    | start => some ⟨slot, start, size, mapType⟩

/-- Clears the flags that call for a descriptor. -/
def RegionPlan.unnested : RegionPlan → RegionPlan
  | known region => known { region with mapType := region.mapType.clear [.nested, .hasNested] }
  | pointee slot size mapType => pointee slot size (mapType.clear [.nested, .hasNested])

/-- What a nested argument stands for. -/
inductive Descriptor where
  /-- A fixed list of regions. -/
  | regions (list : List Argument)
  /-- The argument's section is an array of pointers, each to `elementSize` bytes. -/
  | pointerArray (elementSize : Nat)
  /-- A descriptor that cannot be expanded. -/
  | refused (detail : String)
  deriving Repr

namespace Descriptor

/-- The flags that the elements of a pointer array take over from the array. -/
def inherited : List MapFlag := [.toDevice, .fromDevice, .always, .delete]

/-- The regions that `seed` stands for under this descriptor. -/
def expand (seed : Argument) : Descriptor → Except String (List RegionPlan)
  | regions list => .ok (list.map .known)
  | pointerArray elementSize =>
    if seed.size % Word.bytes ≠ 0 then
      .error ("pointer array of " ++ toString seed.size ++ " bytes is not a whole number of pointers")
    else
      let mapType := (seed.mapType.keep inherited).set [.pointerAndObject]
      let slots := (List.range (seed.size / Word.bytes)).map fun i => seed.start + i * Word.bytes
      .ok (.known seed :: slots.map fun slot => .pointee slot elementSize mapType)
  | refused detail => .error detail

end Descriptor

end Offloading
