import Offloading.Device.Basic
/-!
# The life of a mapping

Mapping a host section allocates device memory, unless a mapping already covers the section and
takes one more reference. Releasing it gives references back; with the last one the mapping goes
away, the shadows in its section with it, and its device memory is freed. Associated user memory
and global variables have infinite counts and never go away by releasing.
-/

namespace Offloading

/-- Where a section was mapped. -/
structure MappedSection where
  /-- Device address of the first byte. -/
  addr : Nat
  /-- The mapping was made for this request. -/
  isNew : Bool
  deriving DecidableEq, Repr, Inhabited

/-- Where a section to be released is mapped. -/
structure HeldSection where
  /-- Device address of the first byte. -/
  addr : Nat
  /-- Only one reference was left. -/
  isLast : Bool
  deriving DecidableEq, Repr, Inhabited

namespace Device

open DeviceM

/-- Allocates a block. -/
def allocate (size : Nat) : DeviceM Nat := do
  let d ← device
  let addr ← call (fun _ => .allocationFailed d.id size) (Accelerator.allocate d.unit size)
  count .recordAllocation
  return addr

/-- Frees a block. -/
def free (addr : Nat) : DeviceM Unit := do
  let d ← device
  call (.releaseFailed d.id addr) (Accelerator.delete d.unit addr)
  count .recordDeallocation

/-- Adds a mapping to the table. -/
def insertMapping (m : Mapping) : DeviceM Unit := do
  let d ← device
  let (result, mappings) := d.mappings.insert m
  modifyMappings fun _ => mappings
  match result with
  | .ok () => pure ()
  | .error e => throw (.overlap d.id e)

/-- Maps the `size` bytes at `first`, which belong to the object at `base`. A mapping that the
section meets takes one more reference if `updateRef` is set; the section must lie inside of it
unless the map is implicit. An empty section that meets no mapping has no device address. -/
def map (first base size : Nat) (implicit updateRef : Bool) : DeviceM (Option MappedSection) := do
  let d ← device
  let found := d.mappings.lookup first size
  match found.mapping? with
  | some m =>
    if found.isPartial && !implicit then
      modifyMappings .recordOverlap
      throw (.overlap d.id
        (.overlap first (Word.saturatingAdd first size) m.hostBegin m.hostEnd))
    else
      let refCount := if updateRef then m.refCount.increment else m.refCount
      modifyMappings fun t => (t.setCount m refCount).recordReuse
      return some ⟨m.translate first, false⟩
  | none =>
    if size = 0 then return none
    let addr ← allocate size
    insertMapping { hostBase := base, hostBegin := first, hostEnd := first + size,
                    deviceBegin := addr }
    return some ⟨addr, true⟩

/-- Where the `size` bytes at `first` are mapped. If `updateRef` is set, one reference is given
back, but never the last one. -/
def hold (first size : Nat) (updateRef : Bool) : DeviceM (Option HeldSection) := do
  let d ← device
  match (d.mappings.lookup first size).mapping? with
  | none => return none
  | some m =>
    let isLast := m.refCount.isLast
    if updateRef && !isLast then
      modifyMappings fun t => t.setCount m m.refCount.decrement
    return some ⟨m.translate first, isLast⟩

/-- Removes a mapping, the shadows in its section, and its device memory. -/
def removeMapping (m : Mapping) : DeviceM Unit := do
  modifyDevice fun d =>
    { d with
      mappings := (d.mappings.remove m.hostBegin).2
      shadows := d.shadows.eraseRange m.hostBegin m.hostEnd }
  free m.deviceBegin

/-- Gives back one reference to the mapping that the section meets, or all of them if `force` is
set, and removes the mapping with the last one. -/
def unmap (first size : Nat) (force : Bool) : DeviceM Unit := do
  let d ← device
  match (d.mappings.lookup first size).mapping? with
  | none => throw (.unmapped d.id first size)
  | some m =>
    if m.refCount.isInfinite then return
    let refCount := (if force then ReferenceCount.one else m.refCount).decrement
    if 0 < refCount.value then modifyMappings fun t => t.setCount m refCount
    else removeMapping m

/-- Maps the `size` bytes at `first` to user memory at `target`, with an infinite count. -/
def associate (first target size : Nat) : DeviceM Unit := do
  let d ← device
  let found := d.mappings.lookup first size
  match found.mapping? with
  | some m =>
    unless found.contained && m.translate first == target do
      throw (.association d.id (.mappedElsewhere first))
  | none =>
    insertMapping { hostBase := first, hostBegin := first, hostEnd := first + size,
                    deviceBegin := target, refCount := .infinite }

/-- Removes an associated mapping and leaves its memory to the user. -/
def disassociate (first : Nat) : DeviceM Unit := do
  let d ← device
  match (d.mappings.lookup first 0).mapping? with
  | none => throw (.association d.id (.notAssociated first))
  | some m =>
    if m.refCount.isInfinite then modifyMappings fun t => (t.remove m.hostBegin).2
    else throw (.association d.id (.mappedByRegion first))

/-- Maps a global variable, with an infinite count, unless its section meets a mapping. -/
def mapGlobal (first target size : Nat) : DeviceM Bool := do
  let d ← device
  if (d.mappings.lookup first size).isFound then return false
  insertMapping { hostBase := first, hostBegin := first, hostEnd := first + size,
                  deviceBegin := target, refCount := .infinite }
  return true

end Device

end Offloading
