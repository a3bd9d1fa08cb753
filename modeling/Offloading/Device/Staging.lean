import Offloading.Device.Transfer
/-!
# Staged transfers

Copies and pointer patches that are collected first and sent later, all copies in one batch and then
all patches in another, so that no staged copy overwrites a patched pointer. A queue that is dropped
sends nothing.
-/

namespace Offloading

/-- A copy that waits in a queue. -/
structure StagedCopy where
  /-- Where it goes. -/
  target : Nat
  /-- How many bytes were staged before it. -/
  offset : Nat
  /-- What is copied. -/
  content : List UInt8
  deriving DecidableEq, Repr, Inhabited

/-- A pointer patch that waits in a queue. -/
structure PendingPatch where
  /-- Host address of the pointer. -/
  hostSlot : Nat
  /-- Where the section that it points into begins. -/
  pointee : Nat
  /-- Distance from the pointer's value to that beginning. -/
  delta : Nat
  /-- Host value of the pointer. -/
  hostValue : Nat
  deriving DecidableEq, Repr, Inhabited

/-- Copies and patches that wait, first come first. -/
structure TransferQueue where
  /-- The copies. -/
  copies : List StagedCopy := []
  /-- Bytes in all the copies. -/
  stagedBytes : Nat := 0
  /-- The patches. -/
  patches : List PendingPatch := []
  deriving DecidableEq, Repr, Inhabited

namespace TransferQueue

/-- Stages a copy; one of no bytes is left out. -/
def stage (q : TransferQueue) (target : Nat) (content : List UInt8) : TransferQueue :=
  if content.isEmpty then q
  else
    { q with
      copies := q.copies ++ [⟨target, q.stagedBytes, content⟩]
      stagedBytes := q.stagedBytes + content.length }

/-- Lets a patch wait. -/
def suspend (q : TransferQueue) (p : PendingPatch) : TransferQueue :=
  { q with patches := q.patches ++ [p] }

/-- Whether nothing waits. -/
def isEmpty (q : TransferQueue) : Bool := q.copies.isEmpty && q.patches.isEmpty

/-- The queue without its copies. -/
def withoutCopies (q : TransferQueue) : TransferQueue := { q with copies := [], stagedBytes := 0 }

/-- The queue without its patches. -/
def withoutPatches (q : TransferQueue) : TransferQueue := { q with patches := [] }

end TransferQueue

namespace StagedCopy

/-- Whether `next` continues this copy, on the device and among the staged bytes. -/
def continuedBy (c next : StagedCopy) : Bool :=
  c.target + c.content.length == next.target && c.offset + c.content.length == next.offset

/-- Joins each copy with the next ones as long as they continue it. -/
def coalesce : List StagedCopy → List StagedCopy
  | [] => []
  | c :: rest => go c rest
where
  /-- Goes on with the copy that was joined so far. -/
  go (c : StagedCopy) : List StagedCopy → List StagedCopy
    | [] => [c]
    | next :: rest =>
      if c.continuedBy next then go { c with content := c.content ++ next.content } rest
      else c :: go next rest

/-- The chunks of a batch: the copies by device address, those staged first going first among
equals, and joined where they continue each other. -/
def chunks (copies : List StagedCopy) : List Chunk :=
  (coalesce (copies.mergeSort fun a b => a.target ≤ b.target)).map fun c => ⟨c.target, c.content⟩

end StagedCopy

/-- What a batch sent. -/
structure BatchSummary where
  /-- Chunks sent. -/
  chunks : Nat := 0
  /-- Bytes sent. -/
  bytes : Nat := 0
  deriving DecidableEq, Repr, Inhabited

namespace Device

open DeviceM

/-- Copies several chunks to the device as one batch. -/
def submitBatch (chunks : List Chunk) : DeviceM BatchSummary := do
  let d ← device
  let size := Chunk.totalLength chunks
  let first := match chunks with
    | c :: _ => c.target
    | [] => 0
  call (.transferFailed d.id .hostToDevice first size) (Accelerator.submitBatch d.unit chunks)
  count (·.recordBatch chunks.length size)
  return ⟨chunks.length, size⟩

/-- Sends staged copies as one batch. -/
def sendCopies (copies : List StagedCopy) : DeviceM BatchSummary := do
  if copies.isEmpty then return {}
  submitBatch (StagedCopy.chunks copies)

/-- The shadow of a pending patch. A pointee that is not mapped gives a null pointer, and the
pointer itself must be mapped. -/
def resolvePatch (p : PendingPatch) : DeviceM ShadowPointer := do
  let deviceValue := match (← device).translate? p.pointee 0 with
    | some addr => Word.sub addr p.delta
    | none => 0
  return ⟨p.hostSlot, p.hostValue, ← pointerSlot p.hostSlot, deviceValue⟩

/-- Sends pending patches as one batch and remembers the patched pointers. -/
def sendPatches (patches : List PendingPatch) : DeviceM Nat := do
  if patches.isEmpty then return 0
  let shadows ← patches.mapM resolvePatch
  let _ ← submitBatch (shadows.map fun s => ⟨s.deviceSlot, Word.toBytes s.deviceValue⟩)
  shadows.forM recordShadow
  return patches.length

end Device

end Offloading
