import Offloading.Device.Upload
import Offloading.Region.Enter
import Offloading.Region.Leave
/-!
# Launching a region's kernel

The arguments are mapped, the kernel's arguments are staged, the kernel runs, the blocks made for the
launch are freed, and the arguments are released. A launch that fails frees its blocks as well.
-/

namespace Offloading.Region

open RegionM

/-- The kernel arguments staged so far. -/
structure Staged where
  /-- The arguments. -/
  arguments : List Nat := []
  /-- What is added to each of them at the launch. -/
  offsets : List Int := []
  /-- For each argument of the region, the position among the kernel's arguments. -/
  positions : List (Option Nat) := []
  deriving DecidableEq, Repr, Inhabited

namespace Staged

/-- Adds a kernel argument that stands for no argument of the region. -/
def push (s : Staged) (argument : Nat) (offset : Int) : Staged :=
  { s with arguments := s.arguments ++ [argument], offsets := s.offsets ++ [offset] }

/-- Adds the kernel argument for the next argument of the region. -/
def pass (s : Staged) (argument : Nat) (offset : Int) : Staged :=
  { s.push argument offset with positions := s.positions ++ [some s.arguments.length] }

/-- Leaves the next argument of the region out. -/
def skip (s : Staged) : Staged := { s with positions := s.positions ++ [none] }

/-- The value that the kernel sees for an argument of the region. -/
def value? (s : Staged) (index : Nat) : Option Nat := do
  let position ← s.positions[index]?.join
  return Word.displace (← s.arguments[position]?) (← s.offsets[position]?)

end Staged

/-- Lets a block live until the kernel has run. -/
def adopt (target : Nat) : RegionM Unit :=
  modify fun s => { s with scratch := s.scratch ++ [target] }

/-- Allocates a block that lives until the kernel has run. -/
def allocateScratch (size : Nat) : RegionM Nat := do
  let target ← onDevice (Device.allocate size)
  adopt target
  return target

/-- Frees the given blocks, each of them even if another one fails, and gives the first failure. -/
def freeAll : List Nat → RegionM (Option OffloadError)
  | [] => pure none
  | target :: rest => do
    let failure ← try
        onDevice (Device.free target)
        pure none
      catch e => pure (some e)
    return failure.or (← freeAll rest)

/-- Frees all blocks made for the launch. -/
def freeScratch : RegionM (Option OffloadError) := do
  let blocks := (← get).scratch
  modify fun s => { s with scratch := [] }
  freeAll blocks

/-- Points the pointer that a lambda object captured, in the object's device copy, at the device copy
of the captured section. A section that is not mapped is left out. -/
def patchCapture (staged : Staged) (index : Nat) (a : Argument) (parent? : Option Nat) :
    RegionM Unit := do
  match parent? with
  | none => throw (.invalidArguments (.invalidParent index index))
  | some parent =>
    match staged.value? parent with
    | none => throw (.invalidArguments (.invalidParent index parent))
    | some object =>
      let parent ← arguments (·.get parent)
      let slot := Word.add object (Word.sub a.base parent.start)
      match (← device).translate? a.start a.size with
      | some captured => onDevice (Device.submit slot (Word.toBytes captured))
      | none => pure ()

/-- The kernel argument and offset for an argument that is passed to the kernel. -/
def kernelArgument (a : Argument) : RegionM (Nat × Int) := do
  match a.kind with
  | .literal => return (a.base, 0)
  | .privateCopy copied =>
    let target ← allocateScratch a.size
    if copied then onDevice (Device.submit target (← readHost a.start a.size))
    return (target, a.baseOffset)
  | .pointerAndObject => return (← translate a.base Word.bytes, 0)
  | .plain | .lambdaCapture _ =>
    match (← device).translate? a.start a.size with
    | some target => return (target, a.baseOffset)
    | none =>
      if a.size = 0 then return (0, a.baseOffset)
      unmapped a.start a.size

/-- Stages the argument at a position. -/
def stageArgument (staged : Staged) (index : Nat) (a : Argument) : RegionM Staged := do
  if a.mapType.has .targetParam then
    let (argument, offset) ← kernelArgument a
    return staged.pass argument offset
  match a.kind with
  | .lambdaCapture parent? => patchCapture staged index a parent?
  | _ => pure ()
  return staged.skip

/-- Stages the arguments from a position on. -/
def stageArguments (staged : Staged) (index : Nat) : List Argument → RegionM Staged
  | [] => pure staged
  | a :: rest => do stageArguments (← stageArgument staged index a) (index + 1) rest

/-- Uploads the address table, if kernels get one. -/
def stageAddressTable (settings : Settings) : RegionM (Option UploadedTable) := do
  if settings.config.addressTable then
    let uploaded ← onDevice (Device.uploadAddressTable (← device).addressTable)
    adopt uploaded.target
    return some uploaded
  return none

/-- Uploads the offset list, if kernels get one. -/
def stageOffsetList (settings : Settings) : RegionM (Option UploadedTable) := do
  match settings.config.addressOffset with
  | none => return none
  | some w =>
    let list ← onDevice (Device.offsetList (.ofNat w.mask) (.ofNat w.shift))
    let uploaded ← onDevice (Device.uploadOffsetList list)
    adopt uploaded.target
    return some uploaded

/-- What a launch hands to its kernel. -/
structure LaunchPlan where
  /-- The arguments. -/
  arguments : List Nat
  /-- What is added to each of them. -/
  offsets : List Int
  /-- Sections in the address table. -/
  tableEntries : Nat
  deriving DecidableEq, Repr, Inhabited

/-- Stages what the kernel gets: the region's arguments, then address table, number of its sections
and mask, then the offset list. -/
def stage (settings : Settings) : RegionM LaunchPlan := do
  let table? ← stageAddressTable settings
  let offsets? ← stageOffsetList settings
  let staged ← stageArguments {} 0 (← get).arguments.arguments
  let staged := match table? with
    | none => staged
    | some table =>
      let staged := (staged.push table.target 0).push table.segments 0
      match settings.config.addressMask with
      | some mask => staged.push mask 0
      | none => staged
  let staged := match offsets? with
    | some list => staged.push list.target 0
    | none => staged
  let tableEntries := match table? with
    | some table => table.segments
    | none => 0
  return ⟨staged.arguments, staged.offsets, tableEntries⟩

/-- Stages the arguments and runs the kernel at an address. -/
def stageAndLaunch (settings : Settings) (entry : Nat) (kind : LaunchKind) : RegionM Unit := do
  let plan ← stage settings
  onDevice (Device.launch entry plan.arguments plan.offsets kind)
  record settings .kernel
  modify fun s => { s with metrics := s.metrics.recordLaunch plan.tableEntries }

/-- Runs a region with the kernel at an address. -/
def run (settings : Settings) (entry : Nat) (kind : LaunchKind) : RegionM Unit := do
  enter settings
  try
    stageAndLaunch settings entry kind
  catch e =>
    let _ ← freeScratch
    throw e
  match ← freeScratch with
  | some e => throw e
  | none => leave settings

end Offloading.Region
