import Offloading.Kernel.Code
import Offloading.Library.Basic
/-!
# Accelerators

An accelerator drives one or more devices: it holds their memories, knows the kernels, and serves
calls one at a time. A schedule says which calls are to fail before they reach the hardware; what a
failed call did before it failed stays done.
-/

namespace Offloading

/-- The kinds of calls that an accelerator serves and counts. -/
inductive CallKind where
  /-- Preparing a device. -/
  | initialise
  /-- Loading an image. -/
  | load
  /-- Allocating device memory. -/
  | allocate
  /-- Releasing device memory. -/
  | delete
  /-- Copying to a device. -/
  | submit
  /-- Copying from a device. -/
  | retrieve
  /-- Copying several chunks to a device. -/
  | batch
  /-- Running a kernel. -/
  | run
  deriving DecidableEq, Repr

/-- The call's name in messages. -/
def CallKind.name : CallKind → String
  | initialise => "init"
  | load => "load"
  | allocate => "alloc"
  | delete => "delete"
  | submit => "submit"
  | retrieve => "retrieve"
  | batch => "batch"
  | run => "run"

/-- How many calls of each kind were made. -/
structure CallCounts where
  /-- Calls to prepare a device. -/
  initialise : Nat := 0
  /-- Calls to load an image. -/
  load : Nat := 0
  /-- Calls to allocate. -/
  allocate : Nat := 0
  /-- Calls to release. -/
  delete : Nat := 0
  /-- Copies to a device. -/
  submit : Nat := 0
  /-- Copies from a device. -/
  retrieve : Nat := 0
  /-- Batches. -/
  batch : Nat := 0
  /-- Launches. -/
  run : Nat := 0
  deriving DecidableEq, Repr, Inhabited

namespace CallCounts

/-- The calls of one kind. -/
def of (c : CallCounts) : CallKind → Nat
  | .initialise => c.initialise
  | .load => c.load
  | .allocate => c.allocate
  | .delete => c.delete
  | .submit => c.submit
  | .retrieve => c.retrieve
  | .batch => c.batch
  | .run => c.run

/-- Counts one more call. -/
def add (c : CallCounts) : CallKind → CallCounts
  | .initialise => { c with initialise := c.initialise + 1 }
  | .load => { c with load := c.load + 1 }
  | .allocate => { c with allocate := c.allocate + 1 }
  | .delete => { c with delete := c.delete + 1 }
  | .submit => { c with submit := c.submit + 1 }
  | .retrieve => { c with retrieve := c.retrieve + 1 }
  | .batch => { c with batch := c.batch + 1 }
  | .run => { c with run := c.run + 1 }

end CallCounts

/-- Why an accelerator call fails. -/
inductive AcceleratorError where
  /-- The schedule let the call fail. -/
  | injected (call : CallKind)
  /-- The accelerator has no device of this number. -/
  | noSuchDevice (unit : Int)
  /-- No kernel lies at this address. -/
  | noKernel (entry : Nat)
  /-- A launch has more or fewer offsets than arguments. -/
  | offsetCount (arguments offsets : Nat)
  /-- An image names a kernel that the accelerator does not know. -/
  | unknownKernel (name : String)
  /-- There is no room for a global variable. -/
  | noRoom (name : String)
  /-- A device has no room for this many bytes. -/
  | outOfMemory (size : Nat)
  /-- No block starts at this address. -/
  | notAllocated (addr : Nat)
  /-- Device memory was not accessible. -/
  | access (error : AccessError)
  /-- The kernel failed. -/
  | kernel (error : KernelError)
  deriving DecidableEq, Repr

/-- The error in words. -/
def AcceleratorError.message : AcceleratorError → String
  | injected call => "injected " ++ call.name ++ " fault"
  | noSuchDevice unit => "no such device " ++ toString unit
  | noKernel entry => "no kernel at " ++ Text.hex entry
  | offsetCount arguments offsets =>
    toString arguments ++ " arguments but " ++ toString offsets ++ " offsets"
  | unknownKernel name => "kernel '" ++ name ++ "' not registered"
  | noRoom name => "no room for global '" ++ name ++ "'"
  | outOfMemory size => "no room for " ++ toString size ++ " bytes"
  | notAllocated addr => Text.hex addr ++ " is not an allocation"
  | access error => error.message
  | kernel error => error.message

/-- A piece of a copy to a device. -/
structure Chunk where
  /-- Where it goes. -/
  target : Nat
  /-- What is copied. -/
  content : List UInt8
  deriving DecidableEq, Repr, Inhabited

/-- The bytes in all chunks. -/
def Chunk.totalLength : List Chunk → Nat
  | [] => 0
  | c :: rest => c.content.length + totalLength rest

/-- What an accelerator did for one of its devices. -/
inductive Service where
  /-- It allocated a block for a global variable. -/
  | placed (addr : Nat)
  /-- It was asked to release the block at an address, whether there was one or not. -/
  | released (addr : Nat)
  /-- It copied bytes to the device. -/
  | submitted (bytes : Nat)
  /-- It copied bytes from the device. -/
  | retrieved (bytes : Nat)
  /-- It copied the bytes of a batch to the device. -/
  | batched (bytes : Nat)
  /-- It ran the kernel at an address, which did not fail. -/
  | ran (entry : Nat)
  deriving DecidableEq, Repr

/-- How a kernel is launched. -/
inductive LaunchKind where
  /-- On one team of one thread. -/
  | single
  /-- On several teams. -/
  | teams (numTeams threadLimit : Int)
  deriving DecidableEq, Repr

/-- An accelerator. -/
structure Accelerator where
  /-- The memory of each device. -/
  memories : List DeviceMemory
  /-- Which devices were prepared. -/
  initialised : List Bool
  /-- The kernels, in the order of their addresses. -/
  kernels : List Kernel := []
  /-- Kernels launched. -/
  launches : Nat := 0
  /-- Batches served as a whole. -/
  batches : Nat := 0
  /-- Whether batches are served as a whole or chunk by chunk. -/
  wholeBatches : Bool := true
  /-- Which calls of a kind, counted from zero, are to fail. -/
  schedule : CallKind → Nat → Bool := fun _ _ => false
  /-- How many calls of a kind were made. -/
  calls : CallCounts := {}
  /-- What kernels reported, first line first. -/
  reports : List KernelReport := []
  /-- The releases that failed, first one first: the device and the address. -/
  failedReleases : List (Int × Nat) := []
  /-- What was done for which device, first things first. -/
  services : List (Int × Service) := []

/-- A call to an accelerator. What it changed stays changed when it fails. -/
abbrev AcceleratorM := ExceptT AcceleratorError (StateM Accelerator)

namespace Accelerator

/-- The name of this kind of accelerator. -/
def name : String := "host"

/-- Device address of the first block of the first device. -/
def memoryBase : Nat := 0xd00000000000

/-- Distance between the memories of neighbouring devices. -/
def memoryStride : Nat := 0x10000000000

/-- Address of the first kernel. -/
def kernelBase : Nat := 0xc00000000000

/-- The capacity of a device for which none is given. -/
def defaultCapacity : Nat := Word.greatest / 4

/-- An accelerator whose devices hold at most `capacity` bytes each. -/
def ofDevices (numDevices capacity : Nat) : Accelerator where
  memories := (List.range numDevices).map fun i =>
    { next := memoryBase + i * memoryStride, capacity }
  initialised := List.replicate numDevices false

instance : Inhabited Accelerator := ⟨ofDevices 1 defaultCapacity⟩

/-- The number of devices. -/
def numDevices (a : Accelerator) : Nat := a.memories.length

/-- The position of a device number, if there is such a device. -/
def position? (a : Accelerator) (unit : Int) : Option Nat :=
  match unit with
  | .ofNat i => if i < a.memories.length then some i else none
  | .negSucc _ => none

/-- The memory of a device. -/
def memory? (a : Accelerator) (unit : Int) : Option DeviceMemory :=
  (a.position? unit).bind fun i => a.memories[i]?

/-- Live blocks on a device. -/
def liveBlocks (a : Accelerator) (unit : Int) : Nat :=
  match a.memory? unit with
  | some m => m.liveBlocks
  | none => 0

/-- Bytes allocated on a device. -/
def usedBytes (a : Accelerator) (unit : Int) : Nat :=
  match a.memory? unit with
  | some m => m.used
  | none => 0

/-- Whether a device was prepared. -/
def isInitialised (a : Accelerator) (unit : Int) : Bool :=
  match a.position? unit with
  | some i => a.initialised.getD i false
  | none => false

/-- Adds a kernel. -/
def register (a : Accelerator) (k : Kernel) : Accelerator := { a with kernels := a.kernels ++ [k] }

/-- The memory of a device, read directly. -/
def inspect (a : Accelerator) (unit : Int) (addr size : Nat) :
    Except AcceleratorError (List UInt8) :=
  match a.memory? unit with
  | none => .error (.noSuchDevice unit)
  | some m => (m.read addr size).mapError .access

/-- Counts a call; it fails if the schedule says so. -/
def attempt (call : CallKind) : AcceleratorM Unit := do
  let a ← get
  set { a with calls := a.calls.add call }
  if a.schedule call (a.calls.of call) then throw (.injected call)

/-- The memory of a device. -/
def memory (unit : Int) : AcceleratorM DeviceMemory := do
  match (← get).memory? unit with
  | some m => pure m
  | none => throw (.noSuchDevice unit)

/-- Replaces the memory of a device. -/
def setMemory (unit : Int) (m : DeviceMemory) : AcceleratorM Unit :=
  modify fun a => { a with memories := a.memories.set unit.toNat m }

/-- Remembers what was done for a device. -/
def note (unit : Int) (service : Service) : AcceleratorM Unit :=
  modify fun a => { a with services := a.services ++ [(unit, service)] }

/-- Does something for a device and remembers it if it succeeds. -/
def noting {α : Type} (unit : Int) (service : Service) (x : AcceleratorM α) : AcceleratorM α := do
  let value ← x
  note unit service
  return value

/-- Prepares a device. -/
def initialise (unit : Int) : AcceleratorM Unit := do
  attempt .initialise
  let _ ← memory unit
  modify fun a => { a with initialised := a.initialised.set unit.toNat true }

/-- Gives a symbol of an image its device address: a global variable gets a block of its own, a
function the address of the first kernel of its name. -/
def loadSymbol (unit : Int) (s : Symbol) : AcceleratorM Symbol := do
  if s.isGlobal then
    let (addr?, m) := (← memory unit).allocate s.size
    setMemory unit m
    match addr? with
    | some addr =>
      note unit (.placed addr)
      pure { s with addr }
    | none => throw (.noRoom s.name)
  else
    match (← get).kernels.findIdx? fun k => k.name == s.name with
    | some i => pure { s with addr := kernelBase + i }
    | none => throw (.unknownKernel s.name)

/-- Loads an image, symbol by symbol. -/
def load (unit : Int) (image : Image) : AcceleratorM Image := do
  attempt .load
  image.mapM (loadSymbol unit)

/-- Allocates `size` bytes of device memory. -/
def allocate (unit : Int) (size : Nat) : AcceleratorM Nat := do
  attempt .allocate
  let (addr?, m) := (← memory unit).allocate size
  setMemory unit m
  match addr? with
  | some addr => pure addr
  | none => throw (.outOfMemory size)

/-- Releases the block that starts at a device address. -/
def release (unit : Int) (addr : Nat) : AcceleratorM Unit := do
  note unit (.released addr)
  attempt .delete
  let (found, m) := (← memory unit).free addr
  setMemory unit m
  unless found do throw (.notAllocated addr)

/-- Releases a block, and remembers its address if that fails. -/
def delete (unit : Int) (addr : Nat) : AcceleratorM Unit := do
  try release unit addr
  catch e =>
    modify fun a => { a with failedReleases := a.failedReleases ++ [(unit, addr)] }
    throw e

/-- Stores bytes in the memory of a device. -/
def store (unit : Int) (c : Chunk) : AcceleratorM Unit := do
  match (← memory unit).write c.target c.content with
  | .ok m => setMemory unit m
  | .error e => throw (.access e)

/-- Sends bytes to a device. -/
def send (unit : Int) (c : Chunk) : AcceleratorM Unit := do
  attempt .submit
  store unit c

/-- Copies bytes to a device. -/
def submit (unit : Int) (c : Chunk) : AcceleratorM Unit :=
  noting unit (.submitted c.content.length) (send unit c)

/-- Copies bytes from a device. -/
def retrieve (unit : Int) (addr size : Nat) : AcceleratorM (List UInt8) :=
  noting unit (.retrieved size) do
    attempt .retrieve
    match (← memory unit).read addr size with
    | .ok content => pure content
    | .error e => throw (.access e)

/-- Copies several chunks to a device, up to the first that fails: as one batch, or by one call for
each chunk. -/
def submitBatch (unit : Int) (chunks : List Chunk) : AcceleratorM Unit :=
  noting unit (.batched (Chunk.totalLength chunks)) do
    if (← get).wholeBatches then
      attempt .batch
      let _ ← memory unit
      chunks.forM (store unit)
      modify fun a => { a with batches := a.batches + 1 }
    else
      chunks.forM (send unit)

/-- The kernel at an address. -/
def kernelAt? (a : Accelerator) (entry : Nat) : Option Kernel :=
  if entry < kernelBase then none else a.kernels[entry - kernelBase]?

/-- Runs the kernel at an address. Each argument is displaced by its offset. -/
def run (unit : Int) (entry : Nat) (arguments : List Nat) (offsets : List Int) (kind : LaunchKind)
    (tripCount : Nat) : AcceleratorM Unit :=
  noting unit (.ran entry) do
    attempt .run
    if arguments.length ≠ offsets.length then
      throw (.offsetCount arguments.length offsets.length)
    match (← get).kernelAt? entry with
    | none => throw (.noKernel entry)
    | some kernel =>
      let m ← memory unit
      let displaced := List.zipWith Word.displace arguments offsets
      let context : KernelContext := match kind with
        | .single => ⟨displaced, 1, 1, 0⟩
        | .teams numTeams threadLimit => ⟨displaced, numTeams, threadLimit, tripCount⟩
      let outcome := (kernel.body context).run.run m
      setMemory unit outcome.memory
      modify fun a => { a with
        launches := a.launches + 1
        reports := a.reports ++ outcome.reports }
      match outcome.value with
      | .ok () => pure ()
      | .error e => throw (.kernel e)

end Accelerator

end Offloading
