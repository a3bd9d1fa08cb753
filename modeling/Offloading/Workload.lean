import Offloading.Device.Stats
import Offloading.Platform.Calls
/-!
# A simulated workload

An array of structs on the host, each with a pointer to an array of its own. Regions map them all and
run a kernel that adds one to every element; afterwards the host has to look as if it had done that
itself.
-/

namespace Offloading

/-- The shape of a workload. -/
structure Workload where
  /-- Structs. -/
  structs : Nat := 32
  /-- Bytes behind the pointer of each struct. -/
  payload : Nat := 1024
  /-- Regions. -/
  iterations : Nat := 10
  deriving DecidableEq, Repr, Inhabited

/-- Why a workload cannot be run to its end. -/
inductive WorkloadError where
  /-- There is no platform of this configuration. -/
  | building (cause : ConfigError)
  /-- A region failed. -/
  | region (index : Nat) (cause : OffloadError)
  /-- There is no default device. -/
  | device (cause : OffloadError)
  deriving DecidableEq, Repr

namespace WorkloadError

/-- What was done when the error came up, where that is told, and the errors below it. -/
def chain : WorkloadError → List String
  | building cause => "building runtime" :: (OffloadError.config cause).chain
  | region index cause => ("region " ++ toString index ++ " failed") :: cause.chain
  | device cause => cause.chain

end WorkloadError

namespace Workload

/-- The elements behind the pointer of each struct, one at least. -/
def elements (w : Workload) : Nat := max 1 (w.payload / 4)

/-- Bytes of an element. -/
def elementBytes : Nat := 4

/-- Bytes of a struct: its pointer and the number of its elements. -/
def structBytes : Nat := 2 * Word.bytes

/-- Where the host buffers of a workload lie: the array of structs, and the elements of each struct. -/
structure Buffers where
  /-- Address of the first struct. -/
  structs : Nat
  /-- Address of the elements of each struct. -/
  elements : Nat → Nat

/-- Host address of a struct. -/
def Buffers.structAddr (b : Buffers) (s : Nat) : Nat := b.structs + s * structBytes

/-- Host address of the structs of a run for which no buffers are given. -/
def structBase : Nat := 0x100000000

/-- What separates the buffers of such a run. -/
def gap : Nat := 64

/-- The buffers of a run for which none are given. -/
def buffers (w : Workload) : Buffers where
  structs := structBase
  elements s := structBase + w.structs * structBytes + gap + s * (w.elements * elementBytes + gap)

/-- An element as it is stored. -/
def elementText (value : Nat) : List UInt8 := Word.lowBytes value elementBytes

/-- The elements of a struct after a number of regions. -/
def contentAfter (w : Workload) (regions s : Nat) : List UInt8 :=
  (List.range w.elements).flatMap fun e => elementText (e + s + regions)

/-- Stores a struct and its elements. -/
def place (w : Workload) (b : Buffers) (m : HostMemory) (s : Nat) : HostMemory :=
  ((m.writePointer (b.structAddr s) (b.elements s)).writePointer (b.structAddr s + Word.bytes)
    w.elements).write (b.elements s) (w.contentAfter 0 s)

/-- Host memory before the first region. -/
def initialHost (w : Workload) (b : Buffers) : HostMemory :=
  (List.range w.structs).foldl (w.place b) {}

/-- The arguments for a struct: the struct itself, and its pointer with the elements. -/
def structArguments (w : Workload) (b : Buffers) (s : Nat) : List Argument :=
  let addr := b.structAddr s
  [⟨addr, addr, structBytes, .ofFlags [.toDevice, .fromDevice, .targetParam]⟩,
    ⟨addr, b.elements s, w.elements * elementBytes,
      (MapType.ofFlags [.toDevice, .fromDevice, .pointerAndObject]).withMemberOf (2 * s)⟩]

/-- The arguments of each region. -/
def arguments (w : Workload) (b : Buffers) : ArgumentList :=
  { arguments := (List.range w.structs).flatMap (w.structArguments b) }

/-- Adds one to every element. -/
def incremented : List UInt8 → List UInt8
  | a :: b :: c :: d :: rest => elementText (Word.ofBytes [a, b, c, d] + 1) ++ incremented rest
  | rest => rest

/-- Adds one to every element of the struct that is the kernel's argument at a position. Its pointer
is a host address if there is an address table. -/
def incrementStruct (w : Workload) (context : KernelContext) (table? : Option Nat) (s : Nat) :
    KernelM Unit := do
  let pointer ← KernelM.readWord (← KernelM.argument context s)
  let target ← match table? with
    | some table => KernelM.translate table pointer
    | none => pure pointer
  let content ← KernelM.readBytes target (w.elements * elementBytes)
  KernelM.writeBytes target (incremented content)

/-- The kernel. -/
def kernel (w : Workload) (addressTable : Bool) : Kernel where
  name := "increment"
  body context := do
    let table? ← if addressTable then some <$> KernelM.argument context w.structs else pure none
    (List.range w.structs).forM (w.incrementStruct context table?)

/-- Host address of the kernel's function. -/
def kernelAddr : Nat := 0x4000

/-- The library of the kernel. -/
def library : LibraryDescription :=
  let symbols : List Symbol := [⟨"increment", kernelAddr, 0⟩]
  LibraryDescription.withImage { hostSymbols := symbols } 0 (.ofHost symbols)

/-- The platform over one device, with the kernel registered and host memory filled. -/
def platform (w : Workload) (b : Buffers) (config : Config) : Except ConfigError Platform := do
  let accelerator := (Accelerator.ofDevices 1 Accelerator.defaultCapacity).register
    (w.kernel config.addressTable)
  let pl ← Platform.ofAccelerators config [accelerator]
  let (_, pl) := pl.register library
  return { pl with host := w.initialHost b }

/-- Runs one region. -/
def runRegion (s : CallState) (index : Nat) : Except WorkloadError CallState :=
  match (Platform.target (-1) kernelAddr .single).run.run s with
  | (.ok _, s) => .ok s
  | (.error e, _) => .error (.region index e)

/-- Whether a struct and its elements are as they have to be after all regions. -/
def isUpdated (w : Workload) (b : Buffers) (m : HostMemory) (s : Nat) : Bool :=
  m.readPointer (b.structAddr s) == b.elements s
    && m.read (b.elements s) (w.elements * elementBytes) == w.contentAfter w.iterations s

/-- What a workload has done. -/
structure Report where
  /-- The strategy. -/
  strategy : Strategy
  /-- Whether kernels had an address table. -/
  addressTable : Bool
  /-- How long the regions took, in nanoseconds of the simulated clock, which stands still. -/
  elapsed : Nat := 0
  /-- Whether the host is as it has to be and nothing is mapped any more. -/
  verified : Bool
  /-- What the platform has done. -/
  metrics : Metrics
  /-- What the device has done. -/
  transfers : TransferStats
  deriving Repr

/-- The name of the way in which pointers reached the device. -/
def Report.label (r : Report) : String :=
  if r.addressTable then r.strategy.name ++ "+table" else r.strategy.name

/-- Runs a workload in the given buffers. -/
def runIn (w : Workload) (b : Buffers) (config : Config) : Except WorkloadError Report := do
  let pl ← (w.platform b config).mapError .building
  let start : CallState := { platform := pl, arguments := w.arguments b }
  let final ← (List.range w.iterations).foldlM runRegion start
  let pl := final.platform
  let used : PlatformM Link := do Platform.link (← Platform.deviceIndex (-1))
  let link ← (used.run.run pl).1.mapError .device
  return {
    strategy := pl.settings.strategy
    addressTable := config.addressTable
    verified := (List.range w.structs).all (w.isUpdated b pl.host) && link.device.mappings.isEmpty
    metrics := pl.metrics
    transfers := link.device.transfers }

/-- Runs a workload. -/
def run (w : Workload) (config : Config) : Except WorkloadError Report := w.runIn w.buffers config

end Workload

end Offloading
