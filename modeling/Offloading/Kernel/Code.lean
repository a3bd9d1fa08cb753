import Offloading.Memory.Device
import Offloading.AddressTable
import Offloading.OffsetList
/-!
# Device code

What a kernel does while it runs: it reads and writes device memory and reports, and nothing else.
Code is a finite tree of such steps, so running it always ends and never allocates or frees a block.
-/

namespace Offloading

/-- What a launch hands to its kernel. -/
structure KernelContext where
  /-- The arguments, offsets included. -/
  arguments : List Nat
  /-- Teams asked for. -/
  numTeams : Int
  /-- Threads allowed in a team. -/
  threadLimit : Int
  /-- Trip count pushed for the launch, or zero. -/
  tripCount : Nat
  deriving DecidableEq, Repr, Inhabited

/-- Why a kernel fails. -/
inductive KernelError where
  /-- Device memory was not accessible. -/
  | access (error : AccessError)
  /-- There is no argument at this position. -/
  | missingArgument (index passed : Nat)
  /-- The address table in device memory is no table. -/
  | addressTable (error : AddressTableError)
  /-- A host address lies in no section of the address table. -/
  | untranslated (addr : Nat)
  /-- The shift of the offset list in device memory does not fit into 32 bits. -/
  | invalidShift (shift : Nat)
  /-- The offset list has no window for a host address. -/
  | outsideWindows (addr : Nat)
  /-- The kernel gave up for a reason of its own. -/
  | reported (text : String)
  deriving DecidableEq, Repr

/-- The error in words. -/
def KernelError.message : KernelError → String
  | access error => error.message
  | missingArgument index passed =>
    "kernel argument " ++ toString index ++ " missing (" ++ toString passed ++ " passed)"
  | addressTable error => error.message
  | untranslated addr => "host address " ++ Text.hex addr ++ " not in address table"
  | invalidShift shift => "bad shift " ++ toString shift
  | outsideWindows addr => "host address " ++ Text.hex addr ++ " falls outside the offset list"
  | reported text => text

/-- One line that a kernel reports while it runs. -/
inductive KernelReport where
  /-- The kernel of this name started. -/
  | started (kernel : String) (context : KernelContext)
  /-- An unsigned word. -/
  | word (value : Nat)
  /-- A signed word. -/
  | signed (value : Int)
  /-- Bytes of device memory. -/
  | bytes (content : List UInt8)
  deriving DecidableEq, Repr

/-- Code that runs on a device and ends with a value. A failed access does not end the code: the
steps after it see what went wrong. -/
inductive DeviceCode (α : Type) where
  /-- The end. -/
  | done (value : α)
  /-- Reads `size` bytes at `addr`. -/
  | read (addr size : Nat) (next : Except AccessError (List UInt8) → DeviceCode α)
  /-- Writes bytes at `addr`. -/
  | write (addr : Nat) (content : List UInt8) (next : Except AccessError Unit → DeviceCode α)
  /-- Reports a line. -/
  | report (line : KernelReport) (next : DeviceCode α)

namespace DeviceCode

/-- Goes on with `f` where `code` ends. -/
def andThen {α β : Type} (code : DeviceCode α) (f : α → DeviceCode β) : DeviceCode β :=
  match code with
  | done value => f value
  | read addr size next => read addr size fun r => (next r).andThen f
  | write addr content next => write addr content fun r => (next r).andThen f
  | report line next => report line (next.andThen f)

instance : Monad DeviceCode where
  pure := done
  bind := andThen

/-- What is left when code has run. -/
structure Outcome (α : Type) where
  /-- The value at the end. -/
  value : α
  /-- The memory afterwards. -/
  memory : DeviceMemory
  /-- What was reported, first line first. -/
  reports : List KernelReport

/-- Runs code on a device memory. -/
def run {α : Type} (code : DeviceCode α) (m : DeviceMemory) : Outcome α :=
  match code with
  | done value => ⟨value, m, []⟩
  | read addr size next => (next (m.read addr size)).run m
  | write addr content next =>
    match m.write addr content with
    | .ok m' => (next (.ok ())).run m'
    | .error e => (next (.error e)).run m
  | report line next =>
    let rest := next.run m
    { rest with reports := line :: rest.reports }

end DeviceCode

/-- Device code that may fail. -/
abbrev KernelM := ExceptT KernelError DeviceCode

namespace KernelM

/-- The bytes at a device address. -/
def readBytes (addr size : Nat) : KernelM (List UInt8) :=
  ExceptT.mk (.read addr size fun r => .done (r.mapError .access))

/-- Stores bytes at a device address. -/
def writeBytes (addr : Nat) (content : List UInt8) : KernelM Unit :=
  ExceptT.mk (.write addr content fun r => .done (r.mapError .access))

/-- Reports a line. -/
def report (line : KernelReport) : KernelM Unit :=
  ExceptT.mk (.report line (.done (.ok ())))

/-- The word at a device address. -/
def readWord (addr : Nat) : KernelM Nat := do
  return Word.ofBytes (← readBytes addr Word.bytes)

/-- Stores a word at a device address. -/
def writeWord (addr value : Nat) : KernelM Unit := writeBytes addr (Word.toBytes value)

/-- The argument at a position. -/
def argument (context : KernelContext) (index : Nat) : KernelM Nat :=
  match context.arguments[index]? with
  | some value => pure value
  | none => throw (.missingArgument index context.arguments.length)

/-- The device address for a host address, by the address table stored at `table`. -/
def translate (table addr : Nat) : KernelM Nat := do
  let header ← readBytes table AddressTable.recordBytes
  let count := match Word.ofStored header with
    | count :: _ => count
    | [] => 0
  let stored ← readBytes table ((count + 1) * AddressTable.recordBytes)
  match AddressTable.decode stored with
  | .error e => throw (.addressTable e)
  | .ok decoded =>
    match decoded.translate addr with
    | some target => pure target
    | none => throw (.untranslated addr)

/-- The device address for a host address, by the offset list stored at `list`. -/
def translateOffset (list addr : Nat) : KernelM Nat := do
  let mask ← readWord list
  let shift ← readWord (list + Word.bytes)
  let windows ← readWord (list + 2 * Word.bytes)
  if Word.narrowModulus ≤ shift then throw (.invalidShift shift)
  let window := windowOf mask shift addr
  if windows ≤ window then throw (.outsideWindows addr)
  let offset ← readWord (list + OffsetList.headerWords * Word.bytes + window * Word.bytes)
  return Word.add addr offset

end KernelM

/-- A kernel that a device can run. -/
structure Kernel where
  /-- The name that images refer to it by. -/
  name : String
  /-- What it does. -/
  body : KernelContext → KernelM Unit

end Offloading
