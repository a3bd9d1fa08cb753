import Offloading.AddressMap
import Offloading.Text.Hex
/-!
# Device memory

The memory of one device: blocks of bytes, each allocated as a whole and separated from the next
one, so that an access is located by the closest block that starts at or below it.
-/

namespace Offloading

/-- A block of device memory. -/
structure Block where
  /-- Device address of the first byte. -/
  start : Nat
  /-- The bytes of the block. -/
  bytes : List UInt8
  deriving DecidableEq, Repr, Inhabited

/-- A block lies where its first byte does. -/
instance : Addressed Block := ⟨Block.start⟩

/-- Why device memory cannot be read or written. -/
inductive AccessError where
  /-- No block starts at or below the address. -/
  | unallocated (addr : Nat)
  /-- The access leaves the block of `length` bytes at `start`. -/
  | overrun (addr size start length : Nat)
  deriving DecidableEq, Repr

/-- The error in words. -/
def AccessError.message : AccessError → String
  | unallocated addr => "device address " ++ Text.hex addr ++ " is not allocated"
  | overrun addr size start length =>
    "access [" ++ Text.hex addr ++ ", +" ++ toString size ++ ") runs past the block at "
      ++ Text.hex start ++ " (" ++ toString length ++ " bytes)"

/-- The memory of one device. -/
structure DeviceMemory where
  /-- Where the next block goes. -/
  next : Nat
  /-- The most bytes that may be allocated at one time. -/
  capacity : Nat
  /-- Bytes allocated now. -/
  used : Nat := 0
  /-- The live blocks. -/
  blocks : AddressMap Block := ∅
  deriving Inhabited

namespace DeviceMemory

/-- Blocks start at multiples of this many bytes from the first one. -/
def alignment : Nat := 64

/-- How far the next block starts behind a block of `size` bytes: its aligned length and one unit of
alignment as a gap. -/
def stride (size : Nat) : Nat := (size + (alignment - 1)) / alignment * alignment + alignment

/-- Allocates a block of zeros, of one byte at least, unless the capacity is exceeded. -/
def allocate (m : DeviceMemory) (size : Nat) : Option Nat × DeviceMemory :=
  let size := max size 1
  if m.capacity < m.used + size then (none, m)
  else
    (some m.next,
      { m with
        next := m.next + stride size
        used := m.used + size
        blocks := m.blocks.insert ⟨m.next, List.replicate size 0⟩ })

/-- Releases the block that starts at an address. -/
def free (m : DeviceMemory) (addr : Nat) : Bool × DeviceMemory :=
  match m.blocks.get? addr with
  | none => (false, m)
  | some b => (true, { m with used := m.used - b.bytes.length, blocks := m.blocks.erase addr })

/-- The block that holds the `size` bytes at an address. -/
def locate (m : DeviceMemory) (addr size : Nat) : Except AccessError Block :=
  match m.blocks.atOrBelow? addr with
  | none => .error (.unallocated addr)
  | some b =>
    if addr - b.start + size ≤ b.bytes.length then .ok b
    else .error (.overrun addr size b.start b.bytes.length)

/-- The `size` bytes at an address. Reading nothing is possible everywhere. -/
def read (m : DeviceMemory) (addr size : Nat) : Except AccessError (List UInt8) :=
  if size = 0 then .ok []
  else (m.locate addr size).map fun b => (b.bytes.drop (addr - b.start)).take size

/-- A list with the bytes from position `offset` on replaced. -/
def overwrite (old : List UInt8) (offset : Nat) (new : List UInt8) : List UInt8 :=
  old.take offset ++ new ++ old.drop (offset + new.length)

/-- Stores bytes at an address. Writing nothing is possible everywhere. -/
def write (m : DeviceMemory) (addr : Nat) (bytes : List UInt8) : Except AccessError DeviceMemory :=
  if bytes.isEmpty then .ok m
  else (m.locate addr bytes.length).map fun b =>
    { m with
      blocks := m.blocks.insert { b with bytes := overwrite b.bytes (addr - b.start) bytes } }

/-- The number of live blocks. -/
def liveBlocks (m : DeviceMemory) : Nat := m.blocks.size

end DeviceMemory

end Offloading
