import Std.Data.TreeMap.Basic
import Offloading.Word
/-!
# Host memory

A total map from addresses to bytes; a byte that was never written is zero.
-/

namespace Offloading

/-- The bytes of the host. -/
structure HostMemory where
  /-- The bytes that were written, by address. -/
  written : Std.TreeMap Nat UInt8 := ∅
  deriving Inhabited

namespace HostMemory

/-- The byte at an address. -/
def byte (m : HostMemory) (addr : Nat) : UInt8 := m.written.getD addr 0

/-- The bytes of the section of `size` bytes at `addr`. -/
def read (m : HostMemory) (addr size : Nat) : List UInt8 :=
  (List.range' addr size).map m.byte

/-- Stores bytes one after the other from `addr` on. -/
def write (m : HostMemory) (addr : Nat) : List UInt8 → HostMemory
  | [] => m
  | b :: bs => write { written := m.written.insert addr b } (addr + 1) bs

/-- The pointer stored at `slot`. -/
def readPointer (m : HostMemory) (slot : Nat) : Nat := Word.ofBytes (m.read slot Word.bytes)

/-- Stores a pointer at `slot`. -/
def writePointer (m : HostMemory) (slot value : Nat) : HostMemory :=
  m.write slot (Word.toBytes value)

end HostMemory

end Offloading
