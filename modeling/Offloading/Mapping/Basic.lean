import Offloading.Word
import Offloading.AddressMap
import Offloading.ReferenceCount
/-!
# Mappings

One section of host memory together with its copy on a device.
-/

namespace Offloading

/-- A host section `[hostBegin, hostEnd)` and the device address of its copy. -/
structure Mapping where
  /-- Base of the host object the section belongs to. -/
  hostBase : Nat
  /-- First host byte of the section. -/
  hostBegin : Nat
  /-- One past the last host byte of the section. -/
  hostEnd : Nat
  /-- Device address of `hostBegin`. -/
  deviceBegin : Nat
  /-- How many regions hold the mapping. -/
  refCount : ReferenceCount := .one
  deriving DecidableEq, Repr, Inhabited

namespace Mapping

/-- A mapping lies where its host section begins. -/
instance : Addressed Mapping := ⟨Mapping.hostBegin⟩

/-- Host bytes in the section. -/
def length (m : Mapping) : Nat := m.hostEnd - m.hostBegin

/-- Whether the section has no bytes. -/
def isEmpty (m : Mapping) : Bool := m.hostEnd == m.hostBegin

/-- Whether a host address lies in the section. -/
def contains (m : Mapping) (addr : Nat) : Bool := m.hostBegin ≤ addr && addr < m.hostEnd

/-- The device address that stands for a host address, which may lie outside the section. -/
def translate (m : Mapping) (addr : Nat) : Nat :=
  Word.add m.deviceBegin (Word.sub addr m.hostBegin)

end Mapping

end Offloading
