import Offloading.AddressMap
/-!
# Shadow pointers

When a host object that holds a pointer is copied to a device, the copy of that pointer is patched
to the device copy of what it points at. The table of this module remembers the host value of every
patched pointer, so that it can be put back after the object is copied from the device.
-/

namespace Offloading

/-- A pointer whose device copy was patched. -/
structure ShadowPointer where
  /-- Host address of the pointer. -/
  hostSlot : Nat
  /-- Host value of the pointer. -/
  hostValue : Nat
  /-- Device address of the pointer's copy. -/
  deviceSlot : Nat
  /-- What was written there. -/
  deviceValue : Nat
  deriving DecidableEq, Repr, Inhabited

/-- A shadow lies at its host slot. -/
instance : Addressed ShadowPointer := ⟨ShadowPointer.hostSlot⟩

/-- The patched pointers of a device, by host slot. -/
abbrev ShadowTable := AddressMap ShadowPointer

namespace ShadowTable

/-- Records a patched pointer and gives back the one it replaces. -/
def record (t : ShadowTable) (s : ShadowPointer) : Option ShadowPointer × ShadowTable :=
  (t.get? s.hostSlot, t.insert s)

/-- Forgets the pointer at a host slot and gives it back. -/
def forget (t : ShadowTable) (hostSlot : Nat) : Option ShadowPointer × ShadowTable :=
  (t.get? hostSlot, t.erase hostSlot)

/-- The pointers with slots in `[lower, upper)`, highest first, and the table without them if they
are to be erased. -/
def visit (t : ShadowTable) (lower upper : Nat) (erase : Bool) :
    List ShadowPointer × ShadowTable :=
  (t.range lower upper, if erase then t.eraseRange lower upper else t)

end ShadowTable

end Offloading
