import Offloading.Word
/-!
# Reference counts

How many regions hold a mapping. A count saturates at both ends: it never falls below zero, and a
count above half of `ReferenceCount.infinite` counts as infinite and never changes again.
-/

namespace Offloading

/-- How many regions hold a mapping. -/
structure ReferenceCount where
  /-- The count itself. -/
  value : Nat
  deriving DecidableEq, Repr, Inhabited

namespace ReferenceCount

/-- A single reference, the count of a fresh mapping. -/
def one : ReferenceCount := ⟨1⟩

/-- The count of a mapping that no region ever releases. -/
def infinite : ReferenceCount := ⟨Word.signBit / 2 - 1⟩

/-- The greatest value a count can hold. -/
def greatest : Nat := Word.signBit - 1

/-- The count closest to an integer: negative numbers give zero. -/
def ofInt (i : Int) : ReferenceCount := ⟨min i.toNat greatest⟩

/-- Whether the count no longer changes. -/
def isInfinite (c : ReferenceCount) : Bool := infinite.value / 2 < c.value

/-- Whether releasing one more reference drops the mapping. -/
def isLast (c : ReferenceCount) : Bool := !c.isInfinite && c.value ≤ 1

/-- Takes one more reference. -/
def increment (c : ReferenceCount) : ReferenceCount :=
  if c.isInfinite then c else ⟨min (c.value + 1) greatest⟩

/-- Gives one reference back. -/
def decrement (c : ReferenceCount) : ReferenceCount :=
  if c.isInfinite then c else ⟨c.value - 1⟩

/-- The count in messages: `inf` once it is infinite. -/
def text (c : ReferenceCount) : String := if c.isInfinite then "inf" else toString c.value

end ReferenceCount

end Offloading
