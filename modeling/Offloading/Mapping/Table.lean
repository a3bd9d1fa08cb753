import Offloading.Mapping.Basic
import Offloading.Mapping.Stats
import Offloading.Text.Hex
/-!
# Mapping tables

The live mappings of one device: disjoint, non-empty host sections in descending order. A section
is looked up by its two neighbours only, the mapping that contains its first byte and the closest
mapping above it; on disjoint mappings these two decide every question about the section.
-/

namespace Offloading

/-- Why a mapping was not inserted. -/
inductive MappingError where
  /-- The section `[first, last)` meets a mapped section that does not contain it. -/
  | overlap (first last existingFirst existingLast : Nat)
  /-- The section has no bytes. -/
  | emptySection (first : Nat)
  deriving DecidableEq, Repr

/-- The error in words. -/
def MappingError.message : MappingError → String
  | overlap first last existingFirst existingLast =>
    "section [" ++ Text.hex first ++ ", " ++ Text.hex last
      ++ ") partially overlaps mapped section [" ++ Text.hex existingFirst ++ ", "
      ++ Text.hex existingLast ++ ")"
  | emptySection first => "cannot map an empty section at " ++ Text.hex first

/-- How a section lies with respect to a table. -/
structure Coverage where
  /-- The mapping that the section meets. -/
  mapping? : Option Mapping := none
  /-- The mapping holds the whole section. -/
  contained : Bool := false
  /-- The section begins before the mapping. -/
  extendsBefore : Bool := false
  /-- The section ends after the mapping. -/
  extendsAfter : Bool := false
  deriving DecidableEq, Repr, Inhabited

/-- Whether some mapping meets the section. -/
def Coverage.isFound (c : Coverage) : Bool := c.mapping?.isSome

/-- Whether the section sticks out of the mapping it meets. -/
def Coverage.isPartial (c : Coverage) : Bool := c.extendsBefore || c.extendsAfter

/-- The live mappings of a device and what happened to them. -/
structure MappingTable where
  /-- The mappings, by host address. -/
  entries : AddressMap Mapping := ∅
  /-- Host bytes mapped now. -/
  liveBytes : Nat := 0
  /-- What the table has done so far. -/
  stats : MappingStats := {}

namespace MappingTable

instance : Inhabited MappingTable := ⟨{}⟩

/-- The mapping whose section contains a host address. -/
def containing? (t : MappingTable) (addr : Nat) : Option Mapping :=
  (t.entries.atOrBelow? addr).filter (·.contains addr)

/-- How the section of `size` bytes at `first` lies with respect to the table. -/
def lookup (t : MappingTable) (first size : Nat) : Coverage :=
  let last := Word.saturatingAdd first size
  match t.containing? first with
  | some m =>
    { mapping? := some m, contained := last ≤ m.hostEnd, extendsAfter := m.hostEnd < last }
  | none =>
    match t.entries.above? first with
    | some m =>
      if m.hostBegin < last then
        { mapping? := some m, extendsBefore := true, extendsAfter := m.hostEnd < last }
      else {}
    | none => {}

/-- The mapping that begins at a host address. -/
def get? (t : MappingTable) (hostBegin : Nat) : Option Mapping := t.entries.get? hostBegin

/-- The count of the mapping that contains a host address. -/
def refCountAt? (t : MappingTable) (addr : Nat) : Option ReferenceCount :=
  (t.containing? addr).map (·.refCount)

/-- Counts a partial overlap that was refused. -/
def recordOverlap (t : MappingTable) : MappingTable := { t with stats := t.stats.recordOverlap }

/-- Counts a request that an existing mapping served. -/
def recordReuse (t : MappingTable) : MappingTable := { t with stats := t.stats.recordReuse }

/-- Adds a mapping whose section is not empty and meets no other. -/
def insert (t : MappingTable) (m : Mapping) : Except MappingError Unit × MappingTable :=
  if m.isEmpty then (.error (.emptySection m.hostBegin), t)
  else
    match (t.lookup m.hostBegin m.length).mapping? with
    | some existing =>
      (.error (.overlap m.hostBegin m.hostEnd existing.hostBegin existing.hostEnd),
        t.recordOverlap)
    | none =>
      let live := t.liveBytes + m.length
      (.ok (),
        { entries := t.entries.insert m
          liveBytes := live
          stats := t.stats.recordNew m.length live })

/-- Removes the mapping that begins at a host address. -/
def remove (t : MappingTable) (hostBegin : Nat) : Option Mapping × MappingTable :=
  match t.get? hostBegin with
  | none => (none, t)
  | some m =>
    (some m,
      { entries := t.entries.erase hostBegin
        liveBytes := t.liveBytes - m.length
        stats := t.stats.recordRelease })

/-- Gives the mapping that begins where `m` does the count `count`. -/
def setCount (t : MappingTable) (m : Mapping) (count : ReferenceCount) : MappingTable :=
  { t with entries := t.entries.insert { m with refCount := count } }

/-- The mappings, highest host address first. -/
def toList (t : MappingTable) : List Mapping := t.entries.toList

/-- The number of mappings. -/
def size (t : MappingTable) : Nat := t.entries.size

/-- Whether nothing is mapped. -/
def isEmpty (t : MappingTable) : Bool := t.entries.isEmpty

end MappingTable

end Offloading
