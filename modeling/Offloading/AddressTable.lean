import Offloading.Mapping.Basic
/-!
# Address tables

A sorted list of all mapped sections, handed to a kernel so that it can translate the host
addresses it meets by binary search.

A stored table is a sequence of records of four words. The first record announces how many follow;
each of these holds the bounds of a section, the device address of its copy, and the distance from
the one to the other.
-/

namespace Offloading

/-- One mapped section as kernels read it. -/
structure Segment where
  /-- First host byte. -/
  hostBegin : UInt64
  /-- One past the last host byte. -/
  hostEnd : UInt64
  /-- Device address of the first byte. -/
  deviceBegin : UInt64
  /-- Distance from host to device addresses. -/
  bias : Int64
  deriving DecidableEq, Repr, Inhabited

namespace Segment

/-- The section of a mapping. -/
def ofMapping (m : Mapping) : Segment where
  hostBegin := .ofNat m.hostBegin
  hostEnd := .ofNat m.hostEnd
  deviceBegin := .ofNat m.deviceBegin
  bias := (UInt64.ofNat m.deviceBegin - UInt64.ofNat m.hostBegin).toInt64

/-- Whether a host address lies in the section. -/
def contains (s : Segment) (addr : UInt64) : Bool := s.hostBegin ≤ addr && addr < s.hostEnd

/-- The device address that stands for a host address. -/
def translate (s : Segment) (addr : UInt64) : UInt64 := addr + s.bias.toUInt64

/-- The four words of a record. -/
def words (s : Segment) : List Nat :=
  [s.hostBegin.toNat, s.hostEnd.toNat, s.deviceBegin.toNat, s.bias.toUInt64.toNat]

/-- The records that consecutive words make up. -/
def ofWords : List Nat → List Segment
  | a :: b :: c :: d :: rest =>
    ⟨.ofNat a, .ofNat b, .ofNat c, (UInt64.ofNat d).toInt64⟩ :: ofWords rest
  | _ => []

end Segment

/-- Why bytes are not a stored address table. -/
inductive AddressTableError where
  /-- The length is no positive multiple of the length of a record. -/
  | malformed (length : Nat)
  /-- The number of sections is not the announced one. -/
  | wrongCount (announced found : Nat)
  deriving DecidableEq, Repr

/-- The error in words. -/
def AddressTableError.message : AddressTableError → String
  | malformed length => "address table of " ++ toString length ++ " bytes is malformed"
  | wrongCount announced found =>
    "address table header announces " ++ toString announced ++ " segments, found " ++ toString found

/-- Mapped sections in ascending order of their host addresses. -/
structure AddressTable where
  /-- The sections. -/
  segments : Array Segment := #[]
  deriving DecidableEq, Repr, Inhabited

namespace AddressTable

/-- Bytes in a record. -/
def recordBytes : Nat := 4 * Word.bytes

/-- The table of the given mappings. -/
def ofMappings (mappings : List Mapping) : AddressTable :=
  ⟨((mappings.map Segment.ofMapping).mergeSort fun a b => a.hostBegin ≤ b.hostBegin).toArray⟩

/-- The number of sections. -/
def size (t : AddressTable) : Nat := t.segments.size

/-- Whether there is no section. -/
def isEmpty (t : AddressTable) : Bool := t.segments.isEmpty

/-- The section among those at the positions from `low` to before `high` that holds an address,
found by halving. -/
def search (segments : Array Segment) (addr : UInt64) (low high : Nat) : Option Segment :=
  if low < high then
    let middle := low + (high - low) / 2
    match segments[middle]? with
    | none => none
    | some s =>
      if addr < s.hostBegin then search segments addr low middle
      else if s.hostEnd ≤ addr then search segments addr (middle + 1) high
      else some s
  else none
termination_by high - low

/-- The device address for a host address that lies in a section of the table. -/
def translate (t : AddressTable) (addr : Nat) : Option Nat :=
  (search t.segments (.ofNat addr) 0 t.size).map fun s => (s.translate (.ofNat addr)).toNat

/-- Bytes in the stored table. -/
def byteLength (t : AddressTable) : Nat := (t.size + 1) * recordBytes

/-- The stored table. -/
def encode (t : AddressTable) : List UInt8 :=
  let header : Segment := ⟨.ofNat t.size, 0, 0, 0⟩
  (header :: t.segments.toList).flatMap fun s => s.words.flatMap Word.toBytes

/-- The table that is stored in the given bytes. -/
def decode (bytes : List UInt8) : Except AddressTableError AddressTable :=
  if bytes.length < recordBytes ∨ bytes.length % recordBytes ≠ 0 then
    .error (.malformed bytes.length)
  else
    let records := Segment.ofWords (Word.ofStored bytes)
    let announced := match records.head? with
      | some header => header.hostBegin.toNat
      | none => 0
    let segments := records.drop 1
    if segments.length = announced then .ok ⟨segments.toArray⟩
    else .error (.wrongCount announced segments.length)

end AddressTable

end Offloading
