import Offloading.Mapping.Basic
import Offloading.Text.Hex
/-!
# Offset lists

Host addresses are grouped into windows by a mask and a shift, and all sections in a window lie at
one distance from their copies. A kernel then translates an address by looking up the distance of
its window.

A stored list is a sequence of words: mask, shift, the number of windows, and the distance of each
window, which is zero where nothing is mapped.
-/

namespace Offloading

/-- Two sections in one window that lie at different distances from their copies. -/
structure OffsetConflict where
  /-- The window. -/
  window : Nat
  /-- Where the later section begins. -/
  hostBegin : Nat
  /-- The distance that the window has. -/
  existing : Int64
  /-- The distance that the later section needs. -/
  requested : Int64
  deriving DecidableEq, Repr

/-- The conflict in words. -/
def OffsetConflict.message (c : OffsetConflict) : String :=
  "host section at " ++ Text.hex c.hostBegin ++ " needs offset "
    ++ Text.hex c.requested.toUInt64.toNat ++ " in window " ++ toString c.window
    ++ ", which already uses " ++ Text.hex c.existing.toUInt64.toNat

/-- Why bytes are not a stored offset list. -/
inductive OffsetListError where
  /-- The length is no multiple of a word or leaves no room for the three leading words. -/
  | malformed (length : Nat)
  /-- The number of windows is not the announced one. -/
  | wrongCount (announced found : Nat)
  /-- The shift does not fit into 32 bits. -/
  | invalidShift (shift : Nat)
  deriving DecidableEq, Repr

/-- The error in words. -/
def OffsetListError.message : OffsetListError → String
  | malformed length => "offset list of " ++ toString length ++ " bytes is malformed"
  | wrongCount announced found =>
    "offset list header announces " ++ toString announced ++ " windows, found " ++ toString found
  | invalidShift shift => "offset list shift " ++ toString shift ++ " is invalid"

/-- The window of an address. Shifts of 64 and more leave a single window. -/
def windowOf (mask shift addr : Nat) : Nat := (addr &&& mask) >>> shift

/-- The number of windows that a mask and a shift select. -/
def windowCount (mask shift : Nat) : Nat := (mask >>> shift) + 1

/-- One distance for each window. -/
structure OffsetList where
  /-- Which bits of an address select its window. -/
  mask : UInt64
  /-- By how much those bits are shifted down. -/
  shift : UInt32
  /-- The distances; a window without a section has none. -/
  windows : Array (Option Int64)
  deriving DecidableEq, Repr, Inhabited

namespace OffsetList

/-- Words before the distances. -/
def headerWords : Nat := 3

/-- The list without sections. -/
def empty (mask : UInt64) (shift : UInt32) : OffsetList :=
  ⟨mask, shift, .replicate (windowCount mask.toNat shift.toNat) none⟩

/-- The number of windows. -/
def size (l : OffsetList) : Nat := l.windows.size

/-- The number of windows with a distance. -/
def usedWindows (l : OffsetList) : Nat := l.windows.countP Option.isSome

/-- The window of an address. -/
def window (l : OffsetList) (addr : Nat) : Nat := windowOf l.mask.toNat l.shift.toNat addr

/-- Gives a window a distance, unless it has another one. -/
def claim (l : OffsetList) (window hostBegin : Nat) (offset : Int64) :
    Except OffsetConflict OffsetList :=
  match l.windows[window]?.join with
  | some existing =>
    if existing = offset then .ok l else .error ⟨window, hostBegin, existing, offset⟩
  | none => .ok { l with windows := l.windows.setIfInBounds window (some offset) }

/-- The first address above `addr` at which a window begins. -/
def nextWindow (l : OffsetList) (addr : Nat) : Nat :=
  let shift := min l.shift.toNat 64
  ((addr >>> shift) + 1) <<< shift

/-- Claims the windows from `addr` on until `stop`, at most `count` of them. -/
def claimFrom (l : OffsetList) (hostBegin stop : Nat) (offset : Int64) :
    (count addr : Nat) → Except OffsetConflict OffsetList
  | 0, _ => .ok l
  | count + 1, addr => do
    let l ← l.claim (l.window addr) hostBegin offset
    let next := l.nextWindow addr
    if stop ≤ next then pure l else claimFrom l hostBegin stop offset count next

/-- Claims every window that a mapping reaches into. -/
def add (l : OffsetList) (m : Mapping) : Except OffsetConflict OffsetList :=
  let offset := (UInt64.ofNat m.deviceBegin - UInt64.ofNat m.hostBegin).toInt64
  l.claimFrom m.hostBegin (max m.hostEnd (m.hostBegin + 1)) offset l.size m.hostBegin

/-- The list of the given mappings. -/
def ofMappings (mask : UInt64) (shift : UInt32) (mappings : List Mapping) :
    Except OffsetConflict OffsetList :=
  mappings.foldlM add (empty mask shift)

/-- The distance of a window as it is stored. -/
def offsetAt (window : Option Int64) : Int64 := window.getD 0

/-- The device address for a host address; addresses in windows without a section come back as they
are. There is none if the list lacks the window of the address. -/
def translate (l : OffsetList) (addr : Nat) : Option Nat :=
  l.windows[l.window addr]?.map fun w => (UInt64.ofNat addr + (offsetAt w).toUInt64).toNat

/-- Bytes in the stored list. -/
def byteLength (l : OffsetList) : Nat := (headerWords + l.size) * Word.bytes

/-- The words of the stored list. -/
def words (l : OffsetList) : List Nat :=
  l.mask.toNat :: l.shift.toNat :: l.size
    :: l.windows.toList.map fun w => (offsetAt w).toUInt64.toNat

/-- The stored list. -/
def encode (l : OffsetList) : List UInt8 := l.words.flatMap Word.toBytes

/-- The window whose stored distance is the given word. -/
def windowOfWord (w : Nat) : Option Int64 :=
  let offset := (UInt64.ofNat w).toInt64
  if offset = 0 then none else some offset

/-- The list that is stored in the given bytes. Windows with distance zero count as unused. -/
def decode (bytes : List UInt8) : Except OffsetListError OffsetList :=
  if bytes.length < headerWords * Word.bytes ∨ bytes.length % Word.bytes ≠ 0 then
    .error (.malformed bytes.length)
  else
    match Word.ofStored bytes with
    | mask :: shift :: announced :: offsets =>
      if offsets.length ≠ announced then .error (.wrongCount announced offsets.length)
      else if Word.narrowModulus ≤ shift then .error (.invalidShift shift)
      else .ok ⟨.ofNat mask, .ofNat shift, (offsets.map windowOfWord).toArray⟩
    | _ => .error (.malformed bytes.length)

end OffsetList

end Offloading
