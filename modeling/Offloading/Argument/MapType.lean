/-!
# Map types

The 64-bit word that says how an argument is mapped around a region: single-bit flags in the low
part, and in the top 16 bits the position of the struct the argument is a member of, plus one.
-/

namespace Offloading

/-- One flag of a map type. -/
inductive MapFlag where
  /-- Copy host bytes to the device on entry. -/
  | toDevice
  /-- Copy device bytes back to the host on exit. -/
  | fromDevice
  /-- Copy whatever the reference count is. -/
  | always
  /-- Drop the mapping on exit whatever the reference count is. -/
  | delete
  /-- The argument is a pointer slot together with the object it points at. -/
  | pointerAndObject
  /-- The argument is passed to the kernel. -/
  | targetParam
  /-- The device base is written back into the argument. -/
  | returnParam
  /-- The argument gets a fresh device copy at each launch. -/
  | privateCopy
  /-- The argument is passed by value. -/
  | literal
  /-- The mapping was inferred. -/
  | implicit
  /-- The regions of the argument come from a descriptor. -/
  | nested
  /-- Some argument of the list has a descriptor. -/
  | hasNested
  deriving DecidableEq, Repr

namespace MapFlag

/-- The bit that holds the flag. -/
def bit : MapFlag → Nat
  | toDevice => 0
  | fromDevice => 1
  | always => 2
  | delete => 3
  | pointerAndObject => 4
  | targetParam => 5
  | returnParam => 6
  | privateCopy => 7
  | literal => 8
  | implicit => 9
  | nested => 12
  | hasNested => 13

/-- The flag's name in reports. -/
def name : MapFlag → String
  | toDevice => "TO"
  | fromDevice => "FROM"
  | always => "ALWAYS"
  | delete => "DELETE"
  | pointerAndObject => "PTR_AND_OBJ"
  | targetParam => "TARGET_PARAM"
  | returnParam => "RETURN_PARAM"
  | privateCopy => "PRIVATE"
  | literal => "LITERAL"
  | implicit => "IMPLICIT"
  | nested => "NESTED"
  | hasNested => "HAS_NESTED"

/-- All flags, lowest bit first. -/
def all : List MapFlag :=
  [toDevice, fromDevice, always, delete, pointerAndObject, targetParam, returnParam, privateCopy,
    literal, implicit, nested, hasNested]

end MapFlag

/-- How an argument is mapped around a region. Bits without a meaning are kept. -/
structure MapType where
  /-- The word. -/
  bits : BitVec 64
  deriving DecidableEq, Repr, Inhabited

namespace MapType

/-- Whether a flag is set. -/
def has (t : MapType) (f : MapFlag) : Bool := t.bits.getLsbD f.bit

/-- The word with exactly the given flags. -/
def mask (flags : List MapFlag) : BitVec 64 :=
  flags.foldl (fun w f => w ||| BitVec.twoPow 64 f.bit) 0#64

/-- The map type with exactly the given flags. -/
def ofFlags (flags : List MapFlag) : MapType := ⟨mask flags⟩

/-- Sets flags. -/
def set (t : MapType) (flags : List MapFlag) : MapType := ⟨t.bits ||| mask flags⟩

/-- Clears flags. -/
def clear (t : MapType) (flags : List MapFlag) : MapType := ⟨t.bits &&& ~~~mask flags⟩

/-- Clears everything but the given flags. -/
def keep (t : MapType) (flags : List MapFlag) : MapType := ⟨t.bits &&& mask flags⟩

/-- The flags that are set, lowest bit first. -/
def flags (t : MapType) : List MapFlag := MapFlag.all.filter t.has

/-- The position of the struct the argument is a member of. -/
def memberOf? (t : MapType) : Option Nat :=
  match (t.bits >>> 48).toNat with
  | 0 => none
  | parent + 1 => some parent

/-- Whether the argument is a member of a struct. -/
def isMember (t : MapType) : Bool := t.memberOf?.isSome

/-- The map type as a member of the argument at `parent`. Only the low 16 bits of `parent + 1` have
room. -/
def withMemberOf (t : MapType) (parent : Nat) : MapType :=
  ⟨(t.bits &&& 0x0000ffffffffffff#64) ||| (BitVec.ofNat 64 (parent + 1) <<< 48)⟩

/-- Whether the argument is a pointer that a lambda object captured, which is written as pointer
and object, literal and implicit at once. -/
def isLambdaCapture (t : MapType) : Bool :=
  t.has .pointerAndObject && t.has .literal && t.has .implicit

end MapType

end Offloading
