import Offloading.Word
import Offloading.Argument.MapType
/-!
# Arguments

One argument of a region, a host section with its map type, and the part it plays.
-/

namespace Offloading

/-- One argument of a region. -/
structure Argument where
  /-- Base of the object the section belongs to, or the value of a literal. -/
  base : Nat
  /-- First host byte of the section. -/
  start : Nat
  /-- Bytes in the section. -/
  size : Nat
  /-- How the section is mapped. -/
  mapType : MapType
  deriving DecidableEq, Repr, Inhabited

/-- The part an argument plays in a region. -/
inductive ArgumentKind where
  /-- Passed by value and never mapped. -/
  | literal
  /-- A fresh device copy at each launch, filled from the host if `copied`. -/
  | privateCopy (copied : Bool)
  /-- A pointer captured by the lambda object at position `parent?`. -/
  | lambdaCapture (parent? : Option Nat)
  /-- A pointer slot and the object it points at. -/
  | pointerAndObject
  /-- A plain section. -/
  | plain
  deriving DecidableEq, Repr

/-- Whether arguments of this kind have entries in the mapping table. -/
def ArgumentKind.isMapped : ArgumentKind → Bool
  | .pointerAndObject | .plain => true
  | _ => false

namespace Argument

/-- One past the last byte of the section. -/
def stop (a : Argument) : Nat := Word.add a.start a.size

/-- Signed distance from the start of the section to the base. -/
def baseOffset (a : Argument) : Int := Word.toInt (Word.sub a.base a.start)

/-- The part the argument plays. A lambda capture carries flags of other kinds and comes first. -/
def kind (a : Argument) : ArgumentKind :=
  if a.mapType.isLambdaCapture then .lambdaCapture a.mapType.memberOf?
  else if a.mapType.has .literal then .literal
  else if a.mapType.has .privateCopy then .privateCopy (a.mapType.has .toDevice)
  else if a.mapType.has .pointerAndObject then .pointerAndObject
  else .plain

/-- Whether the argument has entries in the mapping table. -/
def isMapped (a : Argument) : Bool := a.kind.isMapped

end Argument

end Offloading
