import Offloading.Argument.Descriptor
/-!
# Argument lists

The arguments of one region call. The descriptors of nested arguments are consumed in argument
order: the `k`-th nested argument uses the `k`-th descriptor.
-/

namespace Offloading

/-- Why an argument list is inconsistent. -/
inductive ArgumentError where
  /-- The four arrays of a list differ in length. -/
  | lengthMismatch (bases starts sizes types : Nat)
  /-- There is no argument at this position. -/
  | outOfRange (index length : Nat)
  /-- A nested argument has no descriptor. -/
  | missingDescriptor (index : Nat)
  /-- A member names a struct that does not come before it. -/
  | invalidParent (index parent : Nat)
  /-- The descriptor of an argument cannot be expanded. -/
  | descriptor (index : Nat) (detail : String)
  deriving DecidableEq, Repr

/-- The error in words. -/
def ArgumentError.message : ArgumentError → String
  | lengthMismatch bases starts sizes types =>
    "argument arrays disagree in length: " ++ toString bases ++ " bases, " ++ toString starts
      ++ " begins, " ++ toString sizes ++ " sizes, " ++ toString types ++ " types"
  | outOfRange index length =>
    "argument index " ++ toString index ++ " out of range (" ++ toString length ++ " arguments)"
  | missingDescriptor index =>
    "argument " ++ toString index ++ " is nested but no descriptor was attached for it"
  | invalidParent index parent =>
    "argument " ++ toString index ++ " is a member of " ++ toString parent
      ++ ", which is not an earlier argument"
  | descriptor index detail =>
    "nested descriptor failed for argument " ++ toString index ++ ": " ++ detail

/-- The arguments of a region call and the descriptors of the nested ones. -/
structure ArgumentList where
  /-- The arguments, in order. -/
  arguments : List Argument := []
  /-- The descriptors, in the order of the arguments that use them. -/
  descriptors : List Descriptor := []
  deriving Repr, Inhabited

namespace ArgumentList

/-- The list whose arguments are given by four parallel arrays. -/
def ofArrays (bases starts sizes types : List Nat) : Except ArgumentError ArgumentList :=
  if starts.length = bases.length ∧ sizes.length = bases.length ∧ types.length = bases.length then
    let sections := (bases.zip starts).zip (sizes.zip types)
    .ok { arguments := sections.map fun ((base, start), size, bits) =>
            ⟨base, start, size, ⟨BitVec.ofNat 64 bits⟩⟩ }
  else .error (.lengthMismatch bases.length starts.length sizes.length types.length)

/-- Attaches one more descriptor. -/
def attach (l : ArgumentList) (d : Descriptor) : ArgumentList :=
  { l with descriptors := l.descriptors ++ [d] }

/-- The number of arguments. -/
def size (l : ArgumentList) : Nat := l.arguments.length

/-- Whether there are no arguments. -/
def isEmpty (l : ArgumentList) : Bool := l.arguments.isEmpty

/-- The argument at a position. -/
def get (l : ArgumentList) (index : Nat) : Except ArgumentError Argument :=
  match l.arguments[index]? with
  | some a => .ok a
  | none => .error (.outOfRange index l.size)

/-- Overwrites the base of the argument at a position. -/
def setBase (l : ArgumentList) (index base : Nat) : Except ArgumentError ArgumentList :=
  match l.arguments[index]? with
  | some a => .ok { l with arguments := l.arguments.set index { a with base } }
  | none => .error (.outOfRange index l.size)

/-- The struct that the argument at a position is a member of, which must come before it. -/
def parentOf (l : ArgumentList) (index : Nat) : Except ArgumentError (Option Argument) := do
  match (← l.get index).mapType.memberOf? with
  | none => pure none
  | some parent =>
    if parent < index then return some (← l.get parent)
    else throw (.invalidParent index parent)

/-- Whether the argument at a position is a struct whose members follow: it is no member itself and
the next argument is a member of it. -/
def headsStruct (l : ArgumentList) (index : Nat) : Bool :=
  match l.arguments[index]? with
  | none => false
  | some a =>
    !a.mapType.isMember
      && (l.arguments[index + 1]?.bind fun next => next.mapType.memberOf?) == some index

/-- Whether the first argument announces descriptors. -/
def hasNested (l : ArgumentList) : Bool :=
  match l.arguments.head? with
  | some a => a.mapType.has .hasNested
  | none => false

/-- Which descriptor the nested argument at a position uses: as many as there are nested arguments
before it. -/
def descriptorIndex (l : ArgumentList) (index : Nat) : Nat :=
  (l.arguments.take index).countP fun a => a.mapType.has .nested

/-- The regions that the argument at a position stands for: itself, or what its descriptor lists. -/
def plans (l : ArgumentList) (index : Nat) : Except ArgumentError (List RegionPlan) := do
  let a ← l.get index
  if a.mapType.has .nested then
    match l.descriptors[l.descriptorIndex index]? with
    | none => throw (.missingDescriptor index)
    | some d =>
      match d.expand a with
      | .ok plans => pure (plans.map .unnested)
      | .error detail => throw (.descriptor index detail)
  else pure [.known a]

/-- The regions of an argument in a host memory that does not change meanwhile. -/
def regions (l : ArgumentList) (host : HostMemory) (index : Nat) :
    Except ArgumentError (List Argument) :=
  (l.plans index).map fun plans => plans.filterMap (·.resolve host)

end ArgumentList

end Offloading
