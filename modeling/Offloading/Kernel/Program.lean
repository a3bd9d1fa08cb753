import Offloading.Kernel.Code
/-!
# Kernel programs

A small instruction set for kernels: sixteen word registers, loads and stores, look-ups of host
addresses, and forward jumps.
-/

namespace Offloading

/-- One instruction. Registers are named by number, and those beyond the last one read as zero. -/
inductive Instruction where
  /-- Puts a launch argument into a register. -/
  | argument (register index : Nat)
  /-- Puts a constant into a register. -/
  | constant (register value : Nat)
  /-- Puts the sum of a register and a constant into a register. -/
  | add (register source value : Nat)
  /-- Loads a word from the address in a register, displaced by a constant. -/
  | load (register pointer offset : Nat)
  /-- Stores a register at the address in another one, displaced by a constant. -/
  | store (pointer offset register : Nat)
  /-- Reports the signed word at an address. -/
  | reportSigned (pointer offset : Nat)
  /-- Stores a signed constant at an address. -/
  | storeSigned (pointer offset : Nat) (value : Int)
  /-- Translates the host address in a register by the address table that another one points at. -/
  | translate (register table source : Nat)
  /-- Translates the host address in a register by the offset list that another one points at. -/
  | translateOffset (register list source : Nat)
  /-- Adds a constant to each of the bytes at an address. -/
  | increment (pointer offset size amount : Nat)
  /-- Stores bytes at an address. -/
  | write (pointer offset : Nat) (content : List UInt8)
  /-- Reports the bytes at an address. -/
  | reportBytes (pointer offset size : Nat)
  /-- Reports a register. -/
  | reportWord (register : Nat)
  /-- Skips the next instructions if a register is zero. -/
  | skipIfZero (register count : Nat)
  /-- Gives up. -/
  | fail (text : String)
  deriving DecidableEq, Repr

/-- The contents of the registers. -/
structure Registers where
  /-- The words, register zero first. -/
  values : List Nat := List.replicate 16 0
  deriving Repr, Inhabited

namespace Registers

/-- The word in a register. -/
def get (r : Registers) (i : Nat) : Nat := r.values.getD i 0

/-- Puts a word into a register. -/
def set (r : Registers) (i value : Nat) : Registers := ⟨r.values.set i value⟩

/-- The address in a register, displaced by a constant. -/
def addressAt (r : Registers) (i offset : Nat) : Nat := Word.add (r.get i) offset

end Registers

namespace Instruction

/-- One step: the registers afterwards and how many instructions are skipped. -/
def step (context : KernelContext) (r : Registers) : Instruction → KernelM (Registers × Nat)
  | argument register index => do return (r.set register (← KernelM.argument context index), 0)
  | constant register value => pure (r.set register value, 0)
  | add register source value => pure (r.set register (Word.add (r.get source) value), 0)
  | load register pointer offset => do
    return (r.set register (← KernelM.readWord (r.addressAt pointer offset)), 0)
  | store pointer offset register => do
    KernelM.writeWord (r.addressAt pointer offset) (r.get register)
    return (r, 0)
  | reportSigned pointer offset => do
    KernelM.report (.signed (Word.toInt (← KernelM.readWord (r.addressAt pointer offset))))
    return (r, 0)
  | storeSigned pointer offset value => do
    KernelM.writeWord (r.addressAt pointer offset) (Word.ofInt value)
    return (r, 0)
  | translate register table source => do
    return (r.set register (← KernelM.translate (r.get table) (r.get source)), 0)
  | translateOffset register list source => do
    return (r.set register (← KernelM.translateOffset (r.get list) (r.get source)), 0)
  | increment pointer offset size amount => do
    let addr := r.addressAt pointer offset
    let content ← KernelM.readBytes addr size
    KernelM.writeBytes addr (content.map fun b => b + UInt8.ofNat amount)
    return (r, 0)
  | write pointer offset content => do
    KernelM.writeBytes (r.addressAt pointer offset) content
    return (r, 0)
  | reportBytes pointer offset size => do
    KernelM.report (.bytes (← KernelM.readBytes (r.addressAt pointer offset) size))
    return (r, 0)
  | reportWord register => do
    KernelM.report (.word (r.get register))
    return (r, 0)
  | skipIfZero register count => pure (r, if r.get register = 0 then count else 0)
  | fail text => throw (.reported text)

/-- Runs a program, leaving out its first `skip` instructions. -/
def runAll (context : KernelContext) : List Instruction → (skip : Nat) → Registers → KernelM Unit
  | [], _, _ => pure ()
  | _ :: rest, skip + 1, r => runAll context rest skip r
  | i :: rest, 0, r => do
    let (r, skip) ← i.step context r
    runAll context rest skip r

end Instruction

/-- The kernel that reports its start and then runs a program. -/
def Kernel.ofProgram (name : String) (program : List Instruction) : Kernel where
  name := name
  body context := do
    KernelM.report (.started name context)
    Instruction.runAll context program 0 {}

end Offloading
