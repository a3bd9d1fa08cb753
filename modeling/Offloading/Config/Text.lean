import Offloading.Config
import Offloading.Toml.Document
/-!
# Configuration files

Configurations as TOML text. Keys without a meaning are passed over, and missing ones leave the
default.
-/

namespace Offloading.Config

open Toml (Node Entries)

/-- A whole number from zero to before `limit`. -/
def natural? (limit : Nat) : Node → Option Nat
  | .integer i => if 0 ≤ i ∧ i < limit then some i.toNat else none
  | _ => none

/-- A 64-bit number. -/
def word? : Node → Option Nat := natural? Word.modulus

/-- A truth value. -/
def boolean? : Node → Option Bool
  | .boolean b => some b
  | _ => none

/-- Text. -/
def text? : Node → Option String
  | .string s => some s
  | _ => none

/-- A mask and a shift, by name or in this order. -/
def windows? : Node → Option OffsetWindows
  | .table _ entries => do
    return ⟨← word? (← entries.lookup "mask"), ← natural? Word.narrowModulus (← entries.lookup "shift")⟩
  | .array (mask :: shift :: _) => do
    return ⟨← word? mask, ← natural? Word.narrowModulus shift⟩
  | _ => none

/-- What a key stands for, or the default if the key is missing. -/
def setting? {α : Type} (entries : Entries) (key : String) (read : Node → Option α) (fallback : α) :
    Option α :=
  match entries.lookup key with
  | some node => read node
  | none => some fallback

/-- The configuration in a TOML table. -/
def ofEntries? (entries : Entries) : Option Config := do
  let fallback : Config := {}
  return {
    transferMode := ← setting? entries "transfer_mode" text? fallback.transferMode
    addressTable := ← setting? entries "address_table" boolean? fallback.addressTable
    addressMask := ← setting? entries "address_mask" (fun n => (word? n).map some)
      fallback.addressMask
    structAlignment := ← setting? entries "struct_alignment" word? fallback.structAlignment
    defaultDevice := ← setting? entries "default_device" word? fallback.defaultDevice
    profiling := ← setting? entries "enable_profiling" boolean? fallback.profiling
    addressOffset := ← setting? entries "address_offset" (fun n => (windows? n).map some)
      fallback.addressOffset }

/-- The valid configuration in a text. -/
def ofText (s : String) : Except ConfigError Config := do
  match (Toml.parse? s).bind ofEntries? with
  | none => throw .parse
  | some c =>
    c.validate
    return c

/-- A number as it is written; numbers that 63 bits cannot hold have no written form. -/
def numberText (n : Nat) : Except ConfigError String :=
  if n < Word.signBit then .ok (toString n) else .error .serialise

/-- The line of the address mask, if there is one. -/
def maskText : Option Nat → Except ConfigError String
  | none => .ok ""
  | some mask => do return "address_mask = " ++ (← numberText mask) ++ "\n"

/-- The table of the windows, if there are any. -/
def windowsText : Option OffsetWindows → Except ConfigError String
  | none => .ok ""
  | some w => do
    return "\n[address_offset]\nmask = " ++ (← numberText w.mask) ++ "\nshift = "
      ++ (← numberText w.shift) ++ "\n"

/-- The configuration as text. -/
def toText (c : Config) : Except ConfigError String := do
  return "transfer_mode = " ++ Toml.Quoted.write c.transferMode
    ++ "\naddress_table = " ++ toString c.addressTable ++ "\n" ++ (← maskText c.addressMask)
    ++ "struct_alignment = " ++ (← numberText c.structAlignment)
    ++ "\ndefault_device = " ++ (← numberText c.defaultDevice)
    ++ "\nenable_profiling = " ++ toString c.profiling ++ "\n" ++ (← windowsText c.addressOffset)

end Offloading.Config
