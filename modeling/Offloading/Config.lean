import Offloading.Text.Hex
import Offloading.Text.Lowercase
import Offloading.OffsetList
/-!
# Configuration

How a platform moves bytes, whether kernels translate host addresses themselves, and which values of
these settings make sense together.
-/

namespace Offloading

/-- How bytes and pointer patches reach the device when a region begins. -/
inductive Strategy where
  /-- Each at once. -/
  | immediate
  /-- All at the end, in two batches. -/
  | bulk
  deriving DecidableEq, Repr, Inhabited

/-- The strategy's name. -/
def Strategy.name : Strategy → String
  | immediate => "immediate"
  | bulk => "bulk"

/-- Why there is no usable configuration. -/
inductive ConfigError where
  /-- Structs cannot be aligned to this many bytes. -/
  | alignment (bytes : Nat)
  /-- The mask is zero or the shift too large. -/
  | windows (mask shift : Nat)
  /-- There are too many windows. -/
  | tooManyWindows (count : Nat)
  /-- There is no such transfer mode. -/
  | unknownMode (mode : String)
  /-- The file cannot be read. -/
  | unreadable (path reason : String)
  /-- The text is no configuration. -/
  | parse
  /-- A value cannot be written. -/
  | serialise
  /-- A reason given by the caller. -/
  | reported (text : String)
  deriving DecidableEq, Repr

/-- The most windows of an offset list. -/
def maxWindows : Nat := 4096

/-- The error in words. -/
def ConfigError.message : ConfigError → String
  | alignment bytes => "struct_alignment must be a power of two, got " ++ toString bytes
  | windows mask shift =>
    "address_offset needs a non-zero mask and a shift below 64, got " ++ Text.hex mask ++ " >> "
      ++ toString shift
  | tooManyWindows count =>
    "address_offset selects " ++ toString count ++ " windows, at most " ++ toString maxWindows
      ++ " allowed"
  | unknownMode mode =>
    "unknown transfer mode '" ++ mode ++ "'; expected 'immediate' or 'bulk'"
  | unreadable path reason => "cannot read config '" ++ path ++ "': " ++ reason
  | parse => "TOML parse error"
  | serialise => "TOML serialise error"
  | reported text => text

/-- Which bits of an address select its window in an offset list. -/
structure OffsetWindows where
  /-- The bits. -/
  mask : Nat
  /-- By how much they are shifted down. -/
  shift : Nat
  deriving DecidableEq, Repr, Inhabited

/-- The number of windows. -/
def OffsetWindows.count (w : OffsetWindows) : Nat := windowCount w.mask w.shift

/-- The settings of a platform. -/
structure Config where
  /-- The name of the strategy, in any case. -/
  transferMode : String := "immediate"
  /-- Hand an address table to kernels instead of patching pointers. -/
  addressTable : Bool := false
  /-- A number passed to kernels behind the address table. -/
  addressMask : Option Nat := none
  /-- Structs whose members follow are mapped from a multiple of this many bytes. -/
  structAlignment : Nat := 8
  /-- The device of calls that name none. -/
  defaultDevice : Nat := 0
  /-- Whether phases are timed. -/
  profiling : Bool := true
  /-- Hand an offset list to kernels instead of patching pointers. -/
  addressOffset : Option OffsetWindows := none
  deriving DecidableEq, Repr, Inhabited

namespace Config

/-- Whether kernels translate host addresses, so that pointers are not patched. -/
def translatesOnDevice (c : Config) : Bool := c.addressTable || c.addressOffset.isSome

/-- The strategy that the transfer mode names. -/
def strategy (c : Config) : Except ConfigError Strategy :=
  let mode := Text.lowercase c.transferMode
  if mode = Strategy.immediate.name then .ok .immediate
  else if mode = Strategy.bulk.name then .ok .bulk
  else .error (.unknownMode mode)

/-- Whether a number is a power of two. -/
def isPowerOfTwo (n : Nat) : Bool := n != 0 && n &&& (n - 1) == 0

/-- Checks the windows of the offset list. -/
def checkWindows (w : OffsetWindows) : Except ConfigError Unit :=
  if w.mask = 0 ∨ 64 ≤ w.shift then .error (.windows w.mask w.shift)
  else if maxWindows < w.count then .error (.tooManyWindows w.count)
  else .ok ()

/-- Checks the settings: the alignment first, then the windows, then the transfer mode. -/
def validate (c : Config) : Except ConfigError Unit := do
  unless isPowerOfTwo c.structAlignment do throw (.alignment c.structAlignment)
  match c.addressOffset with
  | some w => checkWindows w
  | none => pure ()
  let _ ← c.strategy

end Config

end Offloading
