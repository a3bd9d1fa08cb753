import Offloading.Region.Basic
/-!
# The platform

All devices and the accelerators that serve them, the registered libraries, host memory, and what was
done so far.
-/

namespace Offloading

/-- A device and the position of the accelerator that serves it. -/
structure DeviceSlot where
  /-- The position of the accelerator. -/
  accelerator : Nat
  /-- The device. -/
  device : Device
  deriving Inhabited

/-- A registered library. -/
structure Library where
  /-- Its number. -/
  id : Nat
  /-- Its symbols. -/
  table : SymbolTable
  /-- Host addresses of its constructors. -/
  constructors : List Nat
  deriving Repr, Inhabited

/-- Which symbol of which library a host function is. -/
structure EntrySlot where
  /-- The library's number. -/
  library : Nat
  /-- The position of the symbol. -/
  index : Nat
  deriving DecidableEq, Repr, Inhabited

/-- The platform. The first `listed` devices are those that calls can name and that libraries are
loaded on; the others stand alone. -/
structure Platform where
  /-- The settings. -/
  settings : Settings := {}
  /-- The accelerators. -/
  accelerators : List Accelerator
  /-- The devices. -/
  devices : List DeviceSlot
  /-- How many of the devices are listed. -/
  listed : Nat
  /-- The registered libraries, oldest first. -/
  libraries : List Library := []
  /-- Host functions that were looked up before. -/
  entryCache : List (Nat × EntrySlot) := []
  /-- The number of the next library. -/
  nextLibrary : Nat := 0
  /-- Host memory. -/
  host : HostMemory := {}
  /-- What was done. -/
  metrics : Metrics := {}
  /-- The constructors that were started, oldest first. -/
  constructorLog : List Nat := []
  deriving Inhabited

/-- A step of the platform. What it did before it failed stays done. -/
abbrev PlatformM := ExceptT OffloadError (StateM Platform)

namespace Platform

/-- One device for each device of each accelerator, numbered from `id` on. -/
def slots (id position : Nat) : List Accelerator → List DeviceSlot
  | [] => []
  | a :: rest =>
    (List.range a.numDevices).map (fun (unit : Nat) => ⟨position, { id := id + unit, unit := unit }⟩)
      ++ slots (id + a.numDevices) (position + 1) rest

/-- The platform over the given accelerators, if the configuration is valid. -/
def ofAccelerators (config : Config) (accelerators : List Accelerator) :
    Except ConfigError Platform := do
  config.validate
  let strategy ← config.strategy
  let devices := slots 0 0 accelerators
  return { settings := ⟨config, strategy⟩, accelerators, devices, listed := devices.length }

/-- Adds a device that stands alone. -/
def addStandalone (pl : Platform) (id accelerator : Nat) (unit : Int) : Platform :=
  { pl with devices := pl.devices ++ [⟨accelerator, { id, unit }⟩] }

/-- A device and its accelerator. -/
def link? (pl : Platform) (dev : Nat) : Option Link := do
  let slot ← pl.devices[dev]?
  let accelerator ← pl.accelerators[slot.accelerator]?
  return ⟨slot.device, accelerator⟩

/-- Puts a device and its accelerator back. -/
def setLink (pl : Platform) (dev : Nat) (link : Link) : Platform :=
  match pl.devices[dev]? with
  | none => pl
  | some slot =>
    { pl with
      devices := pl.devices.set dev { slot with device := link.device }
      accelerators := pl.accelerators.set slot.accelerator link.accelerator }

/-- A device and its accelerator. -/
def link (dev : Nat) : PlatformM Link := do
  let pl ← get
  match pl.link? dev with
  | some link => pure link
  | none => throw (.deviceNotReady dev (.onlyDevices pl.listed))

/-- Works on a device. -/
def onDevice {α : Type} (dev : Nat) (x : DeviceM α) : PlatformM α := do
  let (result, after) := x.run.run (← link dev)
  modify fun pl => pl.setLink dev after
  match result with
  | .ok value => pure value
  | .error e => throw (.ofDevice e)

/-- Calls the accelerator of a device. -/
def onAccelerator {α : Type} (dev : Nat) (wrap : AcceleratorError → OffloadError)
    (x : AcceleratorM α) : PlatformM α := do
  let before ← link dev
  let (result, accelerator) := x.run.run before.accelerator
  modify fun pl => pl.setLink dev { before with accelerator }
  match result with
  | .ok value => pure value
  | .error e => throw (wrap e)

/-- The position of the device that a caller names; minus one names the default device. -/
def deviceIndex (id : Int) : PlatformM Nat := do
  let pl ← get
  let fallback := pl.settings.config.defaultDevice
  let index ←
    if id = -1 then pure fallback
    else
      match id with
      | .ofNat index => pure index
      | .negSucc _ => throw (.deviceNotReady fallback (.invalidId id))
  if index < pl.listed then return index
  throw (.deviceNotReady index (.onlyDevices pl.listed))

/-- Counts one run of a phase, if phases are timed. -/
def record (p : Phase) : PlatformM Unit :=
  modify fun pl =>
    if pl.settings.config.profiling then { pl with metrics := pl.metrics.record p 0 } else pl

/-- The platform in one line, for people. -/
def debugText (pl : Platform) : String :=
  "OffloadRuntime \x7b strategy: \"" ++ pl.settings.strategy.name ++ "\", address_table: "
    ++ toString pl.settings.config.addressTable ++ ", registry: DeviceRegistry \x7b devices: "
    ++ toString pl.listed ++ ", libraries: " ++ toString pl.libraries.length
    ++ ", cached_entries: " ++ toString pl.entryCache.length ++ " \x7d \x7d"

end Platform

end Offloading
