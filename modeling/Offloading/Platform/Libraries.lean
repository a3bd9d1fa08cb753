import Offloading.Platform.Basic
/-!
# Registered libraries

Libraries are loaded on a device at the first call that uses the device after they were registered,
and their constructors are run then. Host functions are resolved to kernels through a cache.
-/

namespace Offloading.Platform

/-- Registers a library and gives its number. -/
def register (pl : Platform) (d : LibraryDescription) : Nat × Platform :=
  let library : Library := ⟨pl.nextLibrary, .ofDescription d pl.listed, d.constructors⟩
  let flag (slot : DeviceSlot) : DeviceSlot :=
    { slot with device := { slot.device with pending := true } }
  (pl.nextLibrary,
    { pl with
      nextLibrary := pl.nextLibrary + 1
      libraries := pl.libraries ++ [library]
      devices := (pl.devices.take pl.listed).map flag ++ pl.devices.drop pl.listed })

/-- Forgets a library and what is cached of it; whether there was one. -/
def unregister (pl : Platform) (id : Nat) : Bool × Platform :=
  if pl.libraries.any fun l => l.id == id then
    (true,
      { pl with
        libraries := pl.libraries.filter fun l => l.id != id
        entryCache := pl.entryCache.filter fun (_, slot) => slot.library != id })
  else (false, pl)

/-- Maps the global variables of a loaded library, unless they are mapped already. -/
def mapGlobals (dev : Nat) : List (Symbol × Symbol) → PlatformM Unit
  | [] => pure ()
  | (host, target) :: rest => do
    if host.isGlobal then
      let _ ← onDevice dev (Device.mapGlobal host.addr target.addr host.size)
    mapGlobals dev rest

/-- Loads the library at a position on a device, unless it is loaded or has no image for the device,
and gives the constructors to be run. -/
def loadLibrary (dev position : Nat) : PlatformM (List Nat) := do
  let d := (← link dev).device
  match (← get).libraries[position]? with
  | none => return []
  | some library =>
    if library.table.isLoaded d.id then return []
    match library.table.image? d.id with
    | none => return []
    | some image =>
      let symbols ← onAccelerator dev (fun e => .deviceNotReady d.id (.loadFailed e))
        (Accelerator.load d.unit image)
      let host := library.table.hostSymbols
      if symbols.length ≠ host.length then
        throw (.deviceNotReady d.id (.symbolCount symbols.length host.length))
      mapGlobals dev (host.zip symbols)
      let loaded := { library with table := library.table.load d.id symbols }
      modify fun pl => { pl with libraries := pl.libraries.set position loaded }
      return library.constructors

/-- Loads the libraries at the given positions and gives the constructors to be run. -/
def loadLibraries (dev : Nat) : List Nat → PlatformM (List Nat)
  | [] => pure []
  | position :: rest => do
    let first ← loadLibrary dev position
    let others ← loadLibraries dev rest
    return first ++ others

/-- Runs constructors, in order. -/
def runConstructors (run : Nat → PlatformM Unit) : List Nat → PlatformM Unit
  | [] => pure ()
  | constructor :: rest => do
    modify fun pl => { pl with constructorLog := pl.constructorLog ++ [constructor] }
    run constructor
    runConstructors run rest

/-- Prepares a device and, if libraries wait, loads them and runs their constructors. -/
def checkReady (dev : Nat) (run : Nat → PlatformM Unit) : PlatformM Unit := do
  onDevice dev Device.prepare
  if (← link dev).device.pending then
    let constructors ← loadLibraries dev (List.range (← get).libraries.length)
    runConstructors run constructors
    onDevice dev (DeviceM.modifyDevice fun d => { d with pending := false })

/-- The symbol that a host function is: that of the first library with one at its address. -/
def findEntry? (hostAddr : Nat) : List Library → Option EntrySlot
  | [] => none
  | l :: rest =>
    match l.table.indexOf? hostAddr with
    | some index => some ⟨l.id, index⟩
    | none => findEntry? hostAddr rest

/-- The symbol that a host function is, from the cache if it was looked up before. -/
def entrySlot (hostAddr : Nat) : PlatformM EntrySlot := do
  let pl ← get
  match pl.entryCache.lookup hostAddr with
  | some slot => return slot
  | none =>
    match findEntry? hostAddr pl.libraries with
    | none => throw (.entryTableExhausted hostAddr)
    | some slot =>
      set { pl with entryCache := (hostAddr, slot) :: pl.entryCache }
      return slot

/-- The address of the kernel for a host function on the device of number `device`. -/
def resolveEntry (device hostAddr : Nat) : PlatformM Nat := do
  let slot ← entrySlot hostAddr
  let library? := (← get).libraries.find? fun l => l.id == slot.library
  match library?.bind fun l => l.table.targetSymbol? device slot.index with
  | some symbol => return symbol.addr
  | none => throw (.entryTableExhausted hostAddr)

end Offloading.Platform
