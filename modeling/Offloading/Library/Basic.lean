/-!
# Libraries

A library brings a list of host symbols, functions and global variables, and for each device an
optional image with the same symbols. Loading an image on a device gives every symbol a device
address.
-/

namespace Offloading

/-- A named function or global variable. -/
structure Symbol where
  /-- The name. -/
  name : String
  /-- Where it lies. -/
  addr : Nat
  /-- Bytes of a global variable; zero for a function. -/
  size : Nat
  deriving DecidableEq, Repr, Inhabited

/-- Whether the symbol is a global variable. -/
def Symbol.isGlobal (s : Symbol) : Bool := 0 < s.size

/-- The symbols of a device image, in order. -/
abbrev Image := List Symbol

/-- The image that describes the given host symbols and has no addresses yet. -/
def Image.ofHost (symbols : List Symbol) : Image := symbols.map fun s => { s with addr := 0 }

/-- A list cut or filled up with `none` to the given length. -/
def fitTo {α : Type} (length : Nat) (items : List (Option α)) : List (Option α) :=
  items.take length ++ List.replicate (length - items.length) none

/-- What a library registers. -/
structure LibraryDescription where
  /-- The host symbols. -/
  hostSymbols : List Symbol := []
  /-- One optional image for each device. -/
  images : List (Option Image) := []
  /-- Host addresses of the constructors, to be run once on each device. -/
  constructors : List Nat := []
  deriving Repr, Inhabited

namespace LibraryDescription

/-- Attaches the image for a device. -/
def withImage (d : LibraryDescription) (device : Nat) (image : Image) : LibraryDescription :=
  { d with images := (fitTo (max d.images.length (device + 1)) d.images).set device (some image) }

/-- Adds a constructor. -/
def withConstructor (d : LibraryDescription) (hostAddr : Nat) : LibraryDescription :=
  { d with constructors := d.constructors ++ [hostAddr] }

end LibraryDescription

/-- The host symbols of a library and their counterparts on each device. -/
structure SymbolTable where
  /-- The host symbols. -/
  hostSymbols : List Symbol
  /-- The images still to be loaded. -/
  images : List (Option Image)
  /-- The loaded images. -/
  targets : List (Option Image)
  deriving Repr, Inhabited

namespace SymbolTable

/-- The table of a library that is loaded on none of `numDevices` devices. -/
def ofDescription (d : LibraryDescription) (numDevices : Nat) : SymbolTable where
  hostSymbols := d.hostSymbols
  images := fitTo numDevices d.images
  targets := List.replicate numDevices none

/-- The position of the first host symbol at an address. -/
def indexOf? (t : SymbolTable) (hostAddr : Nat) : Option Nat :=
  t.hostSymbols.findIdx? fun s => s.addr == hostAddr

/-- The image for a device. -/
def image? (t : SymbolTable) (device : Nat) : Option Image := t.images[device]?.join

/-- The symbols as loaded on a device. -/
def target? (t : SymbolTable) (device : Nat) : Option Image := t.targets[device]?.join

/-- Whether the library is loaded on a device. -/
def isLoaded (t : SymbolTable) (device : Nat) : Bool := (t.target? device).isSome

/-- The symbol at a position as loaded on a device. -/
def targetSymbol? (t : SymbolTable) (device index : Nat) : Option Symbol :=
  (t.target? device).bind fun symbols => symbols[index]?

/-- Notes that the library is loaded on a device. -/
def load (t : SymbolTable) (device : Nat) (symbols : Image) : SymbolTable :=
  { t with targets := t.targets.set device (some symbols) }

end SymbolTable

end Offloading
