import Offloading.Json.Text
import Offloading.Json.Value
import Offloading.Library.Basic
import Offloading.Word
/-!
# Symbols as text

A symbol is written as a JSON object of its name, its address and its size. It is read from such an
object, whose members may stand in any order and among others, or from an array of the three.
-/

namespace Offloading.Symbol

open Json (skipBlanks)

/-- A symbol as a JSON value. -/
def toJson (s : Symbol) : Json.Value :=
  .object [("name", .string s.name), ("addr", .natural s.addr), ("size", .natural s.size)]

/-- A symbol on one line. -/
def toText (s : Symbol) : String := s.toJson.compact

/-- The members read so far. -/
structure Members where
  /-- The name. -/
  name : Option String := none
  /-- The address. -/
  addr : Option Nat := none
  /-- The size. -/
  size : Option Nat := none

/-- The symbol, if all its members are there. -/
def Members.symbol? (m : Members) : Option Symbol := do return ⟨← m.name, ← m.addr, ← m.size⟩

/-- A 64-bit number and what follows it. -/
def word? (cs : List Char) : Option (Nat × List Char) := Json.natural? Word.modulus (skipBlanks cs)

/-- Adds a member and gives what follows it. No member of a symbol may come twice. -/
def Members.read? (m : Members) (key : String) (cs : List Char) : Option (Members × List Char) := do
  if key = "name" then
    guard m.name.isNone
    let (name, rest) ← Json.string? (skipBlanks cs)
    return ({ m with name }, rest)
  else if key = "addr" then
    guard m.addr.isNone
    let (addr, rest) ← word? cs
    return ({ m with addr }, rest)
  else if key = "size" then
    guard m.size.isNone
    let (size, rest) ← word? cs
    return ({ m with size }, rest)
  else return (m, ← Json.skipValue? (cs.length + 1) cs)

/-- The members up to the closing brace, at most `fuel` of them, and what follows it. -/
def members? : (fuel : Nat) → Members → List Char → Option (Members × List Char)
  | 0, _, _ => none
  | fuel + 1, m, cs =>
    match (Json.string? (skipBlanks cs)).map fun (key, rest) => (key, skipBlanks rest) with
    | some (key, ':' :: rest) =>
      match (m.read? key rest).map fun (m, rest) => (m, skipBlanks rest) with
      | some (m, ',' :: rest) => members? fuel m rest
      | some (m, '\x7d' :: rest) => some (m, rest)
      | _ => none
    | _ => none

/-- What follows a comma. -/
def afterComma? (cs : List Char) : Option (List Char) :=
  match skipBlanks cs with
  | ',' :: rest => some rest
  | _ => none

/-- The name, the address and the size up to the closing bracket, and what follows it. -/
def items? (cs : List Char) : Option (Symbol × List Char) := do
  let (name, rest) ← Json.string? (skipBlanks cs)
  let (addr, rest) ← word? (← afterComma? rest)
  let (size, rest) ← word? (← afterComma? rest)
  match skipBlanks rest with
  | ']' :: rest => return (⟨name, addr, size⟩, rest)
  | _ => none

/-- The symbol that a text holds. -/
def ofText? (s : String) : Option Symbol := do
  let cs := s.toList
  let (symbol, rest) ← match skipBlanks cs with
    | '[' :: rest => items? rest
    | '\x7b' :: rest =>
      (members? (cs.length + 1) {} rest).bind fun (m, rest) =>
        m.symbol?.map fun symbol => (symbol, rest)
    | _ => none
  guard (skipBlanks rest).isEmpty
  return symbol

end Offloading.Symbol
