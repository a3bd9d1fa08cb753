import Offloading.Toml.Quoted
/-!
# Reading TOML

A document is a sequence of lines: blank ones, comments, headers, and keys with values.
-/

namespace Offloading.Toml

/-- How deep arrays and inline tables may be nested. -/
def maxDepth : Nat := 80

/-- Leaves out blanks. -/
def skipBlanks (cs : List Char) : List Char := cs.dropWhile Quoted.isBlank

/-- Leaves out a comment. -/
def skipComment : List Char → List Char
  | '#' :: rest => rest.dropWhile Quoted.isPlain
  | cs => cs

/-- What follows the end of a line; before it, blanks and a comment may stand. -/
def lineEnd? (cs : List Char) : Option (List Char) :=
  match skipComment (skipBlanks cs) with
  | [] => some []
  | '\n' :: rest | '\r' :: '\n' :: rest => some rest
  | _ => none

/-- Leaves out blanks, comments and line ends, for at most `fuel` lines. -/
def skipLines : (fuel : Nat) → List Char → List Char
  | 0, cs => cs
  | fuel + 1, cs =>
    match skipComment (skipBlanks cs) with
    | '\n' :: rest | '\r' :: '\n' :: rest => skipLines fuel rest
    | rest => rest

/-- Whether a character may stand in a key without quotes. -/
def isKeyChar (c : Char) : Bool := c.isAlphanum || c == '-' || c == '_'

/-- One part of a key, and what follows it. -/
def keyPart? (cs : List Char) : Option (String × List Char) :=
  match cs with
  | '"' :: _ | '\'' :: _ => (Quoted.single? cs).map fun (text, rest) => (String.ofList text, rest)
  | _ =>
    match cs.takeWhile isKeyChar with
    | [] => none
    | name => some (String.ofList name, cs.drop name.length)

/-- The parts of a dotted key, at most `fuel` of them, and what follows it and the blanks after it. -/
def key? : (fuel : Nat) → List Char → Option (List String × List Char)
  | 0, _ => none
  | fuel + 1, cs =>
    match keyPart? (skipBlanks cs) with
    | none => none
    | some (part, rest) =>
      match skipBlanks rest with
      | '.' :: more => (key? fuel more).map fun (parts, rest) => (part :: parts, rest)
      | rest => some ([part], rest)

/-- A value of one run of characters, and what follows it. A blank may stand between a date and a
time. -/
def scalar? (cs : List Char) : Option (Node × List Char) :=
  let first := cs.takeWhile Scalar.isPart
  let rest := cs.drop first.length
  match rest with
  | ' ' :: more =>
    let second := more.takeWhile Scalar.isPart
    if Scalar.isDate first && Scalar.isZonedTime second then
      some (.moment, more.drop second.length)
    else (Scalar.read? first).map fun node => (node, rest)
  | _ => (Scalar.read? first).map fun node => (node, rest)

/-- Splits a dotted key into the path and the last part. -/
def splitLast (parts : List String) : List String × String :=
  (parts.dropLast, parts.getLast?.getD "")

mutual

/-- A value nested less than `depth` levels deep, and what follows it. -/
def value? : (fuel depth : Nat) → List Char → Option (Node × List Char)
  | 0, _, _ => none
  | fuel + 1, depth, cs =>
    match cs with
    | '"' :: _ | '\'' :: _ =>
      (Quoted.read? cs).map fun (text, rest) => (.string (String.ofList text), rest)
    | '[' :: rest =>
      if depth ≤ 1 then none
      else (items? fuel (depth - 1) rest).map fun (items, rest) => (.array items, rest)
    | '\x7b' :: rest =>
      if depth ≤ 1 then none
      else
        match skipBlanks rest with
        | '\x7d' :: rest => some (.table .closed [], rest)
        | rest =>
          (pairs? fuel (depth - 1) [] rest).map fun (entries, rest) =>
            (.table .closed entries, rest)
    | _ => scalar? cs

/-- The items of an array up to its closing bracket, and what follows that. -/
def items? : (fuel depth : Nat) → List Char → Option (List Node × List Char)
  | 0, _, _ => none
  | fuel + 1, depth, cs =>
    match skipLines cs.length cs with
    | ']' :: rest => some ([], rest)
    | cs =>
      match value? fuel depth cs with
      | none => none
      | some (item, rest) =>
        match skipLines rest.length rest with
        | ',' :: rest => (items? fuel depth rest).map fun (items, rest) => (item :: items, rest)
        | ']' :: rest => some ([item], rest)
        | _ => none

/-- The pairs of an inline table up to its closing brace, added to those before them, and what follows
that. -/
def pairs? : (fuel depth : Nat) → Entries → List Char → Option (Entries × List Char)
  | 0, _, _, _ => none
  | fuel + 1, depth, entries, cs =>
    match key? maxDepth cs with
    | some (parts, '=' :: rest) =>
      match value? fuel depth (skipBlanks rest) with
      | none => none
      | some (value, rest) =>
        let (path, key) := splitLast parts
        match entries.assign path key value with
        | none => none
        | some entries =>
          match skipBlanks rest with
          | ',' :: rest => pairs? fuel depth entries rest
          | '\x7d' :: rest => some (entries, rest)
          | _ => none
    | _ => none

end

/-- A document that is being read. -/
structure Document where
  /-- The outermost table. -/
  root : Entries := []
  /-- The table of the last header. -/
  current : List String := []

namespace Document

/-- Reads a header, the part after its opening bracket, and what follows its line. -/
def header? (d : Document) (cs : List Char) : Option (Document × List Char) :=
  match cs with
  | '[' :: rest =>
    match key? maxDepth rest with
    | some (parts, ']' :: ']' :: rest) => do
      let (path, key) := splitLast parts
      return (⟨← d.root.openElement path key, parts⟩, ← lineEnd? rest)
    | _ => none
  | _ =>
    match key? maxDepth cs with
    | some (parts, ']' :: rest) => do
      let (path, key) := splitLast parts
      return (⟨← d.root.openTable path key, parts⟩, ← lineEnd? rest)
    | _ => none

/-- Reads a key with its value, and what follows its line. -/
def pair? (d : Document) (cs : List Char) : Option (Document × List Char) :=
  match key? maxDepth cs with
  | some (parts, '=' :: rest) => do
    let (value, rest) ← value? (2 * rest.length + 2) maxDepth (skipBlanks rest)
    let (path, key) := splitLast parts
    return (⟨← d.root.assignIn d.current path key value, d.current⟩, ← lineEnd? rest)
  | _ => none

/-- Reads lines, at most `fuel` of them, up to the end of the text. -/
def lines? : (fuel : Nat) → Document → List Char → Option Document
  | 0, _, _ => none
  | fuel + 1, d, cs =>
    match skipBlanks cs with
    | [] => some d
    | '[' :: rest =>
      match d.header? rest with
      | some (d, rest) => lines? fuel d rest
      | none => none
    | '#' :: _ | '\n' :: _ | '\r' :: _ =>
      match lineEnd? cs with
      | some rest => lines? fuel d rest
      | none => none
    | cs =>
      match d.pair? cs with
      | some (d, rest) => lines? fuel d rest
      | none => none

end Document

/-- Leaves out a byte order mark. -/
def dropMark : List Char → List Char
  | '\ufeff' :: rest => rest
  | cs => cs

/-- The outermost table of a document. -/
def parse? (s : String) : Option Entries :=
  let cs := dropMark s.toList
  (Document.lines? (cs.length + 1) {} cs).map (·.root)

end Offloading.Toml
