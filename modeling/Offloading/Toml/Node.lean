/-!
# TOML documents

The tree of a TOML document and the rules by which headers and dotted keys add to it: a table may be
defined once, and what one form has defined the other form may not reopen.
-/

namespace Offloading.Toml

/-- How a table came about. -/
inductive TableKind where
  /-- Written in line, and complete with that. -/
  | closed
  /-- By a header of its own. -/
  | header
  /-- As the parent of a table with a header. -/
  | implied
  /-- By a dotted key. -/
  | dotted
  deriving DecidableEq, Repr

/-- A value, a table or an array of tables. -/
inductive Node where
  /-- Text. -/
  | string (text : String)
  /-- A whole number. -/
  | integer (value : Int)
  /-- A floating-point number. -/
  | float
  /-- A truth value. -/
  | boolean (value : Bool)
  /-- A date, a time, or both. -/
  | moment
  /-- A list of values. -/
  | array (items : List Node)
  /-- A table. -/
  | table (kind : TableKind) (entries : List (String × Node))
  /-- An array of tables, each made by a header. -/
  | tables (elements : List (List (String × Node)))

/-- The keys of a table and what they stand for. -/
abbrev Entries := List (String × Node)

namespace Entries

/-- Changes what a key stands for. -/
def replace (es : Entries) (key : String) (node : Node) : Entries :=
  es.map fun (k, n) => if k = key then (k, node) else (k, n)

/-- Adds a key that is not there yet. -/
def add (es : Entries) (key : String) (node : Node) : Entries := es ++ [(key, node)]

/-- Changes the table that a path leads to, of the kind given for the empty path. Tables that are
missing on the way are made. The path of a dotted key may only enter tables without a header; any path
enters the last element of an array of tables. -/
def descend (dotted : Bool) (change : TableKind → Entries → Option Entries) (kind : TableKind) :
    (path : List String) → Entries → Option Entries
  | [], es => change kind es
  | key :: path, es =>
    match es.lookup key with
    | none =>
      let made := if dotted then .dotted else .implied
      (descend dotted change made path []).map fun inner => es.add key (.table made inner)
    | some (.table found inner) =>
      if found = .closed ∨ found = .header ∧ dotted then none
      else (descend dotted change found path inner).map fun inner =>
        es.replace key (.table found inner)
    | some (.tables elements) =>
      match elements.getLast? with
      | none => none
      | some last =>
        (descend dotted change .header path last).map fun inner =>
          es.replace key (.tables (elements.dropLast ++ [inner]))
    | some _ => none

/-- Gives the dotted key `path`, `key` a value. -/
def assign (path : List String) (key : String) (value : Node) (es : Entries) : Option Entries :=
  descend true (fun kind es =>
    if (kind = .dotted) = path.isEmpty then none
    else if (es.lookup key).isSome then none
    else some (es.add key value)) .header path es

/-- Opens the table of a header. -/
def openTable (path : List String) (key : String) (es : Entries) : Option Entries :=
  descend false (fun _ es =>
    match es.lookup key with
    | none => some (es.add key (.table .header []))
    | some (.table .implied inner) => some (es.replace key (.table .header inner))
    | some _ => none) .header path es

/-- Opens a new element of the array of tables of a header. -/
def openElement (path : List String) (key : String) (es : Entries) : Option Entries :=
  descend false (fun _ es =>
    match es.lookup key with
    | none => some (es.add key (.tables [[]]))
    | some (.tables elements) => some (es.replace key (.tables (elements ++ [[]])))
    | some _ => none) .header path es

/-- Gives a dotted key a value in the table of the header `table`. -/
def assignIn (table path : List String) (key : String) (value : Node) (es : Entries) :
    Option Entries :=
  descend false (fun _ es => assign path key value es) .header table es

end Entries

end Offloading.Toml
