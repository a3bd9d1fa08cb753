/-!
# Writing JSON

Values and their text, on one line or with one member a line.
-/

namespace Offloading.Json

/-- A value to be written. -/
inductive Value where
  /-- A truth value. -/
  | boolean (b : Bool)
  /-- A number, as it is to be written. -/
  | number (text : String)
  /-- Text. -/
  | string (text : String)
  /-- Named members, in the order in which they are written. -/
  | object (members : List (String × Value))

/-- A whole number without a sign. -/
def Value.natural (n : Nat) : Value := number (toString n)

/-- A control character as four hexadecimal digits. -/
def unicodeEscape (c : Char) : String :=
  let digits := Nat.toDigits 16 c.toNat
  "\\u" ++ "".pushn '0' (4 - digits.length) ++ String.ofList digits

/-- A character inside a string. -/
def escaped (c : Char) : String :=
  if c = '"' then "\\\""
  else if c = '\\' then "\\\\"
  else if c = '\x08' then "\\b"
  else if c = '\x0c' then "\\f"
  else if c = '\n' then "\\n"
  else if c = '\r' then "\\r"
  else if c = '\t' then "\\t"
  else if c.toNat < 0x20 then unicodeEscape c
  else c.toString

/-- Text as a string. -/
def quote (s : String) : String := "\"" ++ String.join (s.toList.map escaped) ++ "\""

namespace Value

mutual

/-- The value on one line. -/
def compact : Value → String
  | boolean b => toString b
  | number text => text
  | string text => quote text
  | object members => "\x7b" ++ ",".intercalate (compactMembers members) ++ "\x7d"

/-- Members on one line. -/
def compactMembers : List (String × Value) → List String
  | [] => []
  | (key, value) :: rest => (quote key ++ ":" ++ value.compact) :: compactMembers rest

end

mutual

/-- The value with one member a line, inside something that is indented by `indent` blanks. -/
def pretty (indent : Nat) : Value → String
  | boolean b => toString b
  | number text => text
  | string text => quote text
  | object [] => "\x7b\x7d"
  | object members =>
    "\x7b\n" ++ ",\n".intercalate (prettyMembers (indent + 2) members) ++ "\n"
      ++ "".pushn ' ' indent ++ "\x7d"

/-- Members, each on a line of its own. -/
def prettyMembers (indent : Nat) : List (String × Value) → List String
  | [] => []
  | (key, value) :: rest =>
    ("".pushn ' ' indent ++ quote key ++ ": " ++ value.pretty indent) :: prettyMembers indent rest

end

end Value

end Offloading.Json
