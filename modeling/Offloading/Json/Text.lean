import Offloading.Text.Digit
/-!
# Reading JSON

The parts of a JSON text, each read off the front of what is left. A string may hold halves of
surrogate pairs; it stands for text if it does not. Values that nobody asks for are passed over, to any
depth.
-/

namespace Offloading.Json

/-- Whether a character may stand between the parts. -/
def isBlank (c : Char) : Bool := c == ' ' || c == '\n' || c == '\t' || c == '\r'

/-- Leaves out blanks. -/
def skipBlanks (cs : List Char) : List Char := cs.dropWhile isBlank

/-- A piece of a string. -/
inductive Piece where
  /-- A character. -/
  | char (c : Char)
  /-- A UTF-16 code unit, by its number. -/
  | unit (code : Nat)
  deriving DecidableEq, Repr

/-- The character that a single letter after a backslash stands for. -/
def escape? : Char → Option Char
  | '"' => some '"'
  | '\\' => some '\\'
  | '/' => some '/'
  | 'b' => some '\x08'
  | 'f' => some '\x0c'
  | 'n' => some '\n'
  | 'r' => some '\r'
  | 't' => some '\t'
  | _ => none

/-- Puts a piece in front of what was read. -/
def Piece.before (p : Piece) : Option (List Piece × List Char) → Option (List Piece × List Char)
  | some (pieces, rest) => some (p :: pieces, rest)
  | none => none

/-- The pieces of a string up to its closing quote, and what follows it. -/
def pieces? : List Char → Option (List Piece × List Char)
  | '"' :: rest => some ([], rest)
  | '\\' :: 'u' :: a :: b :: c :: d :: rest =>
    if [a, b, c, d].all (Text.isDigitIn 16) then
      (Piece.unit (Text.valueIn 16 [a, b, c, d])).before (pieces? rest)
    else none
  | '\\' :: e :: rest =>
    match escape? e with
    | some c => (Piece.char c).before (pieces? rest)
    | none => none
  | c :: rest => if 0x20 ≤ c.toNat then (Piece.char c).before (pieces? rest) else none
  | [] => none

/-- Whether a code unit is the first half of a surrogate pair. -/
def isHighHalf (code : Nat) : Bool := 0xd800 ≤ code && code < 0xdc00

/-- Whether a code unit is the second half of a surrogate pair. -/
def isLowHalf (code : Nat) : Bool := 0xdc00 ≤ code && code < 0xe000

/-- The text that pieces stand for, if every half of a surrogate pair has its other half beside it. -/
def text? : List Piece → Option (List Char)
  | [] => some []
  | .char c :: rest => (text? rest).map (c :: ·)
  | .unit high :: .unit low :: rest =>
    if isHighHalf high then
      if isLowHalf low then
        (text? rest).map (Char.ofNat (0x10000 + (high - 0xd800) * 0x400 + (low - 0xdc00)) :: ·)
      else none
    else if isLowHalf high then none
    else (text? (.unit low :: rest)).map (Char.ofNat high :: ·)
  | .unit code :: rest =>
    if isHighHalf code || isLowHalf code then none else (text? rest).map (Char.ofNat code :: ·)

/-- A string that is text, and what follows it. -/
def string? : List Char → Option (String × List Char)
  | '"' :: rest => do
    let (pieces, rest) ← pieces? rest
    return (String.ofList (← text? pieces), rest)
  | _ => none

/-- Splits digits off, at least one. -/
def digits? (cs : List Char) : Option (List Char × List Char) :=
  match cs.takeWhile Text.isDigit with
  | [] => none
  | digits => some (digits, cs.drop digits.length)

/-- A whole number without a sign, which starts with zero only if it is zero, and what follows it. -/
def whole? : List Char → Option (List Char × List Char)
  | '0' :: rest => some (['0'], rest)
  | cs => digits? cs

/-- What follows a fraction, if there is one. -/
def skipFraction? : List Char → Option (List Char)
  | '.' :: rest => (digits? rest).map (·.2)
  | cs => some cs

/-- What follows an exponent, if there is one. -/
def skipExponent? : List Char → Option (List Char)
  | 'e' :: rest | 'E' :: rest =>
    match rest with
    | '+' :: rest | '-' :: rest => (digits? rest).map (·.2)
    | rest => (digits? rest).map (·.2)
  | cs => some cs

/-- What follows a number. -/
def skipNumber? (cs : List Char) : Option (List Char) := do
  let unsigned := match cs with
    | '-' :: rest => rest
    | cs => cs
  let (_, rest) ← whole? unsigned
  skipExponent? (← skipFraction? rest)

/-- A number below `limit` without sign, fraction and exponent, and what follows it. -/
def natural? (limit : Nat) (cs : List Char) : Option (Nat × List Char) := do
  let (digits, rest) ← whole? cs
  guard (Text.valueIn 10 digits < limit)
  match rest with
  | '.' :: _ | 'e' :: _ | 'E' :: _ => none
  | _ => return (Text.valueIn 10 digits, rest)

mutual

/-- What follows a value of any kind, which has at most `fuel` parts. -/
def skipValue? : (fuel : Nat) → List Char → Option (List Char)
  | 0, _ => none
  | fuel + 1, cs =>
    match skipBlanks cs with
    | '"' :: rest => (pieces? rest).map (·.2)
    | '[' :: rest =>
      match skipBlanks rest with
      | ']' :: rest => some rest
      | rest => skipItems? fuel rest
    | '\x7b' :: rest =>
      match skipBlanks rest with
      | '\x7d' :: rest => some rest
      | rest => skipMembers? fuel rest
    | 'n' :: 'u' :: 'l' :: 'l' :: rest => some rest
    | 't' :: 'r' :: 'u' :: 'e' :: rest => some rest
    | 'f' :: 'a' :: 'l' :: 's' :: 'e' :: rest => some rest
    | cs => skipNumber? cs

/-- What follows the items of an array and its closing bracket. -/
def skipItems? : (fuel : Nat) → List Char → Option (List Char)
  | 0, _ => none
  | fuel + 1, cs =>
    match (skipValue? fuel cs).map skipBlanks with
    | some (',' :: rest) => skipItems? fuel rest
    | some (']' :: rest) => some rest
    | _ => none

/-- What follows the members of an object and its closing brace. -/
def skipMembers? : (fuel : Nat) → List Char → Option (List Char)
  | 0, _ => none
  | fuel + 1, cs =>
    match skipBlanks cs with
    | '"' :: rest =>
      match (pieces? rest).map fun (_, rest) => skipBlanks rest with
      | some (':' :: rest) =>
        match (skipValue? fuel rest).map skipBlanks with
        | some (',' :: rest) => skipMembers? fuel rest
        | some ('\x7d' :: rest) => some rest
        | _ => none
      | _ => none
    | _ => none

end

end Offloading.Json
