import Offloading.Toml.Scalar
/-!
# TOML strings

Strings in the four forms of TOML, with escapes between double quotes and without them between single
ones, on one line or several, and the choice of a form for writing.
-/

namespace Offloading.Toml.Quoted

/-- Whether a character may stand for itself in a string or a comment. -/
def isPlain (c : Char) : Bool := c == '\t' || (0x20 ≤ c.toNat && c.toNat != 0x7f)

/-- The character of the code that hexadecimal digits give. -/
def scalar? (digits : List Char) : Option Char :=
  if digits.all (Text.isDigitIn 16) then
    let n := Text.valueIn 16 digits
    if n.isValidChar then some (Char.ofNat n) else none
  else none

/-- The character that a single letter after a backslash stands for. -/
def escape? : Char → Option Char
  | 'b' => some '\x08'
  | 't' => some '\t'
  | 'n' => some '\n'
  | 'f' => some '\x0c'
  | 'r' => some '\r'
  | '"' => some '"'
  | '\\' => some '\\'
  | _ => none

/-- Puts a character in front of what was read. -/
def cons (c : Char) : Option (List Char × List Char) → Option (List Char × List Char)
  | some (text, rest) => some (c :: text, rest)
  | none => none

/-- The text up to the closing double quote, and what follows it. -/
def basic : List Char → Option (List Char × List Char)
  | '"' :: rest => some ([], rest)
  | '\\' :: 'u' :: a :: b :: c :: d :: rest =>
    match scalar? [a, b, c, d] with
    | some ch => cons ch (basic rest)
    | none => none
  | '\\' :: 'U' :: a :: b :: c :: d :: e :: f :: g :: h :: rest =>
    match scalar? [a, b, c, d, e, f, g, h] with
    | some ch => cons ch (basic rest)
    | none => none
  | '\\' :: e :: rest =>
    match escape? e with
    | some ch => cons ch (basic rest)
    | none => none
  | c :: rest => if isPlain c then cons c (basic rest) else none
  | [] => none

/-- The text up to the closing single quote, and what follows it. -/
def literal : List Char → Option (List Char × List Char)
  | '\'' :: rest => some ([], rest)
  | c :: rest => if isPlain c then cons c (literal rest) else none
  | [] => none

/-- Whether a character is a blank. -/
def isBlank (c : Char) : Bool := c == ' ' || c == '\t'

/-- Whether only blanks stand before the end of the line. -/
def endsLine (cs : List Char) : Bool :=
  match cs.dropWhile isBlank with
  | '\n' :: _ | '\r' :: '\n' :: _ => true
  | _ => false

/-- The text up to three closing double quotes, and what follows them. After a backslash at the end of
a line, `trim` is set until something else than blanks and line ends comes. One or two quotes more
belong to the text. -/
def multilineBasic (trim : Bool) : List Char → Option (List Char × List Char)
  | '"' :: '"' :: '"' :: '"' :: '"' :: rest => some (['"', '"'], rest)
  | '"' :: '"' :: '"' :: '"' :: rest => some (['"'], rest)
  | '"' :: '"' :: '"' :: rest => some ([], rest)
  | '\\' :: 'u' :: a :: b :: c :: d :: rest =>
    match scalar? [a, b, c, d] with
    | some ch => cons ch (multilineBasic false rest)
    | none => none
  | '\\' :: 'U' :: a :: b :: c :: d :: e :: f :: g :: h :: rest =>
    match scalar? [a, b, c, d, e, f, g, h] with
    | some ch => cons ch (multilineBasic false rest)
    | none => none
  | '\\' :: e :: rest =>
    match escape? e with
    | some ch => cons ch (multilineBasic false rest)
    | none => if endsLine (e :: rest) then multilineBasic true (e :: rest) else none
  | '\r' :: '\n' :: rest =>
    if trim then multilineBasic true rest else cons '\n' (multilineBasic false rest)
  | c :: rest =>
    if trim && (isBlank c || c == '\n') then multilineBasic true rest
    else if isPlain c || c == '\n' then cons c (multilineBasic false rest)
    else none
  | [] => none

/-- The text up to three closing single quotes, and what follows them. One or two quotes more belong to
the text. -/
def multilineLiteral : List Char → Option (List Char × List Char)
  | '\'' :: '\'' :: '\'' :: '\'' :: '\'' :: rest => some (['\'', '\''], rest)
  | '\'' :: '\'' :: '\'' :: '\'' :: rest => some (['\''], rest)
  | '\'' :: '\'' :: '\'' :: rest => some ([], rest)
  | '\r' :: '\n' :: rest => cons '\n' (multilineLiteral rest)
  | c :: rest => if isPlain c || c == '\n' then cons c (multilineLiteral rest) else none
  | [] => none

/-- Leaves out a line end at the beginning. -/
def dropLineEnd : List Char → List Char
  | '\n' :: rest => rest
  | '\r' :: '\n' :: rest => rest
  | cs => cs

/-- A string on one line, as keys are written too. -/
def single? : List Char → Option (List Char × List Char)
  | '"' :: rest => basic rest
  | '\'' :: rest => literal rest
  | _ => none

/-- A string in any form. -/
def read? : List Char → Option (List Char × List Char)
  | '"' :: '"' :: '"' :: rest => multilineBasic false (dropLineEnd rest)
  | '\'' :: '\'' :: '\'' :: rest => multilineLiteral (dropLineEnd rest)
  | cs => single? cs

/-- The length of the longest run of a character. -/
def longestRun (c : Char) (cs : List Char) : Nat :=
  (cs.foldl (fun (longest, run) d =>
    let run := if d = c then run + 1 else 0
    (max longest run, run)) (0, 0)).1

/-- Whether a character needs an escape in every form that has escapes. -/
def isControl (c : Char) : Bool := c != '\t' && c != '\n' && !isPlain c

/-- A character as four hexadecimal digits in an escape. -/
def unicodeEscape (c : Char) : List Char :=
  let digits := (Nat.toDigits 16 c.toNat).map Char.toUpper
  '\\' :: 'u' :: List.replicate (4 - digits.length) '0' ++ digits

/-- Text between double quotes, on several lines if `multiline` is set; then up to two quotes in a row
need no escape. `quotes` are the quotes in a row before the text. -/
def escaped (multiline : Bool) (quotes : Nat) : List Char → List Char
  | [] => []
  | c :: rest =>
    if c = '"' then
      if quotes < (if multiline then 2 else 0) then '"' :: escaped multiline (quotes + 1) rest
      else '\\' :: '"' :: escaped multiline 0 rest
    else
      let written :=
        if c = '\x08' then ['\\', 'b']
        else if c = '\t' then ['\\', 't']
        else if c = '\n' then if multiline then ['\n'] else ['\\', 'n']
        else if c = '\x0c' then ['\\', 'f']
        else if c = '\r' then ['\\', 'r']
        else if c = '\\' then ['\\', '\\']
        else if isPlain c then [c]
        else unicodeEscape c
      written ++ escaped multiline 0 rest

/-- Text as a string: between double quotes on one line if it needs no escape there, else between
single quotes, else on several lines in the same order, and else with escapes. -/
def write (s : String) : String :=
  let cs := s.toList
  let newline := cs.contains '\n'
  let control := cs.any isControl
  let backslash := cs.contains '\\'
  let singles := longestRun '\'' cs
  let doubles := longestRun '"' cs
  let opening := if newline then "\n" else ""
  let onOneLine := "\"" ++ String.ofList (escaped false 0 cs) ++ "\""
  let onLines := "\"\"\"" ++ opening ++ String.ofList (escaped true 0 cs) ++ "\"\"\""
  if !control && !backslash && doubles = 0 && !newline then onOneLine
  else if !control && singles = 0 && !newline then "'" ++ s ++ "'"
  else if !control && !backslash && doubles ≤ 2 then onLines
  else if !control && singles ≤ 2 then "'''" ++ opening ++ s ++ "'''"
  else if newline then onLines
  else onOneLine

end Offloading.Toml.Quoted
