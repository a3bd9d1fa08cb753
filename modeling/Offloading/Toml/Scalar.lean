import Offloading.Text.Digit
import Offloading.Toml.Node
import Offloading.Word
/-!
# TOML scalars

Numbers, truth values, dates and times, each read from the run of characters that makes it up.
-/

namespace Offloading.Toml.Scalar

open Text (isDigit isDigitIn valueIn)

/-- Whether the characters are digits, at least one, with single underscores between some of them. -/
def isGrouped (digit : Char → Bool) : List Char → Bool
  | [] => false
  | [c] => digit c
  | c :: '_' :: rest => digit c && isGrouped digit rest
  | c :: rest => digit c && isGrouped digit rest

/-- Takes a sign off; whether it was a minus. -/
def unsign : List Char → Bool × List Char
  | '-' :: rest => (true, rest)
  | '+' :: rest => (false, rest)
  | cs => (false, cs)

/-- Whether the characters are a decimal number without a sign: a zero, or digits that do not start
with one. -/
def isDecimal (cs : List Char) : Bool :=
  cs == ['0'] || (cs.head? != some '0' && isGrouped isDigit cs)

/-- The integer, if 64 bits can hold it. -/
def bounded (i : Int) : Option Node :=
  if -(Word.signBit : Int) ≤ i ∧ i < Word.signBit then some (.integer i) else none

/-- A number with a prefix for its base, which has no sign. -/
def based (base : Nat) (cs : List Char) : Option Node :=
  if isGrouped (isDigitIn base) cs then bounded (valueIn base cs) else none

/-- A whole number. -/
def integer? : List Char → Option Node
  | '0' :: 'x' :: rest => based 16 rest
  | '0' :: 'o' :: rest => based 8 rest
  | '0' :: 'b' :: rest => based 2 rest
  | cs =>
    let (negative, digits) := unsign cs
    if isDecimal digits then
      bounded (if negative then -(valueIn 10 digits : Int) else valueIn 10 digits)
    else none

/-- Splits at the first character that satisfies `p`, which is left out. -/
def splitAt? (p : Char → Bool) (cs : List Char) : List Char × Option (List Char) :=
  let before := cs.takeWhile fun c => !p c
  match cs.drop before.length with
  | [] => (before, none)
  | _ :: after => (before, some after)

/-- The magnitude of a floating-point number above which there are only infinities: half way between
the greatest finite one and the next power of two. -/
def floatLimit : Nat := Nat.pow 2 1024 - Nat.pow 2 970

/-- Whether `digits * 10 ^ exponent` is too large for a finite floating-point number. -/
def overflows (digits : Nat) (exponent : Int) : Bool :=
  if digits = 0 then false
  else if 400 < exponent then true
  else if 0 ≤ exponent then floatLimit ≤ digits * Nat.pow 10 exponent.toNat
  else
    let drop := (-exponent).toNat
    if (Nat.toDigits 10 digits).length + 1 < drop then false
    else floatLimit * Nat.pow 10 drop ≤ digits

/-- A floating-point number: a decimal number with a fraction, an exponent or both, or one of the
special values. -/
def float? (cs : List Char) : Option Node :=
  let (negative, unsigned) := unsign cs
  if unsigned = ['i', 'n', 'f'] ∨ unsigned = ['n', 'a', 'n'] then some .float
  else
    let (mantissa, exponent?) := splitAt? (fun c => c == 'e' || c == 'E') unsigned
    let (whole, fraction?) := splitAt? (· == '.') mantissa
    let fraction := fraction?.getD []
    let (down, exponent) := unsign (exponent?.getD ['0'])
    let size : Int := valueIn 10 exponent
    let scale := (if down then -size else size)
      - ((fraction.filter isDigit).length : Int)
    let wellFormed := isDecimal whole && isGrouped isDigit exponent
      && (fraction?.isNone || isGrouped isDigit fraction) && (fraction?.isSome || exponent?.isSome)
    if wellFormed && (negative || !overflows (valueIn 10 (whole ++ fraction)) scale) then some .float
    else none

/-- The number that exactly two digits stand for. -/
def twoDigits? : List Char → Option Nat
  | [a, b] => if isDigit a && isDigit b then some (valueIn 10 [a, b]) else none
  | _ => none

/-- Days in a month. -/
def daysIn (year month : Nat) : Nat :=
  if month = 2 then
    if year % 4 = 0 ∧ (year % 100 ≠ 0 ∨ year % 400 = 0) then 29 else 28
  else if month = 4 ∨ month = 6 ∨ month = 9 ∨ month = 11 then 30
  else 31

/-- Whether ten characters are a date. -/
def isDate : List Char → Bool
  | [a, b, c, d, '-', e, f, '-', g, h] =>
    [a, b, c, d].all isDigit &&
      match twoDigits? [e, f], twoDigits? [g, h] with
      | some month, some day =>
        1 ≤ month && month ≤ 12 && 1 ≤ day && day ≤ daysIn (valueIn 10 [a, b, c, d]) month
      | _, _ => false
  | _ => false

/-- Whether two characters are a number below `limit`. -/
def isBelow (limit : Nat) (a b : Char) : Bool :=
  match twoDigits? [a, b] with
  | some n => n < limit
  | none => false

/-- The characters after a time. A minute may have a leap second. -/
def afterTime? : List Char → Option (List Char)
  | a :: b :: ':' :: c :: d :: ':' :: e :: f :: rest =>
    if isBelow 24 a b && isBelow 60 c d && isBelow 61 e f then
      match rest with
      | '.' :: fraction =>
        match fraction.takeWhile isDigit with
        | [] => none
        | digits => some (fraction.drop digits.length)
      | _ => some rest
    else none
  | _ => none

/-- Whether the characters are an offset from universal time. -/
def isZone : List Char → Bool
  | ['Z'] | ['z'] => true
  | [sign, a, b, ':', c, d] => (sign == '+' || sign == '-') && isBelow 24 a b && isBelow 60 c d
  | _ => false

/-- Whether the characters are a time and perhaps an offset. -/
def isZonedTime (cs : List Char) : Bool :=
  match afterTime? cs with
  | some [] => true
  | some rest => isZone rest
  | none => false

/-- A date, a time, or both. -/
def moment? (cs : List Char) : Option Node :=
  let date := cs.take 10
  let valid := match cs.drop 10 with
    | [] => isDate date || afterTime? cs == some []
    | c :: rest =>
      ((c == 'T' || c == 't') && isDate date && isZonedTime rest) || afterTime? cs == some []
  if valid then some .moment else none

/-- The value that a run of characters stands for. -/
def read? (cs : List Char) : Option Node :=
  if cs = "true".toList then some (.boolean true)
  else if cs = "false".toList then some (.boolean false)
  else (integer? cs).or ((float? cs).or (moment? cs))

/-- Whether a character may be part of a number, truth value, date or time. -/
def isPart (c : Char) : Bool :=
  c.isAlphanum || c == '+' || c == '-' || c == '.' || c == ':' || c == '_'

end Offloading.Toml.Scalar
