/-!
# Digits

Decimal and hexadecimal digits in either case, and the numbers that they stand for.
-/

namespace Offloading.Text

/-- Whether a character is a decimal digit. -/
def isDigit (c : Char) : Bool := '0' ≤ c && c ≤ '9'

/-- The value of a hexadecimal digit. -/
def digitValue? (c : Char) : Option Nat :=
  if isDigit c then some (c.toNat - '0'.toNat)
  else if 'a' ≤ c && c ≤ 'f' then some (c.toNat - 'a'.toNat + 10)
  else if 'A' ≤ c && c ≤ 'F' then some (c.toNat - 'A'.toNat + 10)
  else none

/-- Whether a character is a digit in a base of at most sixteen. -/
def isDigitIn (base : Nat) (c : Char) : Bool :=
  match digitValue? c with
  | some d => d < base
  | none => false

/-- The number that digits stand for; other characters are left out. -/
def valueIn (base : Nat) (cs : List Char) : Nat :=
  (cs.filterMap digitValue?).foldl (fun n d => n * base + d) 0

end Offloading.Text
