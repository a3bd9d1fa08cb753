/-!
# Rounded decimals

A fraction of natural numbers written with a fixed number of decimals, and binary floating-point
numbers as such fractions. Rounding is exact: it goes to the nearest decimal of that many places
and, half way between two of them, to the even one.
-/

namespace Offloading.Text

/-- The integer nearest to `num / den`; a tie goes to the even neighbour. -/
def roundEven (num den : Nat) : Nat :=
  let floor := num / den
  let twice := 2 * (num % den)
  if twice < den then floor
  else if den < twice then floor + 1
  else floor + floor % 2

/-- `num / den` with `places` decimals. -/
def fixed (num den places : Nat) : String :=
  let scale := Nat.pow 10 places
  let scaled := roundEven (num * scale) den
  let whole := toString (scaled / scale)
  if places = 0 then whole
  else
    let decimals := toString (scaled % scale)
    whole ++ "." ++ "".pushn '0' (places - decimals.length) ++ decimals

/-- A finite non-negative binary64 number as an exact fraction. -/
def fraction (x : Float) : Nat × Nat :=
  let bits := x.toBits.toNat
  let hidden := Nat.pow 2 52
  let exponent := bits / hidden % 2048
  let significand := bits % hidden
  let (m, e) := if exponent = 0 then (significand, 1) else (significand + hidden, exponent)
  if 1075 ≤ e then (m * Nat.pow 2 (e - 1075), 1) else (m, Nat.pow 2 (1075 - e))

/-- A finite non-negative binary64 number with `places` decimals. -/
def fixedFloat (x : Float) (places : Nat) : String :=
  let (num, den) := fraction x
  fixed num den places

end Offloading.Text
