import Offloading.Text.Case
/-!
# Lower case

Text in lower case: each character has its simple lower-case form, a dotted capital I becomes two
characters, and a capital sigma at the end of a word becomes a final one.
-/

namespace Offloading.Text

/-- Whether a number lies in one of the ranges. -/
def inRanges (ranges : List (Nat × Nat)) (n : Nat) : Bool :=
  ranges.any fun (low, high) => low ≤ n && n ≤ high

/-- Whether the first character that is not looked through has case. -/
def meetsCased (cs : List Char) : Bool :=
  match cs.dropWhile fun c => inRanges Case.ignorable c.toNat with
  | c :: _ => inRanges Case.cased c.toNat
  | [] => false

/-- The simple lower-case form of a character. -/
def lowerChar (c : Char) : Char :=
  let n := c.toNat
  match Case.lowered.find? fun (low, high, step, _) =>
      low ≤ n && n ≤ high && (n - low) % step == 0 with
  | some (_, _, _, distance) => Char.ofNat ((n : Int) + distance).toNat
  | none => c

/-- The lower-case form of a character between the characters before it, the closest first, and
those after it. -/
def lowerAt (before : List Char) (c : Char) (after : List Char) : List Char :=
  if c = 'Σ' then [if meetsCased before && !meetsCased after then 'ς' else 'σ']
  else if c = 'İ' then ['i', '\u0307']
  else [lowerChar c]

/-- The lower-case form of characters that follow the given ones. -/
def lowerAll (before : List Char) : List Char → List Char
  | [] => []
  | c :: rest => lowerAt before c rest ++ lowerAll (c :: before) rest

/-- A text in lower case. -/
def lowercase (s : String) : String := String.ofList (lowerAll [] s.toList)

end Offloading.Text
