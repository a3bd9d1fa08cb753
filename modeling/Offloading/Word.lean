/-!
# Machine words

Addresses, sizes and pointer values are natural numbers; a number of 64 bits is a *word*.
Sums and differences of words are plain arithmetic wherever the address space bounds them, and
the operations of this module wherever they may wrap around.
-/

namespace Offloading.Word

/-- Bytes in a word, and so in a pointer. -/
def bytes : Nat := 8

/-- How many words there are: two to the 64. -/
abbrev modulus : Nat := 0x10000000000000000

/-- The first word that stands for a negative number: two to the 63. -/
abbrev signBit : Nat := 0x8000000000000000

/-- How many numbers have 32 bits: two to the 32. -/
abbrev narrowModulus : Nat := 0x100000000

/-- The greatest word. -/
def greatest : Nat := modulus - 1

/-- The sum of two words, modulo `modulus`. -/
def add (a b : Nat) : Nat := (a + b) % modulus

/-- The difference of two words, modulo `modulus`. -/
def sub (a b : Nat) : Nat := (a + (modulus - b % modulus)) % modulus

/-- The sum of two words, or the greatest word where the sum is larger. -/
def saturatingAdd (a b : Nat) : Nat := min (a + b) greatest

/-- The word read as a two's-complement number. -/
def toInt (w : Nat) : Int := if w < signBit then w else (w : Int) - modulus

/-- The word whose two's-complement reading is congruent to `i`. -/
def ofInt (i : Int) : Nat := (i % modulus).toNat

/-- A word displaced by a signed amount, modulo `modulus`. -/
def displace (w : Nat) (offset : Int) : Nat := ofInt (w + offset)

/-- The lowest `n` bytes of a number, least significant first. -/
def lowBytes (w : Nat) : Nat → List UInt8
  | 0 => []
  | n + 1 => UInt8.ofNat (w % 256) :: lowBytes (w / 256) n

/-- The number whose bytes, least significant first, are `bs`. -/
def ofBytes : List UInt8 → Nat
  | [] => 0
  | b :: bs => b.toNat + 256 * ofBytes bs

/-- A word as it is stored in memory: eight bytes, least significant first. -/
def toBytes (w : Nat) : List UInt8 := lowBytes w bytes

/-- The words that are stored one after the other; a rest of fewer than eight bytes is left out. -/
def ofStored : List UInt8 → List Nat
  | a :: b :: c :: d :: e :: f :: g :: h :: rest => ofBytes [a, b, c, d, e, f, g, h] :: ofStored rest
  | _ => []

@[simp] theorem length_lowBytes (w n : Nat) : (lowBytes w n).length = n := by
  induction n generalizing w with
  | zero => rfl
  | succ n ih => simp [lowBytes, ih]

@[simp] theorem length_toBytes (w : Nat) : (toBytes w).length = 8 := by
  simp [toBytes, bytes]

theorem ofBytes_lowBytes (w n : Nat) : ofBytes (lowBytes w n) = w % Nat.pow 256 n := by
  induction n generalizing w with
  | zero => simp [lowBytes, ofBytes, Nat.mod_one]
  | succ n ih =>
    have low : (UInt8.ofNat (w % 256)).toNat = w % 256 := by simp
    rw [lowBytes, ofBytes, ih, low, Nat.pow_eq, Nat.pow_eq, Nat.pow_succ', Nat.mod_mul]

/-- Storing a word and reading it back changes nothing. -/
theorem ofBytes_toBytes {w : Nat} (h : w < modulus) : ofBytes (toBytes w) = w := by
  rw [toBytes, bytes, ofBytes_lowBytes, Nat.mod_eq_of_lt]
  exact h

end Offloading.Word
