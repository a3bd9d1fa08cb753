/-!
# Hexadecimal text

Addresses are written in lower case with the mark `0x` and no leading zero.
-/

namespace Offloading.Text

/-- A number in hexadecimal. -/
def hex (n : Nat) : String := "0x" ++ String.ofList (Nat.toDigits 16 n)

end Offloading.Text
