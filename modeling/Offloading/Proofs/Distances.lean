import Offloading.Proofs.MappingTable
/-!
# Distances

Tables for kernels keep how far the copy of a section lies from the section as a signed word. An address
that is displaced by such a distance is the address of its copy, wherever in the address space the two
lie.
-/

namespace Offloading

namespace Word

theorem displace_zero (w : Nat) : displace w 0 = w % modulus := by
  rw [displace, ofInt, Int.add_zero]
  exact congrArg Int.toNat (Int.natCast_emod w modulus).symm

/-- Displacing by a difference that is read as a signed number is adding the difference. -/
theorem displace_toInt (w v : Nat) : displace w (toInt v) = add w v := by
  unfold displace ofInt toInt add modulus
  split
  · omega
  · omega

end Word

namespace Mapping

variable {m n : Mapping} {addr : Nat}

/-- How far the copy lies from the section, modulo `Word.modulus`. -/
def offset (m : Mapping) : Nat := Word.sub m.deviceBegin m.hostBegin

/-- The distance as tables keep it. -/
def bias (m : Mapping) : Int64 := (UInt64.ofNat m.deviceBegin - UInt64.ofNat m.hostBegin).toInt64

theorem toNat_bias : m.bias.toUInt64.toNat = m.offset := by
  rw [bias, UInt64.toUInt64_toInt64, UInt64.toNat_sub]
  simp only [UInt64.toNat_ofNat', offset, Word.sub, Word.modulus]
  omega

theorem bias_eq_iff : m.bias = n.bias ↔ m.offset = n.offset := by
  constructor
  · intro same
    rw [← toNat_bias, ← toNat_bias, same]
  · intro same
    rw [← toNat_bias, ← toNat_bias, UInt64.toNat_inj] at same
    exact congrArg UInt64.toInt64 same

/-- An address displaced by the distance is the address of its copy. -/
theorem add_bias : (UInt64.ofNat addr + m.bias.toUInt64).toNat = m.translate addr := by
  rw [UInt64.toNat_add, toNat_bias]
  simp only [UInt64.toNat_ofNat', offset, translate, Word.add, Word.sub, Word.modulus]
  omega

end Mapping

end Offloading
