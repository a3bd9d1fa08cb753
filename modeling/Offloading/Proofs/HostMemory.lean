import Std.Data.TreeMap.Lemmas
import Offloading.Memory.Host
/-!
# Host memory

Host memory by its bytes. Writing changes the bytes of its section only, and a pointer that is read and
written again puts the old bytes back.
-/

namespace Offloading

namespace Word

theorem lowBytes_ofBytes (bs : List UInt8) : lowBytes (ofBytes bs) bs.length = bs := by
  induction bs with
  | nil => rfl
  | cons b rest ih =>
      have low : (b.toNat + 256 * ofBytes rest) % 256 = b.toNat := by
        have := b.toNat_lt
        omega
      have high : (b.toNat + 256 * ofBytes rest) / 256 = ofBytes rest := by
        have := b.toNat_lt
        omega
      rw [ofBytes, List.length_cons, lowBytes, low, high, ih, UInt8.ofNat_toNat]

end Word

namespace HostMemory

variable {m orig : HostMemory} {addr size a i slot : Nat} {bs : List UInt8}

theorem length_read (m : HostMemory) (addr size : Nat) : (m.read addr size).length = size := by
  rw [read, List.length_map, List.length_range']

theorem getElem?_read (h : i < size) : (m.read addr size)[i]? = some (m.byte (addr + i)) := by
  rw [read, List.getElem?_map, List.getElem?_range' h, Option.map_some, Nat.one_mul]

theorem byte_write_outside (h : a < addr ∨ addr + bs.length ≤ a) :
    (m.write addr bs).byte a = m.byte a := by
  induction bs generalizing m addr with
  | nil => rfl
  | cons b rest ih =>
      rw [List.length_cons] at h
      rw [write, ih (by omega), byte, byte, Std.TreeMap.getD_insert, if_neg]
      rw [Nat.compare_eq_eq]
      omega

theorem byte_write_inside (h : i < bs.length) : bs[i]? = some ((m.write addr bs).byte (addr + i)) := by
  induction bs generalizing m addr i with
  | nil => cases h
  | cons b rest ih =>
      rw [write]
      cases i with
      | zero =>
          rw [byte_write_outside (by omega), byte, Std.TreeMap.getD_insert, if_pos]
          · rfl
          · exact Nat.compare_eq_eq.2 rfl
      | succ i =>
          rw [List.length_cons] at h
          rw [List.getElem?_cons_succ, ih (by omega)]
          congr 2
          omega

theorem toBytes_readPointer (m : HostMemory) (slot : Nat) :
    Word.toBytes (m.readPointer slot) = m.read slot Word.bytes := by
  have := Word.lowBytes_ofBytes (m.read slot Word.bytes)
  rwa [length_read] at this

/-- A pointer is what its bytes are. -/
theorem readPointer_congr {host host' : HostMemory} {slot : Nat}
    (same : ∀ i < Word.bytes, host'.byte (slot + i) = host.byte (slot + i)) :
    host'.readPointer slot = host.readPointer slot := by
  have bytes : host'.read slot Word.bytes = host.read slot Word.bytes := by
    refine List.ext_getElem? fun i => ?_
    by_cases hi : i < Word.bytes
    · rw [getElem?_read hi, getElem?_read hi, same i hi]
    · rw [List.getElem?_eq_none (by rw [length_read]; omega),
        List.getElem?_eq_none (by rw [length_read]; omega)]
  rw [readPointer, readPointer, bytes]

/-- Writing the pointer that another memory has at a slot copies its bytes there. -/
theorem byte_write_readPointer :
    (m.write slot (Word.toBytes (orig.readPointer slot))).byte a =
      if slot ≤ a ∧ a < slot + Word.bytes then orig.byte a else m.byte a := by
  have length : (orig.read slot Word.bytes).length = Word.bytes := length_read orig slot Word.bytes
  rw [toBytes_readPointer]
  split
  · rename_i inside
    have written : (orig.read slot Word.bytes)[a - slot]? =
        some ((m.write slot (orig.read slot Word.bytes)).byte (slot + (a - slot))) :=
      byte_write_inside (by omega)
    rw [getElem?_read (by omega), Nat.add_sub_cancel' inside.1, Option.some.injEq] at written
    exact written.symm
  · exact byte_write_outside (by omega)

end HostMemory

end Offloading
