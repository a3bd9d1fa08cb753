import Offloading.Proofs.DeviceCode
import Offloading.Proofs.DeviceMemory
import Offloading.Proofs.HostMemory
/-!
# Stored words

Bytes are words one after the other and a rest that is too short for one. Storing the words of some bytes
gives these bytes back, up to the rest, and each word is found where it was stored.
-/

namespace Offloading

namespace Word

variable {first rest bs : List UInt8} {words : List Nat} {w i : Nat}

theorem toBytes_ofBytes (h : bs.length = 8) : toBytes (ofBytes bs) = bs := by
  have same := lowBytes_ofBytes bs
  rwa [h] at same

theorem ofBytes_lt_pow (bs : List UInt8) : ofBytes bs < Nat.pow 256 bs.length := by
  induction bs with
  | nil => exact Nat.zero_lt_one
  | cons b bs ih =>
      have := b.toNat_lt
      change b.toNat + 256 * ofBytes bs < Nat.pow 256 bs.length * 256
      omega

theorem ofBytes_lt (h : bs.length = 8) : ofBytes bs < modulus := by
  have bound := ofBytes_lt_pow bs
  rwa [h] at bound

theorem ofStored_toBytes (w : Nat) (rest : List UInt8) :
    ofStored (toBytes w ++ rest) = ofBytes (toBytes w) :: ofStored rest := by
  simp only [toBytes, bytes, lowBytes, List.cons_append, List.nil_append, ofStored]

/-- Words that are stored one after the other are found again. -/
theorem ofStored_flatMap {words : List Nat} (h : ∀ w ∈ words, w < modulus) :
    ofStored (words.flatMap toBytes) = words := by
  induction words with
  | nil => rfl
  | cons w rest ih =>
      obtain ⟨hw, others⟩ := List.forall_mem_cons.1 h
      rw [List.flatMap_cons, ofStored_toBytes, ofBytes_toBytes hw, ih others]

theorem ofStored_append (h : first.length = 8) :
    ofStored (first ++ rest) = ofBytes first :: ofStored rest := by
  have stored := ofStored_toBytes (ofBytes first) rest
  rwa [toBytes_ofBytes h] at stored

theorem ofStored_short (h : bs.length < 8) : ofStored bs = [] := by
  unfold ofStored
  split
  · simp only [List.length_cons] at h
    omega
  · rfl

/-- What holds of a rest, and of bytes that begin with a word if it holds of those behind the word, holds
of all bytes. -/
theorem bytes_induction {P : List UInt8 → Prop} (short : ∀ bs : List UInt8, bs.length < 8 → P bs)
    (word : ∀ first rest : List UInt8, first.length = 8 → P rest → P (first ++ rest))
    (bs : List UInt8) : P bs := by
  by_cases h : bs.length < 8
  · exact short bs h
  · rw [← List.take_append_drop 8 bs]
    refine word _ _ ?_ (bytes_induction short word (bs.drop 8))
    rw [List.length_take]
    omega
termination_by bs.length
decreasing_by
  rw [List.length_drop]
  omega

theorem length_ofStored (bs : List UInt8) : (ofStored bs).length = bs.length / 8 := by
  induction bs using bytes_induction with
  | short bs h => rw [ofStored_short h, Nat.div_eq_of_lt h, List.length_nil]
  | word first rest h ih =>
      rw [ofStored_append h, List.length_cons, ih, List.length_append, h]
      omega

theorem lt_of_mem_ofStored (hw : w ∈ ofStored bs) : w < modulus := by
  induction bs using bytes_induction with
  | short bs h =>
      rw [ofStored_short h] at hw
      exact absurd hw List.not_mem_nil
  | word first rest h ih =>
      rw [ofStored_append h] at hw
      rcases List.mem_cons.1 hw with rfl | hw
      · exact ofBytes_lt h
      · exact ih hw

/-- The words of some bytes are stored as these bytes. -/
theorem flatMap_ofStored (whole : bs.length % 8 = 0) : (ofStored bs).flatMap toBytes = bs := by
  induction bs using bytes_induction with
  | short bs h =>
      have empty : bs = [] := List.length_eq_zero_iff.1 (by omega)
      rw [empty]
      rfl
  | word first rest h ih =>
      rw [List.length_append] at whole
      rw [ofStored_append h, List.flatMap_cons, toBytes_ofBytes h, ih (by omega)]

/-- The word at a position is the number of its eight bytes. -/
theorem getElem?_ofStored (inside : (i + 1) * 8 ≤ bs.length) :
    (ofStored bs)[i]? = some (ofBytes ((bs.drop (i * 8)).take 8)) := by
  induction i generalizing bs with
  | zero =>
      have first : (bs.take 8).length = 8 := by
        rw [List.length_take]
        omega
      rw [← List.take_append_drop 8 bs, ofStored_append first, List.take_append_drop]
      rfl
  | succ i ih =>
      have first : (bs.take 8).length = 8 := by
        rw [List.length_take]
        omega
      have rest : (i + 1) * 8 ≤ (bs.drop 8).length := by
        rw [List.length_drop]
        omega
      have later := ih rest
      rw [← List.take_append_drop 8 bs, ofStored_append first, List.getElem?_cons_succ, later,
        List.take_append_drop, List.drop_drop]
      congr 4
      omega

theorem length_flatMap {α : Type} {f : α → List UInt8} {k : Nat} (length : ∀ a, (f a).length = k)
    (items : List α) : (items.flatMap f).length = items.length * k := by
  induction items with
  | nil => exact (Nat.zero_mul k).symm
  | cons a items ih =>
      rw [List.flatMap_cons, List.length_append, length, ih, List.length_cons, Nat.succ_mul, Nat.add_comm]

theorem length_flatMap_toBytes (words : List Nat) :
    (words.flatMap toBytes).length = words.length * bytes := length_flatMap length_toBytes words

/-- What is stored in pieces of one length is found again. -/
theorem take_drop_flatMap {α : Type} {f : α → List UInt8} {k : Nat} (length : ∀ a, (f a).length = k)
    {items : List α} {a : α} (h : items[i]? = some a) :
    ((items.flatMap f).drop (i * k)).take k = f a := by
  induction items generalizing i with
  | nil => cases h
  | cons b items ih =>
      rw [List.flatMap_cons]
      cases i with
      | zero =>
          cases h
          rw [Nat.zero_mul, List.drop_zero, List.take_left' (length _)]
      | succ i =>
          rw [Nat.succ_mul, Nat.add_comm, ← List.drop_drop, List.drop_left' (length b)]
          exact ih h

end Word

namespace DeviceMemory

variable {m : DeviceMemory} {addr offset size : Nat} {content : List UInt8}

/-- A part of a section that can be read can be read alone. -/
theorem WellFormed.read_part (h : m.WellFormed) (ran : m.read addr content.length = .ok content)
    (some : 0 < size) (fits : offset + size ≤ content.length) :
    m.read (addr + offset) size = .ok ((content.drop offset).take size) := by
  have bytes := (h.read_eq_ok ran).2
  have length : ((content.drop offset).take size).length = size := by
    rw [List.length_take, List.length_drop]
    omega
  rw [read, if_neg (by omega)] at ran
  cases located : m.locate addr content.length with
  | error e =>
      rw [located] at ran
      cases ran
  | ok b =>
      obtain ⟨hb, lower, upper⟩ := locate_eq_ok located
      have part : m.read (addr + offset) ((content.drop offset).take size).length =
          .ok ((content.drop offset).take size) := by
        refine h.read_eq hb (by omega) (by omega) (by omega) fun i hi => ?_
        rw [List.getElem?_take_of_lt (by omega), List.getElem?_drop, ← bytes _ (by omega), Nat.add_assoc]
      rwa [length] at part

end DeviceMemory

namespace KernelM

variable {α : Type} {m : DeviceMemory} {words : List Nat} {addr base i w : Nat} {f : Nat → KernelM α}

/-- A kernel finds the words that are stored one after the other. -/
theorem run_readStored (hm : m.WellFormed)
    (stored : m.read base (words.flatMap Word.toBytes).length = .ok (words.flatMap Word.toBytes))
    (hw : words[i]? = some w) (word : w < Word.modulus) (place : addr = base + i * 8) :
    (readWord addr >>= f).run.run m = (f w).run.run m := by
  obtain ⟨inside, -⟩ := List.getElem?_eq_some_iff.1 hw
  have fits : i * 8 + 8 ≤ (words.flatMap Word.toBytes).length := by
    rw [Word.length_flatMap_toBytes, Word.bytes]
    omega
  have part := hm.read_part stored (by decide : 0 < 8) fits
  rw [Word.take_drop_flatMap Word.length_toBytes hw, ← place] at part
  rw [run_bind (run_readWord part), Word.ofBytes_toBytes word]

end KernelM

end Offloading
