import Offloading.Proofs.OffsetList
import Offloading.Proofs.StoredWords
/-!
# Stored offset lists

What can be read as an offset list is what some list is stored as, and storing the list gives the same
bytes again. A list comes back with its distances, but a window whose distance is zero comes back as one
without a section. A kernel that looks an address up in the stored words finds what the list says, and it
fails exactly where the list lacks the window.
-/

namespace Offloading

theorem Word.add_toNat (addr : Nat) (offset : UInt64) :
    add addr offset.toNat = (UInt64.ofNat addr + offset).toNat := by
  rw [UInt64.toNat_add, UInt64.toNat_ofNat', Nat.mod_add_mod]
  rfl

namespace OffsetList

variable {l u : OffsetList} {bytes : List UInt8} {mask : UInt64} {shift : UInt32}

/-! ## Reading -/

theorem words_lt (few : l.size < Word.modulus) : ∀ w ∈ l.words, w < Word.modulus := by
  intro w hw
  simp only [words, List.mem_cons, List.mem_map] at hw
  rcases hw with rfl | rfl | rfl | ⟨o, -, rfl⟩
  · exact l.mask.toNat_lt
  · exact Nat.lt_trans l.shift.toNat_lt (by decide)
  · exact few
  · exact UInt64.toNat_lt _

theorem getElem?_words {w : Nat} {o : Option Int64} (h : l.windows[w]? = some o) :
    l.words[w + 3]? = some (offsetAt o).toUInt64.toNat := by
  rw [words, List.getElem?_cons_succ, List.getElem?_cons_succ, List.getElem?_cons_succ,
    List.getElem?_map, Array.getElem?_toList, h, Option.map_some]

theorem length_words : l.words.length = l.size + 3 := by
  simp only [words, List.length_cons, List.length_map, Array.length_toList, size]

theorem length_encode : l.encode.length = (l.size + 3) * 8 := by
  rw [encode, Word.length_flatMap_toBytes, length_words, Word.bytes]

/-- What it takes for bytes to be a stored list, and which list it is. -/
theorem decode_eq_ok_iff : decode bytes = .ok l ↔
    bytes.length % 8 = 0 ∧ ∃ mask shift announced offsets,
      Word.ofStored bytes = mask :: shift :: announced :: offsets ∧ offsets.length = announced ∧
        shift < Word.narrowModulus ∧
          l = ⟨.ofNat mask, .ofNat shift, (offsets.map windowOfWord).toArray⟩ := by
  have number := Word.length_ofStored bytes
  rw [decode, headerWords, Word.bytes]
  by_cases regular : bytes.length < 3 * 8 ∨ bytes.length % 8 ≠ 0
  · rw [if_pos regular]
    constructor
    · intro h
      cases h
    · rintro ⟨whole, mask, shift, announced, offsets, stored, -⟩
      rw [stored, List.length_cons, List.length_cons, List.length_cons] at number
      omega
  · rw [if_neg regular]
    split
    · rename_i mask shift announced offsets stored
      constructor
      · intro h
        by_cases count : offsets.length ≠ announced
        · rw [if_pos count] at h
          cases h
        · rw [if_neg count] at h
          by_cases wide : Word.narrowModulus ≤ shift
          · rw [if_pos wide] at h
            cases h
          · rw [if_neg wide] at h
            cases h
            exact ⟨by omega, mask, shift, announced, offsets, stored, by omega, by omega, rfl⟩
      · rintro ⟨-, mask', shift', announced', offsets', stored', count, narrow, rfl⟩
        rw [stored] at stored'
        cases stored'
        rw [if_neg (by omega), if_neg (by omega)]
    · rename_i none
      refine ⟨fun h => (by cases h), ?_⟩
      rintro ⟨-, mask, shift, announced, offsets, stored, -⟩
      exact absurd stored (none mask shift announced offsets)

/-- The distance that a word stands for is stored as that word. -/
theorem toNat_offsetAt_windowOfWord {w : Nat} (word : w < Word.modulus) :
    (offsetAt (windowOfWord w)).toUInt64.toNat = w := by
  have same : (UInt64.ofNat w).toInt64.toUInt64.toNat = w := by
    rw [UInt64.toUInt64_toInt64, UInt64.toNat_ofNat_of_lt' word]
  unfold windowOfWord offsetAt
  by_cases zero : (UInt64.ofNat w).toInt64 = 0
  · rw [if_pos zero, Option.getD_none, ← zero]
    exact same
  · rw [if_neg zero, Option.getD_some]
    exact same

/-- The words of a list that was read are those that were read. -/
theorem words_of_decode (h : decode bytes = .ok l) : l.words = Word.ofStored bytes := by
  obtain ⟨-, mask, shift, announced, offsets, stored, count, narrow, rfl⟩ := decode_eq_ok_iff.1 h
  have word (w : Nat) (hw : w ∈ Word.ofStored bytes) := Word.lt_of_mem_ofStored hw
  rw [stored] at word
  simp only [List.forall_mem_cons] at word
  obtain ⟨hmask, -, -, hoffsets⟩ := word
  have windows : (offsets.map windowOfWord).map (fun w => (offsetAt w).toUInt64.toNat) = offsets := by
    rw [List.map_map]
    exact (List.map_congr_left fun w hw => toNat_offsetAt_windowOfWord (hoffsets w hw)).trans
      (List.map_id _)
  rw [stored, words, size, UInt64.toNat_ofNat_of_lt' hmask, UInt32.toNat_ofNat_of_lt' narrow, windows,
    List.size_toArray, List.length_map, count]

theorem size_of_decode (h : decode bytes = .ok l) : l.size < Word.modulus := by
  have mem : l.size ∈ Word.ofStored bytes := by
    rw [← words_of_decode h, words]
    simp only [List.mem_cons, true_or, or_true]
  exact Word.lt_of_mem_ofStored mem

/-- Storing a list that was read gives the bytes that were read. -/
theorem encode_of_decode (h : decode bytes = .ok l) : l.encode = bytes := by
  rw [encode, words_of_decode h, Word.flatMap_ofStored (decode_eq_ok_iff.1 h).1]

theorem stored_shift_count (long : 24 ≤ bytes.length) :
    (Word.ofStored bytes)[1]? = some (Word.ofBytes ((bytes.drop 8).take 8)) ∧
      (Word.ofStored bytes)[2]? = some (Word.ofBytes ((bytes.drop 16).take 8)) :=
  ⟨Word.getElem?_ofStored (i := 1) (by omega), Word.getElem?_ofStored (i := 2) (by omega)⟩

/-- Bytes are a stored list exactly if they are words, three of them lead, the third one is the number of
those that follow, and the second one fits into 32 bits. -/
theorem decode_isOk_iff : (∃ l, decode bytes = .ok l) ↔
    bytes.length % 8 = 0 ∧ 24 ≤ bytes.length ∧
      Word.ofBytes ((bytes.drop 16).take 8) = bytes.length / 8 - 3 ∧
      Word.ofBytes ((bytes.drop 8).take 8) < Word.narrowModulus := by
  have number := Word.length_ofStored bytes
  simp only [decode_eq_ok_iff]
  constructor
  · rintro ⟨l, whole, mask, shift, announced, offsets, stored, count, narrow, -⟩
    rw [stored, List.length_cons, List.length_cons, List.length_cons] at number
    have long : 24 ≤ bytes.length := by omega
    obtain ⟨second, third⟩ := stored_shift_count long
    rw [stored] at second third
    cases second
    cases third
    exact ⟨whole, long, by omega, narrow⟩
  · rintro ⟨whole, long, third, narrow⟩
    obtain ⟨second, third'⟩ := stored_shift_count long
    rcases stored : Word.ofStored bytes with _ | ⟨mask, _ | ⟨shift, _ | ⟨announced, offsets⟩⟩⟩
    · rw [stored, List.length_nil] at number
      omega
    · rw [stored, List.length_cons, List.length_nil] at number
      omega
    · rw [stored, List.length_cons, List.length_cons, List.length_nil] at number
      omega
    · rw [stored] at second third' number
      simp only [List.length_cons] at number
      cases second
      cases third'
      exact ⟨_, whole, mask, _, _, offsets, rfl, by omega, narrow, rfl⟩

/-! ## Storing -/

/-- The list without the distances that are zero. -/
def canonical (l : OffsetList) : OffsetList :=
  { l with windows := l.windows.map fun w => w.filter (· != 0) }

theorem windowOfWord_offsetAt (w : Option Int64) :
    windowOfWord (offsetAt w).toUInt64.toNat = w.filter (· != 0) := by
  unfold windowOfWord
  rw [UInt64.ofNat_toNat, Int64.toInt64_toUInt64]
  cases w with
  | none => rfl
  | some o =>
      change (if o = 0 then none else some o) = Option.filter (· != 0) (some o)
      by_cases zero : o = 0
      · subst zero
        rfl
      · rw [if_neg zero, Option.filter_some, if_pos (bne_iff_ne.2 zero)]

theorem decode_encode (few : l.size < Word.modulus) : decode l.encode = .ok l.canonical := by
  refine decode_eq_ok_iff.2 ⟨?_, _, _, _, _, Word.ofStored_flatMap (words_lt few), ?_,
    l.shift.toNat_lt, ?_⟩
  · rw [length_encode, Nat.mul_mod_left]
  · rw [List.length_map, Array.length_toList, size]
  · have windows : (l.windows.toList.map fun w => (offsetAt w).toUInt64.toNat).map windowOfWord =
        l.windows.toList.map fun w => w.filter (· != 0) := by
      rw [List.map_map]
      exact List.map_congr_left fun w _ => windowOfWord_offsetAt w
    rw [windows, UInt64.ofNat_toNat, UInt32.ofNat_toNat, canonical, ← List.map_toArray,
      Array.toArray_toList]

theorem offsetAt_filter (w : Option Int64) : offsetAt (w.filter (· != 0)) = offsetAt w := by
  cases w with
  | none => rfl
  | some o =>
      by_cases zero : o = 0
      · subst zero
        rfl
      · rw [Option.filter_some, if_pos (bne_iff_ne.2 zero)]

/-- The distances come back. -/
theorem offsets_canonical (l : OffsetList) :
    l.canonical.windows.map offsetAt = l.windows.map offsetAt := by
  rw [canonical, Array.map_map]
  exact congrArg (l.windows.map ·) (funext offsetAt_filter)

/-- The list itself comes back if no distance is zero. -/
theorem canonical_eq_iff : l.canonical = l ↔ ∀ w : Nat, l.windows[w]? ≠ some (some 0) := by
  constructor
  · intro same w zero
    have entry : l.canonical.windows[w]? = some none := by
      rw [canonical, Array.getElem?_map, zero]
      rfl
    rw [same, zero] at entry
    cases entry
  · intro nonzero
    have windows : (l.windows.map fun w => w.filter (· != 0)) = l.windows := by
      refine Array.ext_getElem? fun w => ?_
      rw [Array.getElem?_map]
      rcases found : l.windows[w]? with _ | _ | o
      · rfl
      · rfl
      · have other : o ≠ 0 := by
          rintro rfl
          exact nonzero w found
        rw [Option.map_some, Option.filter_some, if_pos (bne_iff_ne.2 other)]
    rw [canonical, windows]

/-- The list has a translation for the addresses whose window it has. -/
theorem translate_isSome_iff {addr : Nat} : (l.translate addr).isSome = true ↔ l.window addr < l.size := by
  rw [translate, Option.isSome_map]
  by_cases inside : l.window addr < l.size
  · rw [Array.getElem?_eq_getElem inside]
    exact iff_of_true rfl inside
  · rw [Array.getElem?_eq_none (Nat.le_of_not_lt inside)]
    exact iff_of_false Bool.false_ne_true inside

/-! ## Lists that are made -/

section Made

variable {m : Mapping} {mappings : List Mapping} {window hostBegin stop count addr : Nat}
  {offset : Int64}

theorem Shaped.claim (h : l.Shaped mask shift) (ran : l.claim window hostBegin offset = .ok u) :
    u.Shaped mask shift := by
  unfold OffsetList.claim at ran
  split at ran
  · split at ran
    · cases ran
      exact h
    · cases ran
  · cases ran
    exact ⟨Array.size_setIfInBounds.trans h.size, h.mask, h.shift⟩

theorem Shaped.claimFrom (h : l.Shaped mask shift)
    (ran : l.claimFrom hostBegin stop offset count addr = .ok u) : u.Shaped mask shift := by
  induction count generalizing l addr with
  | zero =>
      cases ran
      exact h
  | succ count ih =>
      rw [OffsetList.claimFrom] at ran
      rcases claimed : l.claim (l.window addr) hostBegin offset with e | v
      · rw [claimed] at ran
        cases ran
      · rw [claimed] at ran
        change (if stop ≤ v.nextWindow addr then _ else _) = _ at ran
        split at ran
        · cases ran
          exact h.claim claimed
        · exact ih (h.claim claimed) ran

/-- A list of mappings has the windows that its mask and shift select. -/
theorem shaped_ofMappings (ran : ofMappings mask shift mappings = .ok l) : l.Shaped mask shift := by
  have run (rest : List Mapping) {v : OffsetList} (h : v.Shaped mask shift)
      (ran : rest.foldlM add v = .ok l) : l.Shaped mask shift := by
    induction rest generalizing v with
    | nil =>
        cases ran
        exact h
    | cons m rest ih =>
        rw [List.foldlM_cons] at ran
        rcases added : v.add m with e | v'
        · rw [added] at ran
          cases ran
        · rw [added] at ran
          exact ih (h.claimFrom added) ran
  exact run mappings shaped_empty ran

end Made

end OffsetList

namespace KernelM

open OffsetList

variable {m : DeviceMemory} {l : OffsetList} {bytes : List UInt8} {list addr : Nat}

/-- A kernel that looks an address up in a stored list finds what the list says, and does nothing else. -/
theorem run_translateOffset (hm : m.WellFormed) (accepted : decode bytes = .ok l)
    (stored : m.read list bytes.length = .ok bytes) :
    (translateOffset list addr).run.run m =
      ⟨match l.translate addr with
        | some target => .ok target
        | none => .error (.outsideWindows addr), m, []⟩ := by
  have few := size_of_decode accepted
  rw [← encode_of_decode accepted] at stored
  have word (i w : Nat) (hw : l.words[i]? = some w) : w < Word.modulus :=
    words_lt few w (List.mem_of_getElem? hw)
  have mask : l.words[0]? = some l.mask.toNat := rfl
  have shift : l.words[1]? = some l.shift.toNat := rfl
  have size : l.words[2]? = some l.size := rfl
  rw [translateOffset, run_readStored hm stored mask (word 0 _ mask) (rfl : list = list + 0 * 8),
    run_readStored hm stored shift (word 1 _ shift) (rfl : list + Word.bytes = list + 1 * 8),
    run_readStored hm stored size few (rfl : list + 2 * Word.bytes = list + 2 * 8)]
  have window : windowOf l.mask.toNat l.shift.toNat addr = l.window addr := rfl
  dsimp only
  rw [if_neg (Nat.not_le.2 l.shift.toNat_lt), window]
  by_cases inside : l.window addr < l.size
  · have entry : l.windows[l.window addr]? = some l.windows[l.window addr] :=
      Array.getElem?_eq_getElem inside
    have offset := getElem?_words entry
    have place : list + headerWords * Word.bytes + l.window addr * Word.bytes =
        list + (l.window addr + 3) * 8 := by
      rw [headerWords, Word.bytes]
      omega
    rw [if_neg (Nat.not_le.2 inside), OffsetList.translate, entry, Option.map_some,
      ← Word.add_toNat addr (offsetAt _).toUInt64]
    exact run_readStored hm stored offset (word _ _ offset) place
  · have lacking : l.windows[l.window addr]? = none := Array.getElem?_eq_none (Nat.le_of_not_lt inside)
    rw [if_pos (Nat.le_of_not_lt inside), OffsetList.translate, lacking]
    rfl

end KernelM

namespace OffsetList

/-- Bytes can be read as a list exactly if they are words, three of them lead, the third one is the number
of those that follow, and the second one fits into 32 bits; storing the list gives the same bytes. A list
that was made with fewer windows than there are words, without mappings or for some, comes back with its
mask, its shift and its distances, and is the same list exactly if no window has the distance zero. Where
bytes that can be read as a list are stored on a device, a kernel gets an address for those addresses
whose window the list has, the one that the list gives, and fails for all others. -/
theorem stored_lists_agree :
    (∀ bytes, (∃ l, decode bytes = .ok l) ↔
      bytes.length % 8 = 0 ∧ 24 ≤ bytes.length ∧
        Word.ofBytes ((bytes.drop 16).take 8) = bytes.length / 8 - 3 ∧
        Word.ofBytes ((bytes.drop 8).take 8) < Word.narrowModulus) ∧
    (∀ bytes l, decode bytes = .ok l → l.encode = bytes) ∧
    (∀ mask shift mappings l, windowCount mask.toNat shift.toNat < Word.modulus →
      l = empty mask shift ∨ ofMappings mask shift mappings = .ok l →
        ∃ l', decode l.encode = .ok l' ∧ l'.mask = l.mask ∧ l'.shift = l.shift ∧
          l'.windows.map offsetAt = l.windows.map offsetAt ∧
          (l' = l ↔ ∀ w : Nat, l.windows[w]? ≠ some (some 0))) ∧
    ∀ bytes l (m : DeviceMemory) list addr, decode bytes = .ok l → m.WellFormed →
      m.read list bytes.length = .ok bytes →
        ((∃ target, ((KernelM.translateOffset list addr).run.run m).value = .ok target) ↔
          l.window addr < l.size) ∧
        (∀ target, ((KernelM.translateOffset list addr).run.run m).value = .ok target →
          l.translate addr = some target) ∧
        (l.translate addr = none ↔
          ((KernelM.translateOffset list addr).run.run m).value = .error (.outsideWindows addr)) := by
  refine ⟨fun bytes => decode_isOk_iff, fun bytes l => encode_of_decode,
    fun mask shift mappings l few made => ?_, fun bytes l m list addr accepted hm stored => ?_⟩
  · have shaped : l.Shaped mask shift := by
      rcases made with rfl | ran
      · exact shaped_empty
      · exact shaped_ofMappings ran
    have size : l.size < Word.modulus := shaped.size ▸ few
    exact ⟨l.canonical, decode_encode size, rfl, rfl, offsets_canonical l, canonical_eq_iff⟩
  · rw [KernelM.run_translateOffset hm accepted stored, ← translate_isSome_iff]
    cases l.translate addr with
    | none => simp
    | some target => simp

/-- Two windows, although the mask selects eight. -/
def shortList : OffsetList := ⟨0x70, 4, #[none, some 0x100]⟩

/-- A memory with one block, in which the list is stored. -/
def shortListMemory : DeviceMemory :=
  { next := 0x1100, capacity := 64, used := 40
    blocks := (∅ : AddressMap Block).insert ⟨0x1000, shortList.encode⟩ }

/-- A kernel translates an address in the second window, and fails in the third one. -/
theorem stored_lists_agree_shortList :
    decode shortList.encode = .ok shortList ∧ shortListMemory.WellFormed ∧
      shortListMemory.read 0x1000 40 = .ok shortList.encode ∧
      (∃ target, ((KernelM.translateOffset 0x1000 0x14).run.run shortListMemory).value = .ok target) ∧
      ((KernelM.translateOffset 0x1000 0x24).run.run shortListMemory).value =
        .error (.outsideWindows 0x24) := by
  have accepted : decode shortList.encode = .ok shortList := by cbv
  have wellFormed : shortListMemory.WellFormed := by
    have only (b : Block) (hb : b ∈ shortListMemory.blocks) : b = ⟨0x1000, shortList.encode⟩ := by
      rcases AddressMap.mem_insert.1 hb with same | ⟨none, -⟩
      · exact same
      · exact absurd none AddressMap.not_mem_empty
    refine ⟨fun b hb => ?_, fun b hb c hc lt => ?_, fun b hb => ?_⟩
    · rw [only b hb]
      decide
    · rw [only b hb, only c hc] at lt
      exact absurd lt (Nat.lt_irrefl _)
    · rw [only b hb]
      decide
  have stored : shortListMemory.read 0x1000 40 = .ok shortList.encode := by cbv
  obtain ⟨-, -, -, kernels⟩ := stored_lists_agree
  exact ⟨accepted, wellFormed, stored,
    (kernels _ _ _ _ 0x14 accepted wellFormed stored).1.2 (by decide),
    (kernels _ _ _ _ 0x24 accepted wellFormed stored).2.2.1 (by decide)⟩

end OffsetList

end Offloading
