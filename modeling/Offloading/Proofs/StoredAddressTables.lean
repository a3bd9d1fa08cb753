import Offloading.AddressTable
import Offloading.Proofs.StoredWords
/-!
# Stored address tables

What can be read as an address table is what some table is stored as, but for three words of the first
record that nobody looks at. Storing the table that was read clears these words and gives all other bytes
again, and a table that is stored and read comes back.
-/

namespace Offloading

namespace Segment

variable {words : List Nat} {s : Segment} {segments : List Segment}

theorem words_lt {w : Nat} (h : w ∈ s.words) : w < Word.modulus := by
  simp only [words, List.mem_cons, List.not_mem_nil, or_false] at h
  rcases h with rfl | rfl | rfl | rfl
  all_goals exact UInt64.toNat_lt _

theorem ofWords_words (rest : List Nat) : ofWords (s.words ++ rest) = s :: ofWords rest := by
  simp only [words, List.cons_append, List.nil_append, ofWords, UInt64.ofNat_toNat]
  rfl

theorem ofWords_flatMap (segments : List Segment) : ofWords (segments.flatMap Segment.words) = segments := by
  induction segments with
  | nil => rfl
  | cons s rest ih => rw [List.flatMap_cons, ofWords_words, ih]

/-- Fewer words than a record has make up no record. -/
private theorem length_lt (short : ∀ a b c d rest, words = a :: b :: c :: d :: rest → False) :
    words.length < 4 := by
  rcases words with _ | ⟨a, _ | ⟨b, _ | ⟨c, _ | ⟨d, rest⟩⟩⟩⟩
  · simp
  · simp
  · simp
  · simp
  · exact absurd rfl (short a b c d rest)

theorem length_ofWords (words : List Nat) : (ofWords words).length = words.length / 4 := by
  fun_induction ofWords words with
  | case1 a b c d rest ih =>
      simp only [List.length_cons, ih]
      omega
  | case2 words short =>
      have := length_lt short
      rw [List.length_nil]
      omega

/-- The records that words make up have these words. -/
theorem flatMap_ofWords (whole : words.length % 4 = 0) (word : ∀ w ∈ words, w < Word.modulus) :
    (ofWords words).flatMap Segment.words = words := by
  fun_induction ofWords words with
  | case1 a b c d rest ih =>
      simp only [List.forall_mem_cons] at word
      obtain ⟨ha, hb, hc, hd, hrest⟩ := word
      simp only [List.length_cons] at whole
      rw [List.flatMap_cons, ih (by omega) hrest, Segment.words, UInt64.toNat_ofNat_of_lt' ha,
        UInt64.toNat_ofNat_of_lt' hb, UInt64.toNat_ofNat_of_lt' hc, UInt64.toUInt64_toInt64,
        UInt64.toNat_ofNat_of_lt' hd]
      rfl
  | case2 words short =>
      have := length_lt short
      exact (List.length_eq_zero_iff.1 (by omega)).symm

/-- A record in memory. -/
def bytes (s : Segment) : List UInt8 := s.words.flatMap Word.toBytes

theorem length_bytes (s : Segment) : s.bytes.length = 32 := Word.length_flatMap_toBytes s.words

theorem take_bytes (s : Segment) (rest : List UInt8) :
    (s.bytes ++ rest).take 8 = Word.toBytes s.hostBegin.toNat := by
  rw [bytes, words, List.flatMap_cons, List.append_assoc]
  exact List.take_left' (Word.length_toBytes _)

end Segment

namespace AddressTable

variable {t : AddressTable} {bytes : List UInt8}

/-! ## Reading -/

/-- The records that are stored in some bytes. -/
def recordsOf (bytes : List UInt8) : List Segment := Segment.ofWords (Word.ofStored bytes)

theorem length_recordsOf (bytes : List UInt8) : (recordsOf bytes).length = bytes.length / 32 := by
  rw [recordsOf, Segment.length_ofWords, Word.length_ofStored, Nat.div_div_eq_div_mul]

/-- Whole records are stored as the bytes that they were read from. -/
theorem flatMap_recordsOf (whole : bytes.length % 32 = 0) :
    (recordsOf bytes).flatMap Segment.bytes = bytes := by
  have words : (recordsOf bytes).flatMap Segment.words = Word.ofStored bytes := by
    refine Segment.flatMap_ofWords ?_ fun w => Word.lt_of_mem_ofStored
    rw [Word.length_ofStored]
    omega
  calc
    (recordsOf bytes).flatMap Segment.bytes
      = ((recordsOf bytes).flatMap Segment.words).flatMap Word.toBytes := List.flatMap_assoc.symm
    _ = (Word.ofStored bytes).flatMap Word.toBytes := by rw [words]
    _ = bytes := Word.flatMap_ofStored (by omega)

/-- What it takes for bytes to be a stored table, and which table it is. -/
theorem decode_eq_ok_iff : decode bytes = .ok t ↔
    bytes.length % 32 = 0 ∧
      ∃ first, recordsOf bytes = first :: t.segments.toList ∧ first.hostBegin.toNat = t.size := by
  have number := length_recordsOf bytes
  rw [decode, show recordBytes = 32 from rfl]
  by_cases malformed : bytes.length < 32 ∨ bytes.length % 32 ≠ 0
  · rw [if_pos malformed]
    constructor
    · intro h
      cases h
    · rintro ⟨whole, first, records, -⟩
      rw [records, List.length_cons] at number
      omega
  · rw [if_neg malformed]
    unfold recordsOf at number ⊢
    cases records : Segment.ofWords (Word.ofStored bytes) with
    | nil =>
        rw [records, List.length_nil] at number
        omega
    | cons first rest =>
        simp only [List.head?_cons, List.drop_succ_cons, List.drop_zero, List.cons.injEq]
        by_cases count : rest.length = first.hostBegin.toNat
        · rw [if_pos count, Except.ok.injEq]
          constructor
          · rintro rfl
            exact ⟨by omega, first, ⟨rfl, rfl⟩, count.symm⟩
          · rintro ⟨-, _, ⟨rfl, rfl⟩, -⟩
            rw [Array.toArray_toList]
        · rw [if_neg count]
          constructor
          · intro h
            cases h
          · rintro ⟨-, _, ⟨rfl, rfl⟩, announced⟩
            exact absurd (announced.trans Array.length_toList.symm).symm count

/-- Bytes are a stored table exactly if they are records, and the first word is the number of those behind
the first one. -/
theorem decode_isOk_iff : (∃ t, decode bytes = .ok t) ↔
    0 < bytes.length ∧ bytes.length % 32 = 0 ∧ Word.ofBytes (bytes.take 8) = bytes.length / 32 - 1 := by
  have number := length_recordsOf bytes
  -- the first word of the bytes is the one of the first record
  have firstWord {first : Segment} {rest : List Segment} (whole : bytes.length % 32 = 0)
      (records : recordsOf bytes = first :: rest) :
      Word.ofBytes (bytes.take 8) = first.hostBegin.toNat := by
    rw [← flatMap_recordsOf whole, records, List.flatMap_cons, Segment.take_bytes]
    exact Word.ofBytes_toBytes (UInt64.toNat_lt _)
  simp only [decode_eq_ok_iff]
  constructor
  · rintro ⟨t, whole, first, records, announced⟩
    rw [records, List.length_cons, Array.length_toList] at number
    refine ⟨by omega, whole, ?_⟩
    rw [firstWord whole records, announced, size]
    omega
  · rintro ⟨some, whole, announced⟩
    cases records : recordsOf bytes with
    | nil =>
        rw [records, List.length_nil] at number
        omega
    | cons first rest =>
        rw [records, List.length_cons] at number
        rw [firstWord whole records] at announced
        refine ⟨⟨rest.toArray⟩, whole, first, rfl, ?_⟩
        rw [announced, size, List.size_toArray]
        omega

/-! ## Storing -/

/-- The record that announces how many follow. -/
def header (t : AddressTable) : Segment := ⟨.ofNat t.size, 0, 0, 0⟩

theorem encode_eq (t : AddressTable) :
    t.encode = (t.header :: t.segments.toList).flatMap Segment.bytes := rfl

theorem length_encode (t : AddressTable) : t.encode.length = (t.size + 1) * recordBytes := by
  rw [encode_eq, Word.length_flatMap Segment.length_bytes, List.length_cons, Array.length_toList]
  rfl

theorem recordsOf_encode (t : AddressTable) : recordsOf t.encode = t.header :: t.segments.toList := by
  have words : t.encode = ((t.header :: t.segments.toList).flatMap Segment.words).flatMap Word.toBytes :=
    List.flatMap_assoc.symm
  rw [recordsOf, words, Word.ofStored_flatMap, Segment.ofWords_flatMap]
  intro w hw
  obtain ⟨s, -, hs⟩ := List.mem_flatMap.1 hw
  exact Segment.words_lt hs

/-- A table comes back unless it has more sections than a word can count. -/
theorem decode_encode_iff : decode t.encode = .ok t ↔ t.size < Word.modulus := by
  rw [decode_eq_ok_iff, recordsOf_encode]
  constructor
  · rintro ⟨-, first, -, announced⟩
    exact announced ▸ UInt64.toNat_lt _
  · intro few
    refine ⟨?_, t.header, rfl, UInt64.toNat_ofNat_of_lt' few⟩
    rw [length_encode]
    exact Nat.mul_mod_left _ _

theorem decode_encode (few : t.size < Word.modulus) : decode t.encode = .ok t := decode_encode_iff.2 few

theorem bytes_header (few : t.size < Word.modulus) :
    t.header.bytes = Word.toBytes t.size ++ List.replicate 24 0 := by
  have words : t.header.words = [t.size, 0, 0, 0] :=
    congrArg (fun w => [w, 0, 0, 0]) (UInt64.toNat_ofNat_of_lt' few)
  have clear : [0, 0, 0].flatMap Word.toBytes = List.replicate 24 0 := by decide
  rw [Segment.bytes, words, List.flatMap_cons, clear]

/-- The number of records is the first word of the first one. -/
theorem ofStored_take (few : t.size < Word.modulus) :
    ∃ rest, Word.ofStored (t.encode.take recordBytes) = t.size :: rest := by
  have first : t.encode.take recordBytes = t.header.bytes := by
    rw [encode_eq, List.flatMap_cons]
    exact List.take_left' t.header.length_bytes
  rw [first, bytes_header few, Word.ofStored_toBytes, Word.ofBytes_toBytes few]
  exact ⟨_, rfl⟩

/-- Storing a table that was read gives the bytes again, up to three words that are cleared. -/
theorem encode_of_decode (h : decode bytes = .ok t) :
    t.encode = bytes.take 8 ++ List.replicate 24 0 ++ bytes.drop 32 := by
  obtain ⟨whole, first, records, announced⟩ := decode_eq_ok_iff.1 h
  have few : t.size < Word.modulus := announced ▸ UInt64.toNat_lt _
  have stored : bytes = first.bytes ++ t.segments.toList.flatMap Segment.bytes := by
    have same := flatMap_recordsOf whole
    rw [records, List.flatMap_cons] at same
    exact same.symm
  rw [encode_eq, List.flatMap_cons, bytes_header few, ← announced, stored, Segment.take_bytes,
    List.drop_left' first.length_bytes]

/-- Each section is stored behind the record that counts them. -/
theorem take_drop_encode {i : Nat} {s : Segment} (h : t.segments[i]? = some s) :
    (t.encode.drop ((i + 1) * 32)).take 32 = s.bytes := by
  have records : (t.header :: t.segments.toList)[i + 1]? = some s := by
    rw [List.getElem?_cons_succ, Array.getElem?_toList, h]
  exact Word.take_drop_flatMap Segment.length_bytes records

/-- A stored table has one record of four words for each section, behind one that counts them. It comes
back when it is read, unless it has more sections than a word can count. Bytes can be read as a table
exactly if they are records, at least one, and their first word is the number of those behind the first
one. Storing what was read gives the same bytes again, except that the three words that follow the first
one are zero. -/
theorem stored_tables_agree :
    (∀ t : AddressTable, t.encode.length = t.byteLength ∧
      (∀ i s, t.segments[i]? = some s →
        (t.encode.drop ((i + 1) * 32)).take 32 =
          Word.toBytes s.hostBegin.toNat ++ Word.toBytes s.hostEnd.toNat ++
            Word.toBytes s.deviceBegin.toNat ++ Word.toBytes s.bias.toUInt64.toNat) ∧
      (decode t.encode = .ok t ↔ t.size < Word.modulus)) ∧
    (∀ bytes, (∃ t, decode bytes = .ok t) ↔
      0 < bytes.length ∧ bytes.length % 32 = 0 ∧
        Word.ofBytes (bytes.take 8) = bytes.length / 32 - 1) ∧
    ∀ bytes t, decode bytes = .ok t →
      t.encode = bytes.take 8 ++ List.replicate 24 0 ++ bytes.drop 32 := by
  refine ⟨fun t => ⟨length_encode t, fun i s h => ?_, decode_encode_iff⟩, fun bytes => decode_isOk_iff,
    fun bytes t => encode_of_decode⟩
  rw [take_drop_encode h, Segment.bytes, Segment.words]
  simp only [List.flatMap_cons, List.flatMap_nil, List.append_nil, List.append_assoc]

/-- A section whose copy lies below it, behind a record with words that nobody looks at. -/
def untidyBytes : List UInt8 :=
  [1, 2, 3, 4].flatMap Word.toBytes ++ [0x9000, 0x9010, 0x1000, Word.modulus - 0x8000].flatMap Word.toBytes

/-- The words that nobody looks at are cleared. -/
theorem stored_tables_agree_untidyBytes :
    decode untidyBytes = .ok ⟨#[⟨0x9000, 0x9010, 0x1000, -0x8000⟩]⟩ ∧
      (⟨#[⟨0x9000, 0x9010, 0x1000, -0x8000⟩]⟩ : AddressTable).encode =
        untidyBytes.take 8 ++ List.replicate 24 0 ++ untidyBytes.drop 32 ∧
      ((⟨#[⟨0x9000, 0x9010, 0x1000, -0x8000⟩]⟩ : AddressTable).encode.drop 32).take 32 =
        untidyBytes.drop 32 := by
  have read : decode untidyBytes = .ok ⟨#[⟨0x9000, 0x9010, 0x1000, -0x8000⟩]⟩ := rfl
  obtain ⟨tables, -, again⟩ := stored_tables_agree
  obtain ⟨-, records, -⟩ := tables ⟨#[⟨0x9000, 0x9010, 0x1000, -0x8000⟩]⟩
  exact ⟨read, again _ _ read, (records 0 _ rfl).trans (by decide)⟩

end AddressTable

end Offloading
