import Offloading.Device.Upload
import Offloading.Proofs.Distances
import Offloading.Proofs.FreshBlocks
import Offloading.Proofs.Ownership
import Offloading.Proofs.Reachable
import Offloading.Proofs.StoredAddressTables
/-!
# Address tables

A kernel that looks an address up in an uploaded address table gets what the mapping of the address
would give, and nothing if there is no such mapping. The table is sorted before it is stored, so that
halving keeps the one section that may hold the address; storing the table and reading it back in two
accesses changes nothing.
-/

namespace Offloading

namespace Segment

variable {s : Segment} {m : Mapping} {addr : Nat}

theorem translate_ofMapping : ((ofMapping m).translate (.ofNat addr)).toNat = m.translate addr :=
  Mapping.add_bias

end Segment

namespace AddressTable

variable {segments : Array Segment} {s : Segment} {t : AddressTable} {addr : UInt64}
  {low high i j a : Nat} {mappings : List Mapping}

/-! ## Searching -/

/-- No section is empty, and each one ends before the next one begins. -/
structure Ascending (segments : Array Segment) : Prop where
  nonempty : ∀ {i : Nat} {s : Segment}, segments[i]? = some s → s.hostBegin < s.hostEnd
  apart : ∀ {i j : Nat} {s s' : Segment}, i < j → segments[i]? = some s → segments[j]? = some s' →
    s.hostEnd ≤ s'.hostBegin

theorem contains_of_search (h : search segments addr low high = some s) :
    s ∈ segments.toList ∧ s.contains addr = true := by
  fun_induction search segments addr low high with
  | case1 => cases h
  | case2 low high some middle s' found before ih => exact ih h
  | case3 low high some middle s' found before after ih => exact ih h
  | case4 low high some middle s' found before after =>
      cases h
      refine ⟨Array.mem_toList_iff.2 (Array.mem_of_getElem? found), ?_⟩
      rw [Segment.contains, Bool.and_eq_true, decide_eq_true_iff, decide_eq_true_iff]
      exact ⟨UInt64.not_lt.1 before, UInt64.not_le.1 after⟩
  | case5 => cases h

/-- The section that holds the address is never among those that are left out. -/
theorem search_eq (asc : Ascending segments) (found : segments[i]? = some s)
    (inside : s.contains addr = true) (lower : low ≤ i) (upper : i < high)
    (bound : high ≤ segments.size) : search segments addr low high = some s := by
  rw [Segment.contains, Bool.and_eq_true, decide_eq_true_iff, decide_eq_true_iff] at inside
  fun_induction search segments addr low high with
  | case1 low high more middle missing =>
      rw [Array.getElem?_eq_none_iff] at missing
      omega
  | case2 low high more middle s' here before ih =>
      refine ih lower ?_ (by omega)
      refine Nat.lt_of_not_le fun past => ?_
      rcases Nat.eq_or_lt_of_le past with rfl | past
      · rw [here, Option.some.injEq] at found
        subst found
        exact UInt64.not_lt.2 inside.1 before
      · have order := asc.apart past here found
        have := asc.nonempty here
        grind
  | case3 low high more middle s' here before after ih =>
      refine ih ?_ upper bound
      refine Nat.lt_of_not_le fun past => ?_
      rcases Nat.eq_or_lt_of_le past with rfl | past
      · rw [here, Option.some.injEq] at found
        subst found
        exact UInt64.not_le.2 inside.2 after
      · have order := asc.apart past found here
        have := asc.nonempty here
        grind
  | case4 low high more middle s' here before after =>
      rcases Nat.lt_trichotomy i middle with past | rfl | past
      · have order := asc.apart past found here
        grind
      · exact here.symm.trans found
      · have order := asc.apart past here found
        grind
  | case5 low high none => omega

theorem le_hostBegin (asc : Ascending segments) (found : segments[i]? = some s) :
    i ≤ s.hostBegin.toNat := by
  induction i generalizing s with
  | zero => exact Nat.zero_le _
  | succ i ih =>
      obtain ⟨inside, -⟩ := Array.getElem?_eq_some_iff.1 found
      have before : segments[i]? = some segments[i] := Array.getElem?_eq_getElem (by omega)
      have some : segments[i].hostBegin.toNat < segments[i].hostEnd.toNat := asc.nonempty before
      have apart : segments[i].hostEnd.toNat ≤ s.hostBegin.toNat :=
        asc.apart (Nat.lt_succ_self i) before found
      have := ih before
      omega

/-- There are not more sections than the address space has room for. -/
theorem size_lt (asc : Ascending segments) : segments.size < Word.modulus := by
  rcases Nat.eq_zero_or_pos segments.size with none | some
  · rw [none]
    decide
  · have inside : segments.size - 1 < segments.size := Nat.sub_one_lt_of_lt some
    have last := Array.getElem?_eq_getElem inside
    have lower := le_hostBegin asc last
    have upper : segments[segments.size - 1].hostBegin.toNat <
        segments[segments.size - 1].hostEnd.toNat := asc.nonempty last
    calc
      segments.size ≤ segments[segments.size - 1].hostEnd.toNat := by omega
      _ < Word.modulus := UInt64.toNat_lt _

/-! ## Tables of mappings -/

/-- Sections in the address space that are not empty and do not meet. -/
structure Separate (mappings : List Mapping) : Prop where
  nonempty : ∀ m ∈ mappings, m.hostBegin < m.hostEnd
  bounded : ∀ m ∈ mappings, m.hostEnd ≤ Word.greatest
  apart : mappings.Pairwise fun m n => m.hostEnd ≤ n.hostBegin ∨ n.hostEnd ≤ m.hostBegin

theorem mem_ofMappings : s ∈ (ofMappings mappings).segments.toList ↔
    ∃ m ∈ mappings, Segment.ofMapping m = s := by
  rw [ofMappings, List.toList_toArray, List.mem_mergeSort, List.mem_map]

theorem Separate.ofMapping (h : Separate mappings) {m : Mapping} (hm : m ∈ mappings) :
    (Segment.ofMapping m).hostBegin.toNat = m.hostBegin ∧
      (Segment.ofMapping m).hostEnd.toNat = m.hostEnd := by
  have some := h.nonempty m hm
  have bound : m.hostEnd < Word.modulus := Nat.lt_of_le_of_lt (h.bounded m hm) (by decide)
  exact ⟨UInt64.toNat_ofNat_of_lt' (Nat.lt_trans some bound), UInt64.toNat_ofNat_of_lt' bound⟩

theorem Separate.nonempty_segment (h : Separate mappings)
    (hs : s ∈ (ofMappings mappings).segments.toList) : s.hostBegin < s.hostEnd := by
  obtain ⟨m, hm, rfl⟩ := mem_ofMappings.1 hs
  rw [UInt64.lt_iff_toNat_lt, (h.ofMapping hm).1, (h.ofMapping hm).2]
  exact h.nonempty m hm

/-- Sorting by where sections begin also sorts them by where they end. -/
theorem Separate.ascending (h : Separate mappings) : Ascending (ofMappings mappings).segments := by
  have apart : (mappings.map Segment.ofMapping).Pairwise fun s s' =>
      s.hostEnd ≤ s'.hostBegin ∨ s'.hostEnd ≤ s.hostBegin := by
    rw [List.pairwise_map]
    refine h.apart.imp_of_mem fun {m n} hm hn either => ?_
    rw [UInt64.le_iff_toNat_le, UInt64.le_iff_toNat_le, (h.ofMapping hm).1, (h.ofMapping hm).2,
      (h.ofMapping hn).1, (h.ofMapping hn).2]
    exact either
  have sorted : (ofMappings mappings).segments.toList.Pairwise fun s s' =>
      s.hostBegin ≤ s'.hostBegin := by
    refine (List.pairwise_mergeSort ?_ ?_ _).imp fun {s s'} le => of_decide_eq_true le
    · intro a b c ab bc
      exact decide_eq_true (UInt64.le_trans (of_decide_eq_true ab) (of_decide_eq_true bc))
    · intro a b
      rw [Bool.or_eq_true, decide_eq_true_iff, decide_eq_true_iff]
      exact UInt64.le_total _ _
  have either : (ofMappings mappings).segments.toList.Pairwise fun s s' =>
      s.hostEnd ≤ s'.hostBegin ∨ s'.hostEnd ≤ s.hostBegin :=
    (List.mergeSort_perm _ _).symm.pairwise apart fun either => either.symm
  have ordered : (ofMappings mappings).segments.toList.Pairwise fun s s' =>
      s.hostEnd ≤ s'.hostBegin := by
    refine (sorted.and either).imp_of_mem fun {s s'} hs hs' both => ?_
    have some := h.nonempty_segment hs'
    obtain ⟨order, before | after⟩ := both
    · exact before
    · grind
  refine ⟨fun {i s} found => ?_, fun {i j s s'} lt found found' => ?_⟩
  · exact h.nonempty_segment (Array.mem_toList_iff.2 (Array.mem_of_getElem? found))
  · rw [List.pairwise_iff_getElem] at ordered
    obtain ⟨inside, rfl⟩ := Array.getElem?_eq_some_iff.1 found
    obtain ⟨inside', rfl⟩ := Array.getElem?_eq_some_iff.1 found'
    exact ordered i j inside inside' lt

/-- A table translates the addresses that its mappings contain. -/
theorem Separate.translate_eq_some_iff (h : Separate mappings) {addr target : Nat}
    (bound : addr < Word.modulus) : (ofMappings mappings).translate addr = some target ↔
      ∃ m ∈ mappings, m.contains addr = true ∧ target = m.translate addr := by
  have inside : ∀ m ∈ mappings,
      ((Segment.ofMapping m).contains (.ofNat addr) = true ↔ m.contains addr = true) := by
    intro m hm
    rw [Segment.contains, Bool.and_eq_true, decide_eq_true_iff, decide_eq_true_iff,
      UInt64.le_iff_toNat_le, UInt64.lt_iff_toNat_lt, (h.ofMapping hm).1, (h.ofMapping hm).2,
      UInt64.toNat_ofNat_of_lt' bound, Mapping.contains_iff]
  rw [translate, Option.map_eq_some_iff]
  constructor
  · rintro ⟨s, found, rfl⟩
    obtain ⟨hs, here⟩ := contains_of_search found
    obtain ⟨m, hm, rfl⟩ := mem_ofMappings.1 hs
    exact ⟨m, hm, (inside m hm).1 here, Segment.translate_ofMapping⟩
  · rintro ⟨m, hm, here, rfl⟩
    obtain ⟨i, found⟩ := List.mem_iff_getElem?.1 (mem_ofMappings.2 ⟨m, hm, rfl⟩)
    rw [Array.getElem?_toList] at found
    obtain ⟨upper, -⟩ := Array.getElem?_eq_some_iff.1 found
    exact ⟨_, search_eq h.ascending found ((inside m hm).2 here) (Nat.zero_le _) upper (Nat.le_refl _),
      Segment.translate_ofMapping⟩

/-- The search finds what a scan of the mappings finds. -/
theorem Separate.translate_eq_find? (h : Separate mappings) {addr : Nat}
    (bound : addr < Word.modulus) : (ofMappings mappings).translate addr =
      (mappings.find? (·.contains addr)).map (·.translate addr) := by
  cases found : mappings.find? (·.contains addr) with
  | none =>
      rw [Option.map_none, Option.eq_none_iff_forall_ne_some]
      intro target hit
      obtain ⟨m, hm, inside, -⟩ := (h.translate_eq_some_iff bound).1 hit
      exact List.find?_eq_none.1 found m hm inside
  | some m =>
      have inside := List.find?_some (p := fun n : Mapping => n.contains addr) found
      exact (h.translate_eq_some_iff bound).2 ⟨m, List.mem_of_find?_eq_some found, inside, rfl⟩

end AddressTable

/-! ## Uploaded tables -/

namespace DeviceMemory

variable {m : DeviceMemory} {b : Block} {size : Nat}

/-- The first bytes of a block. -/
theorem WellFormed.read_block (h : m.WellFormed) (hb : b ∈ m.blocks) (some : 0 < size)
    (fits : size ≤ b.bytes.length) : m.read b.start size = .ok (b.bytes.take size) := by
  rw [read, if_neg (by omega), h.locate_eq hb (Nat.le_refl _) (by omega) some]
  simp [Except.map]

end DeviceMemory

namespace KernelM

variable {m : DeviceMemory}

/-- A kernel that finds a stored table looks the address up in it, and does nothing else. -/
theorem run_translate (addr : Nat) (hm : m.WellFormed) {t : AddressTable} (few : t.size < Word.modulus)
    {table : Nat} (hb : ⟨table, t.encode⟩ ∈ m.blocks) :
    (translate table addr).run.run m =
      ⟨match t.translate addr with
        | some target => .ok target
        | none => .error (.untranslated addr), m, []⟩ := by
  have length := t.length_encode
  have records : 0 < AddressTable.recordBytes := by decide
  have enough : AddressTable.recordBytes ≤ t.encode.length := by
    rw [length]
    exact Nat.le_mul_of_pos_left _ (Nat.succ_pos _)
  have header := hm.read_block hb records enough
  have whole := hm.read_block hb (Nat.lt_of_lt_of_le records enough) (Nat.le_refl _)
  rw [List.take_length, length] at whole
  obtain ⟨rest, first⟩ := AddressTable.ofStored_take few
  rw [translate, run_bind (run_readBytes_ok header), first]
  dsimp only
  rw [run_bind (run_readBytes_ok whole), AddressTable.decode_encode few]
  dsimp only
  cases t.translate addr with
  | none => rfl
  | some target => rfl

end KernelM

namespace MappingTable

variable {t : MappingTable} {addr target : Nat}

/-- The mappings of a table lie apart, in whatever order they are listed. -/
theorem WellFormed.separate (h : t.WellFormed) (space : ∀ m ∈ t, m.hostEnd ≤ Word.greatest) :
    AddressTable.Separate t.toList where
  nonempty := h.nonempty
  bounded := space
  apart := by
    refine t.entries.descending.imp_of_mem fun {m n} hm hn below => .inr ?_
    refine h.apart n hn m hm below ?_
    exact Nat.lt_of_lt_of_le (h.nonempty m hm) (space m hm)

theorem WellFormed.containing?_eq_some_iff (h : t.WellFormed)
    (space : ∀ m ∈ t, m.hostEnd ≤ Word.greatest) :
    (t.containing? addr).map (·.translate addr) = some target ↔
      ∃ m ∈ t, m.contains addr = true ∧ target = m.translate addr := by
  rw [Option.map_eq_some_iff]
  constructor
  · rintro ⟨m, found, rfl⟩
    obtain ⟨hm, inside⟩ := containing?_mem found
    exact ⟨m, hm, inside, rfl⟩
  · rintro ⟨m, hm, inside, rfl⟩
    have below := (Mapping.contains_iff.1 inside).2
    exact ⟨m, h.containing?_eq hm inside (Nat.lt_of_lt_of_le below (space m hm)), rfl⟩

end MappingTable

namespace Device

variable {l l' : Link} {t : AddressTable} {up : UploadedTable}

theorem furnished_uploadAddressTable (wf : l.accelerator.WellFormed)
    (h : Returns (uploadAddressTable t) l up l') :
    up.segments = t.size ∧ l.Furnished [⟨up.target, t.encode⟩] l' := by
  obtain ⟨target, l₁, sent, done⟩ := returns_bind.1 h
  obtain ⟨rfl, rfl⟩ := returns_pure.1 done
  refine ⟨rfl, furnished_upload wf ?_ sent⟩
  rw [← List.length_pos_iff, AddressTable.length_encode]
  exact Nat.mul_pos (Nat.succ_pos _) (by decide)

/-- What was uploaded is found in memory. -/
theorem returns_uploadAddressTable (sound : l.Sound) (h : Returns (uploadAddressTable t) l up l') :
    ∃ m, l'.memory? = some m ∧ m.WellFormed ∧ ⟨up.target, t.encode⟩ ∈ m.blocks := by
  rcases (furnished_uploadAddressTable sound.accelerator h).2.memory with
    ⟨none, -⟩ | ⟨_, m, -, after, furnished⟩
  · cases none
  · exact ⟨m, after, furnished.wellFormed, (furnished.new _ List.mem_cons_self).1⟩

end Device

/-! ## Translation on the device -/

namespace Link

/-- A state of a device that programs bring about: between two calls, or while mappings and blocks
are worked on. -/
inductive Attained : Link → Prop where
  | platform {pl : Platform} {dev : Nat} {l : Link} (h : pl.Reachable) (hl : pl.link? dev = some l) :
    Attained l
  | perform {u : Tenancy} (h : Attained u.link) (c : DeviceCall) : Attained (u.perform c).link

theorem Attained.sound {l : Link} (h : l.Attained) : l.Sound := by
  generalize whole : l = k at h
  induction h generalizing l with
  | platform h hl => exact h.sound.link hl
  | perform h c ih => exact Tenancy.sound_perform (ih rfl)

/-- A kernel that looks an address up in the uploaded table of a device gets what the mapping of the
address gives, and so does a look-up in the table itself. -/
theorem Attained.translate_exact {l l' : Link} (state : l.Attained)
    (space : ∀ m ∈ l.device.mappings, m.hostEnd ≤ Word.greatest) {up : UploadedTable}
    (uploaded : Returns (Device.uploadAddressTable l.device.addressTable) l up l')
    {before now : DeviceMemory} (memory : l'.memory? = some before) (wf : now.WellFormed)
    (untouched : now.blocks.get? up.target = before.blocks.get? up.target)
    {addr : Nat} (bound : addr < Word.modulus) :
    (∀ target, ((KernelM.translate up.target addr).run.run now).value = .ok target ↔
        ∃ m ∈ l.device.mappings, m.contains addr = true ∧ target = m.translate addr) ∧
      l.device.addressTable.translate addr =
        (l.device.mappings.containing? addr).map (·.translate addr) ∧
      ∀ mappings, AddressTable.Separate mappings → (AddressTable.ofMappings mappings).translate addr =
        (mappings.find? (·.contains addr)).map (·.translate addr) := by
  have separate := state.sound.mappings.separate space
  have served : ∀ target, l.device.addressTable.translate addr = some target ↔
      ∃ m ∈ l.device.mappings, m.contains addr = true ∧ target = m.translate addr :=
    fun target => separate.translate_eq_some_iff bound
  obtain ⟨m, found, -, block⟩ := Device.returns_uploadAddressTable state.sound uploaded
  rw [found, Option.some.injEq] at memory
  subst memory
  have here := untouched.trans (AddressMap.get?_eq_some_iff.2 ⟨block, rfl⟩)
  have ran := KernelM.run_translate addr wf (t := l.device.addressTable)
    (AddressTable.size_lt separate.ascending) (AddressMap.get?_eq_some_iff.1 here).1
  refine ⟨fun target' => ?_, ?_, fun mappings apart => apart.translate_eq_find? bound⟩
  · rw [ran, ← served]
    cases l.device.addressTable.translate addr with
    | none => simp
    | some found => simp
  · refine Option.ext fun target' => ?_
    rw [served, state.sound.mappings.containing?_eq_some_iff space]

/-- The device of `oneDevice` with two sections that meet end to end. -/
def twoSections : Link :=
  ((Tenancy.mk ⟨{ id := 0, unit := 0 }, .ofDevices 1 1024⟩ []).perform (.associate 64 4096 16)).perform
    (.associate 80 8192 16) |>.link

theorem attained_twoSections : twoSections.Attained := by
  have first : Platform.oneDevice.link? 0 = some ⟨{ id := 0, unit := 0 }, .ofDevices 1 1024⟩ := rfl
  have idle : Attained ⟨{ id := 0, unit := 0 }, .ofDevices 1 1024⟩ :=
    .platform (.fresh Platform.fresh_oneDevice) first
  exact .perform (.perform (u := ⟨_, []⟩) idle (.associate 64 4096 16)) (.associate 80 8192 16)

theorem addressTable_twoSections :
    twoSections.device.addressTable = ⟨#[⟨64, 80, 4096, 4032⟩, ⟨80, 96, 8192, 8112⟩]⟩ := by
  have listed : twoSections.device.mappings.toList =
      [⟨80, 80, 96, 8192, .infinite⟩, ⟨64, 64, 80, 4096, .infinite⟩] := rfl
  rw [Device.addressTable, listed, AddressTable.ofMappings]
  simp [List.mergeSort, Segment.ofMapping]

/-- Where one section ends and the next begins, the kernel takes the next. -/
theorem translate_boundary : twoSections.Attained ∧
    (∀ m ∈ twoSections.device.mappings, m.hostEnd ≤ Word.greatest) ∧
    ∃ l' up m, Returns (Device.uploadAddressTable twoSections.device.addressTable) twoSections up l' ∧
      l'.memory? = some m ∧ m.WellFormed ∧
      ((KernelM.translate up.target 80).run.run m).value = .ok 8192 := by
  have space : ∀ m ∈ twoSections.device.mappings, m.hostEnd ≤ Word.greatest := by
    show ∀ m ∈ twoSections.device.mappings.entries.items, _
    decide
  have uploaded : ∃ up l', Returns (Device.uploadAddressTable twoSections.device.addressTable)
      twoSections up l' := by
    rw [addressTable_twoSections]
    exact ⟨_, _, returns_of_ok (by cbv)⟩
  obtain ⟨up, l', uploaded⟩ := uploaded
  obtain ⟨m, memory, wf, -⟩ := Device.returns_uploadAddressTable attained_twoSections.sound uploaded
  have served := attained_twoSections.translate_exact space uploaded memory wf rfl
    (show 80 < Word.modulus by decide)
  refine ⟨attained_twoSections, space, l', up, m, uploaded, memory, wf, (served.1 8192).2 ?_⟩
  exact ⟨⟨80, 80, 96, 8192, .infinite⟩, List.mem_cons_self, by decide, by decide⟩

end Link

end Offloading
