import Offloading.Proofs.DeviceHistory
/-!
# Requests to map a section

A request finds a mapping, is refused by one, or allocates a block and inserts a new mapping for it. The
insertion comes after the allocation and could fail in general; it never does, since the lookup before
spoke for all mappings. So a request that fails leaves nothing behind, and one that gives an address has
mapped the section there.
-/

namespace Offloading

/-- The whole section lies in the mapping. -/
def Mapping.Covers (m : Mapping) (first size : Nat) : Prop :=
  m.hostBegin ≤ first ∧ first + size ≤ m.hostEnd

instance {m : Mapping} {first size : Nat} : Decidable (m.Covers first size) :=
  inferInstanceAs (Decidable (_ ∧ _))

/-- A mapping translates its first byte to where its copy begins. -/
theorem Mapping.translate_hostBegin {m : Mapping} (host : m.hostBegin < Word.modulus)
    (device : m.deviceBegin < Word.modulus) : m.translate m.hostBegin = m.deviceBegin := by
  have none : Word.sub m.hostBegin m.hostBegin = 0 := by
    rw [Word.sub, Nat.mod_eq_of_lt host, Nat.add_sub_cancel' (Nat.le_of_lt host), Nat.mod_self]
  rw [translate, none]
  exact Nat.mod_eq_of_lt device

namespace MappingTable

variable {t : MappingTable} {m n : Mapping} {first size : Nat}

/-- A section that lies in the mapping it meets meets no other one. -/
theorem Spaced.eq_of_covers (h : t.Spaced) (hm : m ∈ t) (meets : m.Meets first size)
    (covers : m.Covers first size) (hn : n ∈ t) (meets' : n.Meets first size) : m = n := by
  obtain ⟨le, last⟩ := covers
  have spaceM := h.space m hm
  have spaceN := h.space n hn
  have neN := h.nonempty n hn
  rcases (Mapping.meets_iff (h.nonempty m hm)).1 meets with containing | ⟨before, -⟩
  · -- the lowest mapping is the one that contains the first byte, and the next one begins behind it
    have lowest : t.LowestMet first size m :=
      h.lowestMet_containing hm (Mapping.contains_iff.2 containing)
    have first_le := lowest.lowest n hn meets'
    rcases Nat.eq_or_lt_of_le first_le with same | lt
    · exact AddressMap.eq_of_address_eq hm hn same
    · have behind := h.apart m hm n hn lt (by omega)
      rcases (Mapping.meets_iff neN).1 meets' with inside | reached
      · omega
      · omega
  · omega

/-- A section sticks out of the mapping that is found if it does not lie in it. -/
theorem isPartial_lookup (fits : first + size ≤ Word.greatest)
    (h : (t.lookup first size).mapping? = some m) :
    (t.lookup first size).isPartial = true ↔ ¬ m.Covers first size := by
  rw [lookup_eq_of_mapping fits h]
  simp only [Coverage.isPartial, Bool.or_eq_true, decide_eq_true_eq, Mapping.Covers]
  omega

end MappingTable

namespace Device

open DeviceM

variable {l l' : Link} {first base size : Nat} {implicit updateRef : Bool} {m : Mapping}
  {e : DeviceError}

/-- A section that sticks out of the mapping it meets is refused, unless the map is implicit. -/
theorem exec_map_refused (found : (l.device.mappings.lookup first size).mapping? = some m)
    (sticks : (l.device.mappings.lookup first size).isPartial = true) :
    exec (map first base size false updateRef) l =
      (.error (.overlap l.device.id
        (.overlap first (Word.saturatingAdd first size) m.hostBegin m.hostEnd)),
        l.withMappings l.device.mappings.recordOverlap) := by
  rw [map, exec_device_bind]
  dsimp only
  rw [found]
  dsimp only
  rw [sticks]
  rfl

/-- A section that meets no mapping is mapped once its block is allocated. -/
theorem exec_map_new {addr : Nat} {l₁ : Link} (pos : 0 < size)
    (free : (l.device.mappings.lookup first size).mapping? = none)
    (allocated : Returns (allocate size) l addr l₁) :
    exec (map first base size implicit updateRef) l =
      (.ok (some ⟨addr, true⟩),
        l₁.withMappings (l.device.mappings.insert ⟨base, first, first + size, addr, .one⟩).2) := by
  have mappings : l₁.device.mappings = l.device.mappings := by
    obtain ⟨_, _, device⟩ := (along_allocate.returns allocated).device
    rw [device]
  have length : (⟨base, first, first + size, addr, .one⟩ : Mapping).length = size :=
    Nat.add_sub_cancel_left first size
  have inserted : Returns (insertMapping ⟨base, first, first + size, addr, .one⟩) l₁ ()
      (l₁.withMappings (l.device.mappings.insert ⟨base, first, first + size, addr, .one⟩).2) := by
    rw [← mappings]
    apply exec_insertMapping
    · exact Nat.lt_add_of_pos_right pos
    · rw [length, mappings]
      exact free
  rw [map, exec_device_bind]
  dsimp only
  rw [free]
  dsimp only
  rw [if_neg (Nat.ne_of_gt pos), exec_bind_ok allocated, exec_bind_ok inserted]
  rfl

/-- A request fails because a mapping is in its way, or because there is no block to be had. In the first
case a refused overlap is counted, in the second one a call of the accelerator, and nothing else
changes. -/
theorem map_error (spaced : l.device.mappings.Spaced) (fits : first + size ≤ Word.greatest)
    (failed : exec (map first base size implicit updateRef) l = (.error e, l')) :
    (implicit = false ∧ ∃ m, l.device.mappings.LowestMet first size m ∧ ¬ m.Covers first size ∧
      e = .overlap l.device.id (.overlap first (first + size) m.hostBegin m.hostEnd) ∧
      l' = l.withMappings l.device.mappings.recordOverlap) ∨
    ((∀ m ∈ l.device.mappings, ¬ m.Meets first size) ∧
      e = .allocationFailed l.device.id size ∧ exec (allocate size) l = (.error e, l') ∧
      l' = { l with accelerator := l.accelerator.counted .allocate }) := by
  cases found : (l.device.mappings.lookup first size).mapping? with
  | some m =>
      have last : Word.saturatingAdd first size = first + size := Nat.min_eq_left fits
      cases sticks : (l.device.mappings.lookup first size).isPartial && !implicit with
      | true =>
          obtain ⟨out, explicit⟩ := Bool.and_eq_true_iff.1 sticks
          have explicit : implicit = false := by simpa using explicit
          subst explicit
          rw [exec_map_refused found out, last] at failed
          cases failed
          exact .inl ⟨rfl, m, spaced.lowestMet_of_lookup fits found,
            (MappingTable.isPartial_lookup fits found).1 out, rfl, rfl⟩
      | false =>
          rw [map, exec_device_bind] at failed
          dsimp only at failed
          rw [found] at failed
          dsimp only at failed
          rw [sticks] at failed
          cases failed
  | none =>
      have free := spaced.not_meets_of_lookup fits found
      by_cases empty : size = 0
      · rw [map, exec_device_bind] at failed
        dsimp only at failed
        rw [found] at failed
        dsimp only at failed
        rw [if_pos empty] at failed
        cases failed
      · rcases allocated : exec (allocate size) l with ⟨e' | addr, l₁⟩
        · rw [map, exec_device_bind] at failed
          dsimp only at failed
          rw [found] at failed
          dsimp only at failed
          rw [if_neg empty, exec_bind_error allocated] at failed
          cases failed
          obtain ⟨rfl, rfl⟩ := allocate_error_eq allocated
          exact .inr ⟨free, rfl, rfl, rfl⟩
        · rw [exec_map_new (Nat.pos_of_ne_zero empty) found allocated] at failed
          cases failed

/-- A request is refused exactly if it is explicit and its section meets a mapping that it does not lie
in. -/
theorem map_overlap_iff (spaced : l.device.mappings.Spaced) (fits : first + size ≤ Word.greatest) :
    (∃ cause, (exec (map first base size implicit updateRef) l).1 =
      .error (.overlap l.device.id cause)) ↔
    implicit = false ∧ ∃ m ∈ l.device.mappings, m.Meets first size ∧ ¬ m.Covers first size := by
  constructor
  · rintro ⟨cause, failed⟩
    rcases map_error spaced fits (Prod.ext failed rfl) with
      ⟨explicit, m, lowest, sticks, -⟩ | ⟨-, other, -⟩
    · exact ⟨explicit, m, lowest.mem, lowest.meets, sticks⟩
    · cases other
  · rintro ⟨rfl, n, hn, meets, sticks⟩
    cases found : (l.device.mappings.lookup first size).mapping? with
    | none => exact absurd meets (spaced.not_meets_of_lookup fits found n hn)
    | some m =>
        have lowest := spaced.lowestMet_of_lookup fits found
        have sticks' : ¬ m.Covers first size := by
          intro covers
          have := spaced.eq_of_covers lowest.mem lowest.meets covers hn meets
          subst this
          exact sticks covers
        rw [exec_map_refused found ((MappingTable.isPartial_lookup fits found).2 sticks')]
        exact ⟨_, rfl⟩

/-- What a request gives is where the section is found afterwards, if it is an address at all. -/
theorem translate_of_map {mapped : MappedSection} (fits : first + size ≤ Word.greatest)
    (ran : Returns (map first base size implicit updateRef) l (some mapped) l')
    (word : mapped.addr < Word.modulus) :
    l'.device.translate? first size = some mapped.addr := by
  rcases returns_map ran with ⟨m, found, -, same, rfl⟩ | ⟨-, -, none, -⟩ |
    ⟨free, pos, addr, l₁, allocated, same, -⟩
  · cases same
    have again := MappingTable.lookup_setCount found
      (c := if updateRef then m.refCount.increment else m.refCount)
    change (((l.device.mappings.setCount m _).lookup first size).mapping?).map _ = _
    rw [again]
    rfl
  · cases none
  · cases same
    rw [Returns, exec_map_new pos free allocated] at ran
    cases ran
    have length : (⟨base, first, first + size, addr, .one⟩ : Mapping).length = size :=
      Nat.add_sub_cancel_left first size
    have inserted := MappingTable.insert_eq (t := l.device.mappings)
      (m := ⟨base, first, first + size, addr, .one⟩) (Nat.lt_add_of_pos_right pos)
      (by rw [length]; exact free)
    have again : ((l.device.mappings.insert ⟨base, first, first + size, addr, .one⟩).2.lookup first
        size).mapping? = some ⟨base, first, first + size, addr, .one⟩ :=
      MappingTable.lookup_inserted (m := ⟨base, first, first + size, addr, .one⟩)
        (Nat.lt_add_of_pos_right pos) (by rw [inserted])
    change (((l.device.mappings.insert _).2.lookup first size).mapping?).map _ = _
    rw [again]
    have below : first < Word.modulus := by
      rw [Word.greatest] at fits
      omega
    exact congrArg some
      (Mapping.translate_hostBegin (m := ⟨base, first, first + size, addr, .one⟩) below word)

/-- On any device, a request for a section that does not wrap around is atomic. If it fails, then either a
mapping that does not hold the whole section refuses an explicit map, and a refused overlap is counted in
the table, or the allocation fails in the same way as it would have alone. Nothing else changes. It is
refused exactly if it is explicit and meets such a mapping. If it gives an address, then the section is
found there afterwards. -/
theorem map_atomic (reachable : l.Reachable) (fits : first + size ≤ Word.greatest) :
    (∀ e l', exec (map first base size implicit updateRef) l = (.error e, l') →
      (implicit = false ∧ ∃ m, l.device.mappings.LowestMet first size m ∧ ¬ m.Covers first size ∧
        e = .overlap l.device.id (.overlap first (first + size) m.hostBegin m.hostEnd) ∧
        l' = l.withMappings l.device.mappings.recordOverlap) ∨
      ((∀ m ∈ l.device.mappings, ¬ m.Meets first size) ∧
        e = .allocationFailed l.device.id size ∧ exec (allocate size) l = (.error e, l') ∧
        l' = { l with accelerator := l.accelerator.counted .allocate })) ∧
    ((∃ cause, (exec (map first base size implicit updateRef) l).1 =
        .error (.overlap l.device.id cause)) ↔
      implicit = false ∧ ∃ m ∈ l.device.mappings, m.Meets first size ∧ ¬ m.Covers first size) ∧
    ∀ mapped l', Returns (map first base size implicit updateRef) l (some mapped) l' →
      mapped.addr < Word.modulus → l'.device.translate? first size = some mapped.addr :=
  ⟨fun _ _ failed => map_error reachable.spaced fits failed, map_overlap_iff reachable.spaced fits,
    fun _ _ ran word => translate_of_map fits ran word⟩

/-- A device on which one section is mapped. Its next allocation is to fail. -/
def exhausted : Link :=
  (Tenancy.perform ⟨{ Tenancy.unused with
    accelerator := { Tenancy.unused.accelerator with
      schedule := fun call n => call == .allocate && n == 1 } }, []⟩
    (.map 0x1000 0x1000 16 false true)).link

/-- A section that reaches behind the mapped one is refused, one inside of it is found again, and for one
behind it there is no block, although no mapping is in its way. -/
theorem map_atomic_exhausted :
    exhausted.Reachable ∧
      (∃ cause, (exec (map 0x1008 0x1008 16 false true) exhausted).1 = .error (.overlap 0 cause)) ∧
      (exec (map 0x1008 0x1000 8 false true) exhausted).2.device.translate? 0x1008 8 =
        some 0xd00000000008 ∧
      (∀ m ∈ exhausted.device.mappings, ¬ m.Meets 0x1010 16) := by
  have reachable : exhausted.Reachable := by
    refine .called _ (.fresh rfl) ?_
    change 0x1000 + 16 ≤ Word.greatest
    decide
  have table : exhausted.device.mappings.toList = [⟨0x1000, 0x1000, 0x1010, 0xd00000000000, .one⟩] := by
    cbv
  have mem : ⟨0x1000, 0x1000, 0x1010, 0xd00000000000, .one⟩ ∈ exhausted.device.mappings := by
    change _ ∈ exhausted.device.mappings.toList
    rw [table]
    exact List.mem_singleton_self _
  have refused := (@map_atomic exhausted 0x1008 0x1008 16 false true reachable (by decide)).2.1.2
    ⟨rfl, _, mem, .inl (by decide), by decide⟩
  have found := (@map_atomic exhausted 0x1008 0x1000 8 false true reachable (by decide)).2.2
    ⟨0xd00000000008, false⟩ _ (returns_of_ok (by cbv)) (by decide)
  have failed := (@map_atomic exhausted 0x1010 0x1010 16 false true reachable (by decide)).1
    (.allocationFailed 0 16) _ (Prod.ext (by cbv) rfl)
  rcases failed with ⟨-, m, -, -, other, -⟩ | ⟨free, -⟩
  · cases other
  · exact ⟨reachable, refused, found, free⟩

end Device

end Offloading
