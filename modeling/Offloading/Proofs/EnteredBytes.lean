import Offloading.Proofs.Arrival
import Offloading.Proofs.PlaceBlocks
/-!
# Bytes after entering

What a region leaves in new mappings when it is entered, without asking which strategy sends what first: each
byte of a copy is the host's byte, or that of a pointer that was patched there, or it is zero as in a new
block.
-/

namespace Offloading

/-! ## Placements of regions -/

/-- The placement is one of a region: it has the section of the region, and its pointer if that has one. -/
structure Placement.Of (settings : Settings) (padded : Bool) (r : Argument) (p : Placement) : Prop where
  frame : Region.mappedSection settings padded r = (p.first, p.size)
  pointer : p.pointer?.map (·.hostSlot) = if r.mapType.has .pointerAndObject then some r.base else none

namespace Region

variable {settings : Settings} {padded : Bool} {r : Argument} {s s' : RegionState} {u : Unit}
  {plans : List RegionPlan}

theorem of_place {p : Placement} (h : Returns (place settings padded r) s p s') : p.Of settings padded r := by
  obtain ⟨pointer?, s₁, mapped?, l, content, first, size, base, sec, mapped, -, -, -, rfl⟩ :=
    returns_place.1 h
  refine ⟨sec, ?_⟩
  rcases returns_mapPointer mapped with ⟨none, rfl, -⟩ | ⟨some, slot, l₁, -, rfl, -⟩
  · rw [none]
    rfl
  · rw [some]
    rfl

/-- The regions that are mapped are those that have placements. -/
theorem placementsOf_of_mapPlans {returned b : Option Nat}
    (mapped : ∀ plan ∈ plans, ∀ host r, plan.resolve host = some r → r.isMapped = true)
    (ran : Returns (mapPlans settings padded plans returned) s b s') :
    (∀ p ∈ placementsOf settings padded plans s,
        ∃ plan ∈ plans, ∃ r, plan.resolve s.host = some r ∧ p.Of settings padded r) ∧
      ∀ plan ∈ plans, ∀ r, plan.resolve s.host = some r →
        ∃ p ∈ placementsOf settings padded plans s, p.Of settings padded r := by
  induction plans generalizing s returned with
  | nil => exact ⟨List.forall_mem_nil _, List.forall_mem_nil _⟩
  | cons plan rest ih =>
      obtain ⟨here, others⟩ := List.forall_mem_cons.1 mapped
      rw [mapPlans, returns_get_bind] at ran
      rw [placementsOf]
      cases found : plan.resolve s.host with
      | none =>
          rw [found] at ran
          obtain ⟨sources, reached⟩ := ih others ran
          refine ⟨fun p hp => ?_, List.forall_mem_cons.2 ⟨fun r some => ?_, reached⟩⟩
          · obtain ⟨source, mem, of⟩ := sources p hp
            exact ⟨source, List.mem_cons_of_mem _ mem, of⟩
          · rw [found] at some
            cases some
      | some r =>
          rw [found] at ran
          obtain ⟨base, s₁, first, more⟩ := returns_bind.1 ran
          obtain ⟨p, s₂, placed, -, -⟩ := returns_mapRegion_place first (here _ r found)
          have after : (exec (mapRegion settings padded r) s).2 = s₁ := congrArg Prod.snd first
          have host : s₁.host = s.host := (along_mapRegion.returns first).host
          have one : placement? settings padded r s = some p := by
            rw [placement?, here _ r found, if_pos rfl, placed]
            rfl
          have ends := ih others more
          rw [host] at ends
          obtain ⟨sources, reached⟩ := ends
          dsimp only
          rw [one, after, Option.toList_some, List.singleton_append]
          refine ⟨List.forall_mem_cons.2 ⟨⟨plan, List.mem_cons_self .., r, found, of_place placed⟩,
            fun p hp => ?_⟩, List.forall_mem_cons.2 ⟨fun r' some => ?_, fun plan hp r some => ?_⟩⟩
          · obtain ⟨source, mem, of⟩ := sources p hp
            exact ⟨source, List.mem_cons_of_mem _ mem, of⟩
          · cases found.symm.trans some
            exact ⟨p, List.mem_cons_self .., of_place placed⟩
          · obtain ⟨q, hq, of⟩ := reached plan hp r some
            exact ⟨q, List.mem_cons_of_mem _ hq, of⟩

end Region

/-! ## Placements in new mappings -/

/-- The placements have their sections and pointers in mappings of a table, whose copies do not meet. -/
structure PlacedIn (t : MappingTable) (host : HostMemory) (ps : List Placement) : Prop where
  wellFormed : t.WellFormed
  space : t.InSpace
  unaliased : t.Unaliased
  given : ∀ p ∈ ps, p.Given t host
  sections : ∀ p ∈ ps, 0 < p.size → t.Holds p.first p.size
  slots : ∀ p ∈ ps, ∀ q, p.pointer? = some q → t.Holds q.hostSlot Word.bytes

namespace PlacedIn

variable {settings : Settings} {t : MappingTable} {host : HostMemory} {ps : List Placement}
  {p : Placement} {x r : PointerPatch} {d : Device} {addr target : Nat} {v : UInt8}

variable (h : PlacedIn t host ps) (hp : p ∈ ps)

include h hp

theorem lodges_section (ht : p.target? = some target) : t.Lodges p.first p.size target := by
  obtain ⟨m, hm, gives⟩ := (h.given p hp).target target ht
  exact h.wellFormed.lodges h.space hm gives (h.sections p hp)

theorem lodges_slot {q : Region.MappedPointer} (hq : p.pointer? = some q) :
    t.Lodges q.hostSlot Word.bytes q.deviceSlot := by
  obtain ⟨m, hm, gives⟩ := (h.given p hp).pointer q hq
  exact h.wellFormed.lodges h.space hm gives fun _ => h.slots p hp q hq

/-- A byte that is copied is the host's. -/
theorem mirrors_of_content (ht : p.target? = some target)
    (hv : Chunk.byte? ⟨target, p.content⟩ addr = some v) : t.Mirrors host addr v := by
  obtain ⟨lower, hv⟩ := Chunk.byte?_eq_some_iff.1 hv
  obtain ⟨inside, -⟩ := List.getElem?_eq_some_iff.1 hv
  dsimp only at lower hv inside
  rcases (h.given p hp).content with none | ⟨-, read⟩
  · rw [none, List.length_nil] at inside
    omega
  · rw [read, HostMemory.length_read] at inside
    rw [read, HostMemory.getElem?_read inside, Option.some.injEq] at hv
    have mirrors := (h.lodges_section hp ht).mirrors host inside
    rwa [hv, Nat.add_sub_cancel' lower] at mirrors

/-- A patch that is resolved late has the same slot as at once. -/
theorem lodges_patch (within : ∀ m ∈ t, m ∈ d.mappings) (wf : d.mappings.WellFormed)
    (hx : p.patch? settings = some x) (same : r = x ∨ x.resolved? d = some r) :
    t.Lodges x.hostSlot Word.bytes r.deviceSlot := by
  obtain ⟨q, hq, rfl⟩ := Placement.patch?_eq_some hx
  have slot := h.lodges_slot hp hq
  rcases same with rfl | resolved
  · exact slot
  · obtain ⟨found, there, rfl⟩ := PointerPatch.resolved?_eq_some_iff.1 resolved
    have early : d.translate? q.hostSlot Word.bytes = some q.deviceSlot := slot.translate? h.space within wf
    cases early.symm.trans there
    exact slot

end PlacedIn

/-- Where nothing was mapped before, placements are in the places that were made for them. -/
theorem Link.Occupied.placedIn {l k : Link} {places : List Mapping} {n : Mapping → Nat}
    {host : HostMemory} {ps : List Placement} (h : Occupied places n l k) (fit : Places places l)
    (held : ∀ p ∈ places, 0 < n p) (space : ∀ p ∈ places, p.InSpace)
    (given : ∀ p ∈ ps, p.Given k.device.mappings host)
    (sections : ∀ p ∈ ps, Lodged places l ⟨p.first, p.size⟩)
    (slots : ∀ p ∈ ps, ∀ q, p.pointer? = some q → Lodged places l ⟨q.hostSlot, Word.bytes⟩) :
    PlacedIn (k.device.mappings.among places) host ps where
  wellFormed := h.sound_among.mappings
  space := h.inSpace_among fit space
  unaliased := h.unaliased fit
  given p hp := by
    refine ⟨fun target ht => ?_, fun q hq => ?_, (given p hp).content⟩
    · obtain ⟨m, hm, gives⟩ := (given p hp).target target ht
      exact ⟨m, h.mem_among_of_gives fit (sections p hp).untouched hm gives, gives⟩
    · obtain ⟨m, hm, gives⟩ := (given p hp).pointer q hq
      exact ⟨m, h.mem_among_of_gives fit (slots p hp q hq).untouched hm gives, gives⟩
  sections p hp pos := by
    obtain ⟨place, mem, lower, upper⟩ := (sections p hp).inside pos
    exact h.holds_among fit mem (held place mem) lower upper
  slots p hp q hq := by
    obtain ⟨place, mem, lower, upper⟩ := (slots p hp q hq).inside (show 0 < Word.bytes by decide)
    exact h.holds_among fit mem (held place mem) lower upper

/-- The address belongs to a pointer that is patched. -/
def Placement.Patches (settings : Settings) (ps : List Placement) (addr : Nat) : Prop :=
  ∃ p ∈ ps, ∃ x, p.patch? settings = some x ∧ x.hostSlot ≤ addr ∧ addr < x.hostSlot + Word.bytes

namespace Region

variable {settings : Settings} {s s' : RegionState} {u : Unit} {t : MappingTable} {m : Mapping} {i : Nat}
  {v : UInt8}

/-- All placements are given by the mappings that entering leaves. -/
theorem given_enter (sound : s.activation.link.Sound) (entered : Returns (enter settings) s u s') :
    ∀ p ∈ placements settings s, p.Given s'.activation.link.device.mappings s.host := by
  obtain ⟨s₁, n, mapped, flushed⟩ := returns_enter entered
  rw [((Strategy.along_flush settings.strategy).returns flushed).mappings]
  exact given_mapArguments sound mapped

/-- What a copy holds after entering: each byte is zero or the host's, if it belongs to no patched pointer. -/
theorem byte_enter (sound : s.activation.link.Sound) (idle : s.activation.queue = {})
    (entered : Returns (enter settings) s u s') (placed : PlacedIn t s.host (placements settings s))
    (within : ∀ m ∈ t, m ∈ s'.activation.link.device.mappings) (hm : m ∈ t) (hi : i < m.length)
    (fresh : s.activation.link.byte? (m.deviceBegin + i) = none)
    (hv : s'.activation.link.byte? (m.deviceBegin + i) = some v) :
    v = 0 ∨ v = s.host.byte (m.hostBegin + i) ∨
      Placement.Patches settings (placements settings s) (m.hostBegin + i) := by
  have sound' := ((along_enter settings).returns entered).link.sound sound
  obtain ⟨parcels, arrived, sequence⟩ := arrived_enter sound idle entered
  rw [arrived.bytes] at hv
  cases written : Chunk.written (parcels.map Parcel.chunk) (m.deviceBegin + i) with
  | none =>
      rw [written, Option.none_or, Link.blank, fresh, Option.none_or] at hv
      obtain ⟨_, -, zero⟩ := Option.map_eq_some_iff.1 hv
      exact .inl zero.symm
  | some w =>
      rw [written, Option.some_or, Option.some.injEq] at hv
      subst hv
      obtain ⟨c, hc, shown⟩ := Chunk.shows_of_written written
      obtain ⟨y, hy, rfl⟩ := List.mem_map.1 hc
      have here : t.Mirrors s.host (m.deviceBegin + i) (s.host.byte (m.hostBegin + i)) :=
        ⟨m, hm, i, hi, rfl, rfl⟩
      cases y with
      | copy c =>
          obtain ⟨before, after, split⟩ := List.append_of_mem hy
          obtain ⟨earlier, p, later, target, places, ht, byte, -⟩ :=
            sequence.copies before c after split _ _ shown
          have mem : p ∈ placements settings s := by
            rw [places]
            exact List.mem_append_right _ (List.mem_cons_self ..)
          exact .inr (.inl (placed.unaliased.mirrors (placed.mirrors_of_content mem ht byte) here))
      | patch r =>
          obtain ⟨p, hp, x, hx, same⟩ := sequence.patches r hy
          have slot := placed.lodges_patch hp within sound'.mappings hx same
          obtain ⟨lower, upper⟩ := Chunk.bounds_of_byte? shown
          change r.deviceSlot ≤ _ at lower
          change _ < r.deviceSlot + (Word.toBytes _).length at upper
          rw [Word.length_toBytes] at upper
          change _ < r.deviceSlot + Word.bytes at upper
          refine .inr (.inr ⟨p, hp, x, hx, Classical.byContradiction fun outside => ?_⟩)
          -- the byte would lie in the copy of the slot and in a copy apart from it
          have own : t.Lodges (m.hostBegin + i) 1 (m.deviceBegin + i) := by
            have nonempty := placed.wellFormed.nonempty m hm
            rw [Mapping.length] at hi
            refine ⟨m, hm, Mapping.contains_iff.2 ⟨Nat.le_add_right _ _, by omega⟩, by omega, by omega⟩
          exact own.apart slot placed.unaliased (i := 0) (j := m.deviceBegin + i - r.deviceSlot) (by omega)
            Nat.one_pos (by omega) (by omega)

/-- Without patches, a device holds the copies of sections, if these agree where they overlap, and nothing else
in new blocks. -/
theorem byte_enter_consistent {addr : Nat} (unpatched : ∀ p ∈ placements settings s, p.patch? settings = none)
    (sound : s.activation.link.Sound) (idle : s.activation.queue = {}) (entered : Returns (enter settings) s u s')
    (consistent : Chunk.Consistent
      (Parcel.copies ((placements settings s).flatMap (Placement.parcels settings)))) :
    s'.activation.link.byte? addr =
      (Chunk.written (Parcel.copies ((placements settings s).flatMap (Placement.parcels settings))) addr).or
        (s.activation.link.blank s'.activation.link addr) := by
  have unsent : ∀ x, Parcel.patch x ∉ (placements settings s).flatMap (Placement.parcels settings) := by
    intro x hx
    obtain ⟨p, hp, sent⟩ := List.mem_flatMap.1 hx
    have patched := Placement.mem_parcels_patch sent
    rw [unpatched p hp] at patched
    cases patched
  have none : Parcel.patches ((placements settings s).flatMap (Placement.parcels settings)) = [] :=
    List.eq_nil_iff_forall_not_mem.2 fun x hx => unsent x (Parcel.mem_patches.1 hx)
  have spares : ((placements settings s).flatMap (Placement.parcels settings)).Pairwise Parcel.Spares := by
    refine List.pairwise_of_forall_mem_list fun x hx y _ => ?_
    cases x with
    | copy c => trivial
    | patch x => exact absurd hx (unsent x)
  have settled := settled_enter_orderless sound idle entered ⟨spares, consistent, fun x hx => by
    rw [none] at hx
    cases hx⟩
  rw [settled.bytes, none]
  rfl

section unpatched

variable (placed : PlacedIn t s.host (placements settings s))
  (unpatched : ∀ p ∈ placements settings s, p.patch? settings = none)

include placed unpatched

/-- Without patches, nothing gets in the way of anything else. -/
theorem undisturbed_unpatched : Undisturbed settings t (placements settings s) where
  space := placed.space
  sections := placed.sections
  slots := placed.slots
  pointees p hp some := by
    rw [unpatched p hp] at some
    cases some
  spared := by
    refine List.pairwise_of_forall_mem_list fun p hp later _ x hx => ?_
    rw [unpatched p hp] at hx
    cases hx
  unaliased := placed.unaliased

variable (sound : s.activation.link.Sound) (idle : s.activation.queue = {})
  (entered : Returns (enter settings) s u s')
  (within : ∀ m ∈ t, m ∈ s'.activation.link.device.mappings) {addr : Nat}

include sound idle entered within

/-- Without patches, a device holds the copies of sections and nothing else in new blocks. -/
theorem byte_enter_unpatched : s'.activation.link.byte? addr =
    (Chunk.written (Parcel.copies ((placements settings s).flatMap (Placement.parcels settings))) addr).or
      (s.activation.link.blank s'.activation.link addr) := by
  have sound' := ((along_enter settings).returns entered).link.sound sound
  exact byte_enter_consistent unpatched sound idle entered ((undisturbed_unpatched placed unpatched).orderless
    placed.wellFormed placed.given within sound'.mappings).consistent

theorem byte_enter_copied {p : Placement} {target : Nat} (hp : p ∈ placements settings s)
    (ht : p.target? = some target) (hv : Chunk.byte? ⟨target, p.content⟩ addr = some v) :
    s'.activation.link.byte? addr = some v := by
  have sound' := ((along_enter settings).returns entered).link.sound sound
  have orderless := (undisturbed_unpatched placed unpatched).orderless placed.wellFormed placed.given
    within sound'.mappings
  have copied : Chunk.written (Parcel.copies
      ((placements settings s).flatMap (Placement.parcels settings))) addr = some v := by
    refine orderless.consistent.written_eq_some_iff.2 ⟨⟨target, p.content⟩, ?_, hv⟩
    refine Parcel.mem_copies.2 ⟨List.mem_flatMap.2 ⟨p, hp, List.mem_append_left _ ?_⟩, fun none => ?_⟩
    · rw [ht]
      exact List.mem_cons_self ..
    · obtain ⟨lower, upper⟩ := Chunk.bounds_of_byte? hv
      dsimp only at none lower upper
      rw [none, List.length_nil] at upper
      omega
  rw [byte_enter_unpatched placed unpatched sound idle entered within, copied, Option.some_or]

end unpatched

end Region

end Offloading
