import Offloading.Proofs.Resolution
/-!
# Settlement

If nothing that a region maps gets in the way of anything else, then entering the region settles its
parcels, whichever strategy sends them.
-/

namespace Offloading

/-- The placements of a region, all of them in mappings of `t`, do not get in each other's way. -/
structure Undisturbed (settings : Settings) (t : MappingTable) (ps : List Placement) : Prop where
  /-- Sections and their copies end within the address space. -/
  space : t.InSpace
  /-- One mapping holds all of each section. -/
  sections : ∀ p ∈ ps, 0 < p.size → t.Holds p.first p.size
  /-- One mapping holds all of each pointer. -/
  slots : ∀ p ∈ ps, ∀ q, p.pointer? = some q → t.Holds q.hostSlot Word.bytes
  /-- What a pointer points at is mapped when the pointer is patched. -/
  pointees : ∀ p ∈ ps, (p.patch? settings).isSome → p.target?.isSome
  /-- No section that is copied after a pointer was patched meets the pointer. -/
  spared : ps.Pairwise fun p later => ∀ x, p.patch? settings = some x → later.content ≠ [] →
    x.hostSlot + Word.bytes ≤ later.first ∨ later.first + later.size ≤ x.hostSlot
  /-- No two mappings share device bytes. -/
  unaliased : t.Unaliased

/-- Only the mappings of the device matter. -/
theorem Orderless.congr {d d' : Device} {parcels : List Parcel} (h : Orderless d parcels)
    (same : d'.mappings = d.mappings) : Orderless d' parcels := by
  refine ⟨h.spares, h.consistent, fun p hp => ?_⟩
  rw [← h.resolved p hp, Device.resolve?, Device.resolve?, Device.translate?, Device.translate?,
    Device.translate?, Device.translate?, same]

section

variable {settings : Settings} {t : MappingTable} {ps : List Placement} {p : Placement}
  {host : HostMemory} {c : Chunk} {x : PointerPatch} {addr : Nat} {v : UInt8}

theorem Placement.mem_parcels_copy (h : Parcel.copy c ∈ p.parcels settings) :
    ∃ target, p.target? = some target ∧ c = ⟨target, p.content⟩ := by
  rcases List.mem_append.1 h with h | h
  · rw [Option.mem_toList] at h
    obtain ⟨target, found, same⟩ := Option.map_eq_some_iff.1 h
    cases same
    exact ⟨target, found, rfl⟩
  · rw [Option.mem_toList] at h
    obtain ⟨_, -, none⟩ := Option.map_eq_some_iff.1 h
    cases none

theorem Placement.mem_parcels_patch (h : Parcel.patch x ∈ p.parcels settings) :
    p.patch? settings = some x := by
  rcases List.mem_append.1 h with h | h
  · rw [Option.mem_toList] at h
    obtain ⟨_, -, none⟩ := Option.map_eq_some_iff.1 h
    cases none
  · rw [Option.mem_toList] at h
    obtain ⟨_, found, same⟩ := Option.map_eq_some_iff.1 h
    cases same
    exact found

theorem Placement.patch?_eq_some (h : p.patch? settings = some x) :
    ∃ q, p.pointer? = some q ∧
      x = ⟨q.hostSlot, p.base, q.deviceSlot, p.first, Word.sub p.first p.base, p.target?⟩ := by
  rw [patch?] at h
  split at h
  · cases h
  · obtain ⟨q, found, same⟩ := Option.map_eq_some_iff.1 h
    exact ⟨q, found, same.symm⟩

theorem Placement.patch?_of_pointer? {q : Region.MappedPointer}
    (direct : settings.config.translatesOnDevice = false) (hq : p.pointer? = some q) :
    p.patch? settings = some
      ⟨q.hostSlot, p.base, q.deviceSlot, p.first, Word.sub p.first p.base, p.target?⟩ := by
  rw [patch?, direct, if_neg Bool.false_ne_true, hq]
  rfl

namespace Undisturbed

variable (h : Undisturbed settings t ps) (wf : t.WellFormed) (given : ∀ p ∈ ps, p.Given t host)

include h wf given

theorem lodges_section {target : Nat} (hp : p ∈ ps) (ht : p.target? = some target) :
    t.Lodges p.first p.size target := by
  obtain ⟨m, hm, gives⟩ := (given p hp).target target ht
  exact wf.lodges h.space hm gives (h.sections p hp)

theorem lodges_slot {q : Region.MappedPointer} (hp : p ∈ ps) (hq : p.pointer? = some q) :
    t.Lodges q.hostSlot Word.bytes q.deviceSlot := by
  obtain ⟨m, hm, gives⟩ := (given p hp).pointer q hq
  exact wf.lodges h.space hm gives fun _ => h.slots p hp q hq

/-- Copies carry host bytes to their places. -/
theorem mirrors_of_copy (hp : p ∈ ps) (hc : Parcel.copy c ∈ p.parcels settings)
    (hv : c.byte? addr = some v) : t.Mirrors host addr v := by
  obtain ⟨target, ht, rfl⟩ := Placement.mem_parcels_copy hc
  obtain ⟨lower, hv⟩ := Chunk.byte?_eq_some_iff.1 hv
  obtain ⟨inside, -⟩ := List.getElem?_eq_some_iff.1 hv
  rcases (given p hp).content with none | ⟨-, read⟩
  · rw [none, List.length_nil] at inside
    omega
  · dsimp only at lower hv inside
    rw [read, HostMemory.length_read] at inside
    rw [read, HostMemory.getElem?_read inside, Option.some.injEq] at hv
    have := (h.lodges_section wf given hp ht).mirrors host inside
    rw [hv, Nat.add_sub_cancel' lower] at this
    exact this

private theorem spares {later : Placement} (hp : p ∈ ps) (hl : later ∈ ps)
    (apart : ∀ x, p.patch? settings = some x → later.content ≠ [] →
      x.hostSlot + Word.bytes ≤ later.first ∨ later.first + later.size ≤ x.hostSlot)
    (hx : Parcel.patch x ∈ p.parcels settings) (hc : Parcel.copy c ∈ later.parcels settings) :
    (Parcel.patch x).Spares (.copy c) := by
  intro addr
  have patched := Placement.mem_parcels_patch hx
  obtain ⟨q, hq, same⟩ := Placement.patch?_eq_some patched
  obtain ⟨target, ht, rfl⟩ := Placement.mem_parcels_copy hc
  have slot := h.lodges_slot wf given hp hq
  have sec := h.lodges_section wf given hl ht
  cases hv : Chunk.byte? ⟨target, later.content⟩ addr with
  | none => exact .inr rfl
  | some v =>
      refine .inl (Chunk.byte?_eq_none fun inside => ?_)
      obtain ⟨lower, upper⟩ := Chunk.bounds_of_byte? hv
      rcases (given later hl).content with none | ⟨-, read⟩
      · dsimp only at lower upper
        rw [none, List.length_nil] at upper
        omega
      · have some : later.content ≠ [] := by
          intro none
          dsimp only at lower upper
          rw [none, List.length_nil] at upper
          omega
        have apart := apart x patched some
        subst same
        dsimp only [PointerPatch.chunk] at inside apart lower upper
        rw [Word.length_toBytes] at inside
        rw [read, HostMemory.length_read] at upper
        refine slot.apart sec h.unaliased apart (i := addr - q.deviceSlot) (j := addr - target) ?_ ?_ ?_
        · change _ < 8
          omega
        · omega
        · omega

/-- Nothing that is sent depends on the order in which it is sent. -/
theorem orderless {d : Device} (within : ∀ m ∈ t, m ∈ d.mappings) (wfd : d.mappings.WellFormed) :
    Orderless d (ps.flatMap (Placement.parcels settings)) := by
  have source : ∀ {y}, y ∈ ps.flatMap (Placement.parcels settings) →
      ∃ p ∈ ps, y ∈ p.parcels settings := fun hy => List.mem_flatMap.1 hy
  refine ⟨?_, ?_, ?_⟩
  · rw [List.pairwise_flatMap]
    refine ⟨fun p hp => ?_, ?_⟩
    · -- the section of a region is sent before its pointer is patched
      rw [Placement.parcels]
      cases p.target? with
      | none =>
          cases p.patch? settings with
          | none => simp
          | some x => simp
      | some target =>
          cases p.patch? settings with
          | none => simp
          | some x => simp [Parcel.Spares]
    · refine h.spared.imp_of_mem fun {p later} hp hl apart x hx y hy => ?_
      cases x with
      | copy c => trivial
      | patch x =>
          cases y with
          | copy c => exact h.spares wf given hp hl apart hx hy
          | patch y => trivial
  · intro addr v w hv hw
    have mirrors : ∀ {v}, Chunk.Shows (Parcel.copies (ps.flatMap (Placement.parcels settings))) addr v →
        t.Mirrors host addr v := by
      rintro v ⟨c, hc, hv⟩
      obtain ⟨p, hp, sent⟩ := source (Parcel.mem_copies.1 hc).1
      exact h.mirrors_of_copy wf given hp sent hv
    exact h.unaliased.mirrors (mirrors hv) (mirrors hw)
  · intro x hx
    obtain ⟨p, hp, sent⟩ := source (Parcel.mem_patches.1 hx)
    have patched := Placement.mem_parcels_patch sent
    obtain ⟨q, hq, rfl⟩ := Placement.patch?_eq_some patched
    have slot : d.translate? q.hostSlot Word.bytes = some q.deviceSlot :=
      (h.lodges_slot wf given hp hq).translate? h.space within wfd
    obtain ⟨target, ht⟩ := Option.isSome_iff_exists.1 (h.pointees p hp (by rw [patched]; rfl))
    have pointee : d.translate? p.first 0 = some target :=
      (h.lodges_section wf given hp ht).translate? h.space within wfd
    rw [Device.resolve?]
    dsimp only [PointerPatch.pending]
    rw [slot, pointee, PointerPatch.shadow, PointerPatch.deviceValue, ht]
    rfl

end Undisturbed

end

namespace Region

open RegionM

variable {settings : Settings} {s s' : RegionState} {u : Unit}

/-- Mapping the arguments hands all parcels to the strategy. -/
theorem carried_mapArguments {indices : List Nat} {start : Link} {parcels : List Parcel}
    (hs : Carried settings.strategy start parcels s.activation)
    (mapped : Returns (indices.forM (mapArgument settings)) s u s') :
    Carried settings.strategy start
      (parcels ++ (placementsOn settings indices s).flatMap (Placement.parcels settings))
      s'.activation := by
  have all := mapArguments_induct
    (P := fun ps s' => Carried settings.strategy start
      (parcels ++ ps.flatMap (Placement.parcels settings)) s'.activation)
    ?_ (fun h => h) (by rw [List.flatMap_nil, List.append_nil]; exact hs) mapped
  · exact all
  · intro ps padded region p s₀ s₁ s₂ inv placed shipped
    obtain ⟨pointer?, s₀', mapped?, l, content, first, size, base, -, hp, -, hm, decided, -⟩ :=
      returns_place.1 placed
    obtain ⟨rfl, -⟩ := returns_contentIn decided
    have slot : Carried settings.strategy start (parcels ++ ps.flatMap (Placement.parcels settings))
        s₀'.activation := by
      rcases returns_mapPointer hp with ⟨-, -, rfl⟩ | ⟨-, found, l₁, slot, -, rfl⟩
      · exact inv
      · exact inv.map slot
    have sent := (slot.map hm).sendAll shipped.activation
    rw [List.append_assoc] at sent
    rw [List.flatMap_append, List.flatMap_singleton]
    exact sent

/-- Entering a region settles what it sends, if the order does not matter. -/
theorem settled_enter_orderless (hs : s.activation.link.Sound) (idle : s.activation.queue = {})
    (entered : Returns (enter settings) s u s')
    (orderless : Orderless s'.activation.link.device
      ((placements settings s).flatMap (Placement.parcels settings))) :
    Settled s.activation.link ((placements settings s).flatMap (Placement.parcels settings))
      s'.activation.link := by
  obtain ⟨s₁, n, mapped, flushed⟩ := returns_enter entered
  have carried := carried_mapArguments (carried_nil settings.strategy hs.accelerator idle) mapped
  have still := (Strategy.along_flush settings.strategy).returns flushed
  have parcels := carried.handled
  cases hst : settings.strategy with
  | immediate =>
      rw [hst] at flushed parcels
      rw [(returns_pure.1 flushed).2]
      exact Delivered.settled parcels carried.wellFormed carried.confined orderless.spares
  | bulk =>
      rw [hst] at flushed parcels
      exact Queued.settled parcels carried.wellFormed carried.confined (orderless.congr still.mappings.symm)
        flushed

/-- Entering a region settles what it sends, if some of its mappings hold all placements and these do
not get in each other's way. -/
theorem settled_enter_within {t : MappingTable} (hs : s.activation.link.Sound)
    (idle : s.activation.queue = {}) (entered : Returns (enter settings) s u s')
    (within : ∀ m ∈ t, m ∈ s'.activation.link.device.mappings)
    (given : ∀ p ∈ placements settings s, p.Given t s.host)
    (undisturbed : Undisturbed settings t (placements settings s)) :
    Settled s.activation.link ((placements settings s).flatMap (Placement.parcels settings))
      s'.activation.link := by
  have mappings := (((along_enter settings).returns entered).link.sound hs).mappings
  exact settled_enter_orderless hs idle entered
    (undisturbed.orderless (mappings.within within) given within mappings)

/-- Entering a region settles what it sends. -/
theorem settled_enter (hs : s.activation.link.Sound) (idle : s.activation.queue = {})
    (entered : Returns (enter settings) s u s')
    (undisturbed : Undisturbed settings s'.activation.link.device.mappings (placements settings s)) :
    Settled s.activation.link ((placements settings s).flatMap (Placement.parcels settings))
      s'.activation.link := by
  obtain ⟨s₁, n, mapped, flushed⟩ := returns_enter entered
  have given := given_mapArguments hs mapped
  rw [← ((Strategy.along_flush settings.strategy).returns flushed).mappings] at given
  exact settled_enter_within hs idle entered (fun _ hm => hm) given undisturbed

end Region

end Offloading
