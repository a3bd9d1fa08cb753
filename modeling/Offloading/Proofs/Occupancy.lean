import Offloading.Proofs.Footprint
import Offloading.Proofs.Resolution
import Offloading.Proofs.Schedules
import Offloading.Proofs.SharedSections
/-!
# Occupancy

What a device holds besides what it held at some earlier time: places, which are mappings made since then,
each of them held a number of times. Mapping a section takes one more reference on the place that the section
starts in, or makes a new place; releasing it gives a reference back, and a place that nobody holds goes away
with its block. How often a place is held depends on how many of the sections that start in it were mapped
and released, and not on their order.
-/

namespace Offloading

/-! ## Blocks -/

namespace DeviceMemory

variable {m m' : DeviceMemory} {addr size : Nat} {b : Nat × Nat} {blocks : List (Nat × Nat)}

/-- The bytes of all blocks. -/
def total : List (Nat × Nat) → Nat
  | [] => 0
  | b :: rest => b.2 + total rest

/-- Leaving out a block leaves out its bytes. -/
theorem total_filter (hb : b ∈ blocks) (distinct : blocks.Pairwise fun x y => x.1 ≠ y.1) :
    total blocks = b.2 + total (blocks.filter fun x => x.1 != b.1) := by
  induction blocks with
  | nil => cases hb
  | cons c rest ih =>
      obtain ⟨first, others⟩ := List.pairwise_cons.1 distinct
      rcases List.mem_cons.1 hb with rfl | later
      · have kept : rest.filter (fun x => x.1 != b.1) = rest :=
          List.filter_eq_self.2 fun x hx => bne_iff_ne.2 (first x hx).symm
        simp [kept, total]
      · rw [List.filter_cons, if_pos (bne_iff_ne.2 (first b later)), total, total, ih later others]
        omega

/-- A block that is listed can be freed. -/
theorem free_of_mem_extents (listed : (addr, size) ∈ m.extents) : ∃ m', m.free addr = (true, m') := by
  obtain ⟨b, hb, same⟩ := mem_extents.1 listed
  have found : m.blocks.get? addr = some b := AddressMap.get?_eq_some_iff.2 ⟨hb, congrArg Prod.fst same⟩
  rw [free, found]
  exact ⟨_, rfl⟩

/-- Freeing a block takes it from the footprint. -/
theorem footprint_freed (listed : (addr, size) ∈ m.extents) (freed : m.free addr = (true, m')) :
    m'.footprint = (m.used - size, m.extents.filter fun e => e.1 != addr) := by
  obtain ⟨b, hb, same⟩ := mem_extents.1 listed
  obtain ⟨c, hc, start, rfl⟩ := free_eq_true freed
  obtain rfl : c = b := AddressMap.eq_of_address_eq hc hb (start.trans (congrArg Prod.fst same).symm)
  have length : c.bytes.length = size := congrArg Prod.snd same
  rw [footprint, extents_free freed, ← length]

end DeviceMemory

/-! ## Places -/

namespace Mapping

variable {p q : Mapping} {s : HostSection} {sections sections' : List HostSection}

/-- The sections of the mappings have no byte in common. -/
def Apart (p q : Mapping) : Prop := p.hostEnd ≤ q.hostBegin ∨ q.hostEnd ≤ p.hostBegin

instance : Std.Symm Apart := ⟨fun _ _ apart => apart.symm⟩

/-- Where the block of a mapping starts, and how long it is. -/
def block (p : Mapping) : Nat × Nat := (p.deviceBegin, p.length)

/-- The mapping with a count. -/
def counted (p : Mapping) (count : Nat) : Mapping := { p with refCount := ⟨count⟩ }

/-- The mapping maps no byte of the section, and the section does not start in it. -/
def Untouched (p : Mapping) (s : HostSection) : Prop := p.Misses s ∧ p.contains s.first = false

instance : Decidable (p.Untouched s) :=
  inferInstanceAs (Decidable ((p.hostEnd ≤ s.first ∨ s.stop ≤ p.hostBegin) ∧ p.contains s.first = false))

/-- How many of the sections start in the mapping. -/
def touches (p : Mapping) (sections : List HostSection) : Nat := sections.countP fun s => p.contains s.first

theorem touches_append : p.touches (sections ++ sections') = p.touches sections + p.touches sections' :=
  List.countP_append

theorem touches_cons : p.touches (s :: sections) = p.touches [s] + p.touches sections := by
  rw [← touches_append, List.singleton_append]

theorem touches_one (h : p.contains s.first = true) : p.touches [s] = 1 := by
  simp [touches, h]

theorem touches_none (h : p.contains s.first = false) : p.touches [s] = 0 := by
  simp [touches, h]

theorem touches_le_length : p.touches sections ≤ sections.length := List.countP_le_length

theorem Apart.not_contains {addr : Nat} (apart : p.Apart q) (h : p.contains addr = true) :
    q.contains addr = false := by
  obtain ⟨lower, upper⟩ := contains_iff.1 h
  refine Bool.eq_false_iff.2 fun h' => ?_
  obtain ⟨lower', upper'⟩ := contains_iff.1 h'
  rcases apart with before | after
  · omega
  · omega

end Mapping

/-- The blocks of the places that are held. -/
def heldBlocks (places : List Mapping) (n : Mapping → Nat) : List (Nat × Nat) :=
  (places.filter fun p => 0 < n p).map Mapping.block

namespace Link

variable {l k k' : Link} {places new : List Mapping} {n n' : Mapping → Nat} {p q m : Mapping}
  {s : HostSection} {c addr : Nat}

/-- Mappings, newest first, that may come to those of the device: their sections lie apart from each other
and from what is mapped, and their blocks are younger than those that live. -/
structure Places (places : List Mapping) (l : Link) : Prop where
  nonempty : ∀ p ∈ places, p.hostBegin < p.hostEnd
  words : ∀ p ∈ places, p.hostEnd ≤ Word.greatest
  apart : places.Pairwise Mapping.Apart
  free : ∀ p ∈ places, ∀ m ∈ l.device.mappings, p.Apart m
  newer : places.Pairwise fun p q => q.deviceBegin < p.deviceBegin
  memory : ∀ p ∈ places, ∃ m, l.memory? = some m ∧ ∀ e ∈ m.extents, e.1 < p.deviceBegin

/-- Since `l`, the places came to the device, and each of them is held as often as `n` says. -/
structure Occupied (places : List Mapping) (n : Mapping → Nat) (l k : Link) : Prop where
  sound : k.Sound
  unit : k.device.unit = l.device.unit
  mappings : ∀ m, m ∈ k.device.mappings ↔
    (∃ p ∈ places, 0 < n p ∧ m = p.counted (n p)) ∨ m ∈ l.device.mappings
  blocks : k.accelerator.footprint = l.accelerator.footprint.modify l.device.unit.toNat fun f =>
    (DeviceMemory.total (heldBlocks places n) + f.1, heldBlocks places n ++ f.2)

namespace Places

variable (h : Places places l)

include h

theorem eq_of_contains (hp : p ∈ places) (hq : q ∈ places) (inside : p.contains addr = true)
    (inside' : q.contains addr = true) : p = q := by
  by_contra ne
  have apart : p.Apart q := h.apart.forall hp hq ne
  rw [apart.not_contains inside] at inside'
  cases inside'

theorem hostBegin_ne (hp : p ∈ places) (hq : q ∈ places) (ne : p ≠ q) : p.hostBegin ≠ q.hostBegin := by
  intro same
  have start : ∀ r ∈ places, r.contains r.hostBegin = true :=
    fun r hr => Mapping.contains_iff.2 ⟨Nat.le_refl _, h.nonempty r hr⟩
  exact ne (h.eq_of_contains hp hq (start p hp) (same ▸ start q hq))

theorem deviceBegin_ne (hp : p ∈ places) (hq : q ∈ places) (ne : p ≠ q) :
    p.deviceBegin ≠ q.deviceBegin := by
  have distinct : (places.map Mapping.deviceBegin).Nodup :=
    List.pairwise_map.2 (h.newer.imp fun lt => Nat.ne_of_gt lt)
  exact fun same => ne (List.inj_on_of_nodup_map distinct hp hq same)

theorem distinct : (heldBlocks places n).Pairwise fun x y => x.1 ≠ y.1 :=
  List.pairwise_map.2 ((h.newer.imp fun lt => Nat.ne_of_gt lt).filter _)

theorem nodup : places.Nodup := by
  refine h.newer.imp fun {p q} lt same => ?_
  rw [same] at lt
  exact Nat.lt_irrefl _ lt

theorem tail {places' : List Mapping} (split : places = new ++ places') : Places places' l := by
  subst split
  exact ⟨fun p hp => h.nonempty p (List.mem_append_right _ hp),
    fun p hp => h.words p (List.mem_append_right _ hp), (List.pairwise_append.1 h.apart).2.1,
    fun p hp => h.free p (List.mem_append_right _ hp), (List.pairwise_append.1 h.newer).2.1,
    fun p hp => h.memory p (List.mem_append_right _ hp)⟩

end Places

namespace Occupied

/-- Only the counts of the places matter. -/
theorem congr (h : Occupied places n l k) (same : ∀ p ∈ places, n' p = n p) : Occupied places n' l k := by
  have held : heldBlocks places n' = heldBlocks places n := by
    rw [heldBlocks, heldBlocks, List.filter_congr fun p hp => by rw [same p hp]]
  refine ⟨h.sound, h.unit, fun m => (h.mappings m).trans (or_congr_left (exists_congr fun p => ?_)), ?_⟩
  · exact and_congr_right fun hp => by rw [same p hp]
  · rw [held, h.blocks]

/-- What neither mappings nor blocks show does not matter. -/
theorem still (h : Occupied places n l k) (sound : k'.Sound) (same : k'.footprint = k.footprint) :
    Occupied places n l k' := by
  obtain ⟨unit, entries, blocks⟩ := footprint_eq_iff.1 same
  refine ⟨sound, unit.trans h.unit, fun m => ?_, blocks.trans h.blocks⟩
  rw [MappingTable.mem_congr entries]
  exact h.mappings m

/-- Places that nobody holds are none. -/
theorem drop (h : Occupied (new ++ places) n l k) (gone : ∀ p ∈ new, n p = 0) : Occupied places n l k := by
  have held : heldBlocks (new ++ places) n = heldBlocks places n := by
    have none : new.filter (fun p => 0 < n p) = [] :=
      List.filter_eq_nil_iff.2 fun p hp => by simp [gone p hp]
    rw [heldBlocks, heldBlocks, List.filter_append, none, List.nil_append]
  refine ⟨h.sound, h.unit, fun m => (h.mappings m).trans (or_congr_left ⟨?_, ?_⟩), held ▸ h.blocks⟩
  · rintro ⟨p, hp, pos, rfl⟩
    rcases List.mem_append.1 hp with hp | hp
    · rw [gone p hp] at pos
      cases pos
    · exact ⟨p, hp, pos, rfl⟩
  · rintro ⟨p, hp, rest⟩
    exact ⟨p, List.mem_append_right _ hp, rest⟩

/-- Without places the device holds what it held. -/
theorem footprint (h : Occupied [] n l k) : k.footprint = l.footprint := by
  refine footprint_eq_iff.2 ⟨h.unit, AddressMap.ext_mem fun m => ?_, ?_⟩
  · rw [MappingTable.mem_entries, MappingTable.mem_entries, h.mappings m]
    simp
  · rw [h.blocks]
    refine List.ext_getElem? fun i => ?_
    rw [List.getElem?_modify]
    cases l.accelerator.footprint[i]? with
    | none => rfl
    | some f => simp [heldBlocks, DeviceMemory.total]

theorem start (sound : l.Sound) : Occupied [] n l l := by
  refine ⟨sound, rfl, fun m => by simp, ?_⟩
  refine List.ext_getElem? fun i => ?_
  rw [List.getElem?_modify]
  cases l.accelerator.footprint[i]? with
  | none => rfl
  | some f => simp [heldBlocks, DeviceMemory.total]

variable (h : Occupied places n l k)

include h

theorem mem (hp : p ∈ places) (pos : 0 < n p) : p.counted (n p) ∈ k.device.mappings :=
  (h.mappings _).2 (.inl ⟨p, hp, pos, rfl⟩)

theorem old (hm : m ∈ l.device.mappings) : m ∈ k.device.mappings := (h.mappings m).2 (.inr hm)

/-- A place that is held is found where it lies. -/
theorem containing?_place (fit : Places places l) (hp : p ∈ places) (pos : 0 < n p)
    (inside : p.contains addr = true) : k.device.mappings.containing? addr = some (p.counted (n p)) := by
  have word := fit.words p hp
  have upper := (Mapping.contains_iff.1 inside).2
  exact h.sound.mappings.containing?_eq (h.mem hp pos) inside (by omega)

/-- What is found where the device held nothing is a place. -/
theorem place_of_containing? (found : k.device.mappings.containing? addr = some m)
    (untouched : ∀ m ∈ l.device.mappings, m.contains addr = false) :
    ∃ p ∈ places, 0 < n p ∧ m = p.counted (n p) ∧ p.contains addr = true := by
  obtain ⟨hm, inside⟩ := MappingTable.containing?_mem found
  rcases (h.mappings m).1 hm with ⟨p, hp, pos, rfl⟩ | old
  · exact ⟨p, hp, pos, rfl, inside⟩
  · rw [untouched m old] at inside
    cases inside

/-- The memory of the device holds the blocks of the places and the old ones. -/
theorem memory (fit : Places places l) (hp : p ∈ places) :
    ∃ o o', l.memory? = some o ∧ k.memory? = some o' ∧ (∀ e ∈ o.extents, e.1 < p.deviceBegin) ∧
      o'.footprint =
        (DeviceMemory.total (heldBlocks places n) + o.used, heldBlocks places n ++ o.extents) := by
  obtain ⟨o, before, older⟩ := fit.memory p hp
  have there := Accelerator.footprint_of_memory? before
  obtain ⟨i, unit, -⟩ := Accelerator.memory?_eq_some_iff.1 before
  have now : k.accelerator.footprint[l.device.unit.toNat]? =
      some (DeviceMemory.total (heldBlocks places n) + o.used, heldBlocks places n ++ o.extents) := by
    rw [h.blocks, List.getElem?_modify_eq, there]
    rfl
  rw [unit, Int.toNat_natCast, Accelerator.footprint, List.getElem?_map] at now
  obtain ⟨o', found, same⟩ := Option.map_eq_some_iff.1 now
  refine ⟨o, o', before, Accelerator.memory?_eq_some_iff.2 ⟨i, h.unit.trans unit, found⟩, older, same⟩

/-- The old blocks are among those of the memory. -/
theorem old_memory {o' : DeviceMemory} (now : k.memory? = some o') :
    ∃ o, l.memory? = some o ∧ o'.footprint =
      (DeviceMemory.total (heldBlocks places n) + o.used, heldBlocks places n ++ o.extents) := by
  have there := Accelerator.footprint_of_memory? now
  obtain ⟨i, unit, -⟩ := Accelerator.memory?_eq_some_iff.1 now
  rw [h.unit] at unit
  rw [h.blocks, h.unit, List.getElem?_modify_eq] at there
  obtain ⟨f, before, same⟩ := Option.map_eq_some_iff.1 there
  rw [unit, Int.toNat_natCast, Accelerator.footprint, List.getElem?_map] at before
  obtain ⟨o, found, rfl⟩ := Option.map_eq_some_iff.1 before
  exact ⟨o, Accelerator.memory?_eq_some_iff.2 ⟨i, unit, found⟩, same.symm⟩

/-- The count of a place changes. With the count zero the place is none any more. -/
theorem recount (fit : Places places l) (hp : p ∈ places) (sound : k'.Sound)
    (unit : k'.device.unit = k.device.unit)
    (table : ∀ m, m ∈ k'.device.mappings ↔
      (0 < c ∧ m = p.counted c) ∨ (m ∈ k.device.mappings ∧ m.hostBegin ≠ p.hostBegin))
    (blocks : k'.accelerator.footprint = l.accelerator.footprint.modify l.device.unit.toNat fun f =>
      (DeviceMemory.total (heldBlocks places (Function.update n p c)) + f.1,
        heldBlocks places (Function.update n p c) ++ f.2)) :
    Occupied places (Function.update n p c) l k' := by
  refine ⟨sound, unit.trans h.unit, fun m => (table m).trans ⟨?_, ?_⟩, blocks⟩
  · rintro (⟨pos, rfl⟩ | ⟨hm, other⟩)
    · exact .inl ⟨p, hp, by rwa [Function.update_self], by rw [Function.update_self]⟩
    · rcases (h.mappings m).1 hm with ⟨q, hq, pos, rfl⟩ | old
      · have ne : q ≠ p := fun same => other (same ▸ rfl)
        exact .inl ⟨q, hq, by rwa [Function.update_of_ne ne], by rw [Function.update_of_ne ne]⟩
      · exact .inr old
  · rintro (⟨q, hq, pos, rfl⟩ | old)
    · by_cases same : q = p
      · subst same
        rw [Function.update_self] at pos ⊢
        exact .inl ⟨pos, rfl⟩
      · rw [Function.update_of_ne same] at pos ⊢
        have ne := fit.hostBegin_ne hq hp same
        exact .inr ⟨h.mem hq pos, ne⟩
    · have here := fit.nonempty p hp
      have there := h.sound.mappings.nonempty m (h.old old)
      refine .inr ⟨h.old old, fun same => ?_⟩
      rcases fit.free p hp m old with before | after
      · omega
      · omega

/-- A place that is held gets another count. -/
theorem setCount (fit : Places places l) (hp : p ∈ places) (pos : 0 < n p) (more : 0 < c) :
    Occupied places (Function.update n p c) l
      (k.withMappings (k.device.mappings.setCount (p.counted (n p)) ⟨c⟩)) := by
  refine h.recount fit hp ⟨h.sound.mappings.setCount (h.mem hp pos) more, h.sound.accelerator⟩ rfl
    (fun m => ?_) ?_
  · have member := MappingTable.mem_setCount (t := k.device.mappings) (m := p.counted (n p)) (n := m)
      (c := ⟨c⟩)
    exact member.trans (or_congr_left (and_iff_right more).symm)
  · have held : heldBlocks places (Function.update n p c) = heldBlocks places n := by
      refine congrArg (List.map Mapping.block) (List.filter_congr fun q _ => ?_)
      by_cases same : q = p
      · subst same
        rw [Function.update_self, decide_eq_decide]
        exact ⟨fun _ => pos, fun _ => more⟩
      · rw [Function.update_of_ne same]
    rw [held]
    exact h.blocks

end Occupied

/-! ## Mapping a section -/

/-- An entry of a list that was changed is replaced. -/
private theorem set_modify {α : Type} {items : List α} {i : Nat} {x : α} {f g : α → α}
    (hx : items[i]? = some x) : (items.modify i f).set i (g x) = items.modify i g := by
  refine List.ext_getElem? fun j => ?_
  rw [List.getElem?_set, List.getElem?_modify, List.getElem?_modify, List.length_modify]
  by_cases same : i = j
  · subst same
    obtain ⟨lt, rfl⟩ := List.getElem?_eq_some_iff.1 hx
    simp [lt]
  · simp [same]

section settle

variable {base : Nat} {o o' : DeviceMemory} (h : Occupied places n l k) (fit : Places places l)
  (held : ∀ p ∈ places, 0 < n p)
  (none : (k.device.mappings.lookup s.first s.size).mapping? = none) (pos : 0 < s.size)
  (word : s.stop ≤ Word.greatest) (before : k.memory? = some o)

include h fit held none pos word before

/-- A section that meets no mapping may become a place, in a block that is allocated then. -/
theorem Occupied.places_cons : Places (⟨base, s.first, s.stop, o.next, .one⟩ :: places) l := by
  obtain ⟨older, hl, same⟩ := h.old_memory before
  have extents : o.extents = heldBlocks places n ++ older.extents := (Prod.mk.inj same).2
  have start : ∀ e ∈ heldBlocks places n ++ older.extents, e.1 < o.next := by
    intro e he
    obtain ⟨b, hb, rfl⟩ := DeviceMemory.mem_extents.1 (extents ▸ he)
    exact (h.sound.accelerator.memory before).start_lt hb
  have apart : ∀ m ∈ k.device.mappings, Mapping.Apart ⟨base, s.first, s.stop, o.next, .one⟩ m := by
    intro m hm
    have stop : s.first < s.stop := Nat.lt_add_of_pos_right pos
    rcases h.sound.mappings.lookup_none_apart none hm with ⟨-, below⟩ | ⟨-, above⟩
    · exact .inr (below (by omega))
    · by_cases far : m.hostBegin < Word.greatest
      · exact .inl (above far)
      · exact .inl (by simp only; omega)
  refine ⟨?_, ?_, ?_, ?_, ?_, ?_⟩
  · exact List.forall_mem_cons.2 ⟨Nat.lt_add_of_pos_right pos, fit.nonempty⟩
  · exact List.forall_mem_cons.2 ⟨word, fit.words⟩
  · refine List.pairwise_cons.2 ⟨fun p hp => ?_, fit.apart⟩
    have there : Mapping.Apart _ (p.counted (n p)) := apart _ (h.mem hp (held p hp))
    exact there
  · exact List.forall_mem_cons.2 ⟨fun m hm => apart m (h.old hm), fit.free⟩
  · refine List.pairwise_cons.2 ⟨fun p hp => ?_, fit.newer⟩
    have listed : p.block ∈ heldBlocks places n :=
      List.mem_map_of_mem (List.mem_filter.2 ⟨hp, decide_eq_true (held p hp)⟩)
    exact start p.block (List.mem_append_left _ listed)
  · exact List.forall_mem_cons.2
      ⟨⟨older, hl, fun e he => start e (List.mem_append_right _ he)⟩, fit.memory⟩

/-- The section becomes a place that is held once. -/
theorem Occupied.settle {l₂ : Link} (sound : k'.Sound) (block : o.allocate s.size = (some o.next, o'))
    (wrote : k.Wrote l₂ o')
    (inserted : Returns (Device.insertMapping ⟨base, s.first, s.stop, o.next, .one⟩) l₂ () k') :
    Occupied (⟨base, s.first, s.stop, o.next, .one⟩ :: places)
      (Function.update n ⟨base, s.first, s.stop, o.next, .one⟩ 1) l k' := by
  have fit' : Places (⟨base, s.first, s.stop, o.next, .one⟩ :: places) l :=
    h.places_cons fit held none pos word before
  obtain ⟨older, hl, same⟩ := h.old_memory before
  rw [DeviceMemory.footprint, Prod.mk.injEq] at same
  have after := Device.footprint_insert wrote inserted
  generalize place : (⟨base, s.first, s.stop, o.next, .one⟩ : Mapping) = M at fit' after ⊢
  have first : M.hostBegin = s.first := congrArg Mapping.hostBegin place.symm
  have one : M.counted 1 = M := by rw [← place]; rfl
  have fresh : M ∉ places := (List.nodup_cons.1 fit'.nodup).1
  have counts : ∀ p ∈ places, Function.update n M 1 p = n p := by
    intro p hp
    refine Function.update_of_ne (fun same => fresh ?_) _ _
    rwa [← same]
  have blocks : heldBlocks (M :: places) (Function.update n M 1) = M.block :: heldBlocks places n := by
    rw [heldBlocks, List.filter_cons, if_pos (by rw [Function.update_self]; decide), List.map_cons,
      List.filter_congr fun p hp => by rw [counts p hp]]
    rfl
  have bytes : M.block = (o.next, max s.size 1) := by
    rw [← place, Mapping.block, Mapping.length, HostSection.stop, Nat.add_sub_cancel_left,
      Nat.max_eq_left pos]
  have grown : o'.footprint = (DeviceMemory.total (heldBlocks (M :: places) (Function.update n M 1)) +
      older.used, heldBlocks (M :: places) (Function.update n M 1) ++ older.extents) := by
    obtain ⟨-, rest⟩ := DeviceMemory.allocate_eq_some block
    have used : o'.used = o.used + max s.size 1 := by rw [rest]
    rw [DeviceMemory.footprint, used, (h.sound.accelerator.memory before).extents_allocate block, blocks,
      DeviceMemory.total, bytes, same.1, same.2, List.cons_append]
    refine Prod.ext ?_ rfl
    change _ + _ + _ = _ + _ + _
    omega
  rw [Link.footprint, Prod.mk.injEq, Prod.mk.injEq, h.unit] at after
  obtain ⟨unit, entries, memories⟩ := after
  refine ⟨sound, unit, fun m => ?_, ?_⟩
  · have member : m ∈ k'.device.mappings ↔ m = M ∨ m ∈ k.device.mappings := by
      rw [← MappingTable.mem_entries, entries, AddressMap.mem_insert]
      refine or_congr_right (and_iff_left_of_imp fun hm => ?_)
      rw [Mapping.address_eq, Mapping.address_eq, first]
      exact h.sound.mappings.hostBegin_ne none hm
    rw [member, h.mappings m]
    constructor
    · rintro (rfl | ⟨p, hp, pos, rfl⟩ | old)
      · refine .inl ⟨m, List.mem_cons_self .., ?_, ?_⟩
        · rw [Function.update_self]
          exact Nat.one_pos
        · rw [Function.update_self, one]
      · exact .inl ⟨p, List.mem_cons_of_mem _ hp, by rwa [counts p hp], by rw [counts p hp]⟩
      · exact .inr old
    · rintro (⟨p, hp, pos, rfl⟩ | old)
      · rcases List.mem_cons.1 hp with rfl | hp
        · rw [Function.update_self, one]
          exact .inl rfl
        · rw [counts p hp] at pos ⊢
          exact .inr (.inl ⟨p, hp, pos, rfl⟩)
      · exact .inr (.inr old)
  · rw [memories, h.blocks, grown]
    exact set_modify (g := fun f => (DeviceMemory.total (heldBlocks (M :: places) (Function.update n M 1)) +
      f.1, heldBlocks (M :: places) (Function.update n M 1) ++ f.2)) (Accelerator.footprint_of_memory? hl)

end settle

/-- A section is mapped where nothing was mapped before: it takes one more reference on the place that it
starts in, or it becomes a place of its own, or it is empty and takes nothing. -/
theorem Occupied.take {base : Nat} {r : Option MappedSection} (h : Occupied places n l k)
    (fit : Places places l) (held : ∀ p ∈ places, 0 < n p)
    (few : ∀ p ∈ places, n p < ReferenceCount.infinite.value / 2)
    (untouched : ∀ m ∈ l.device.mappings, m.Untouched s) (word : s.stop ≤ Word.greatest)
    (mapped : Returns (Device.map s.first base s.size false true) k r k') :
    ∃ new n', Places (new ++ places) l ∧ Occupied (new ++ places) n' l k' ∧
      (∀ p ∈ places, n' p = n p + p.touches [s]) ∧
      (∀ p ∈ new, p.IsOf s ∧ n' p = p.touches [s] ∧ 0 < n' p) ∧
      (0 < s.size → ∃ p ∈ new ++ places, p.hostBegin ≤ s.first ∧ s.stop ≤ p.hostEnd) := by
  have last : Word.saturatingAdd s.first s.size = s.stop := Nat.min_eq_left word
  have sound' : k'.Sound := (Device.along_map.returns mapped).toGrown.sound h.sound
  rcases Device.returns_map mapped with ⟨m, found, whole, -, after⟩ | ⟨none, empty, -, rfl⟩ |
    ⟨none, pos, addr, k₁, allocated, -, inserted⟩
  · -- the section lies in a mapping, which must be a place
    obtain ⟨inside, upper⟩ := MappingTable.containing?_of_not_isPartial found
      (whole.resolve_right Bool.false_ne_true)
    obtain ⟨p, hp, pos, rfl, contains⟩ := h.place_of_containing? inside fun m hm => (untouched m hm).2
    have count : (p.counted (n p)).refCount.increment = ⟨n p + 1⟩ :=
      congrArg ReferenceCount.mk (ReferenceCount.value_increment (Nat.le_of_lt (few p hp)))
    rw [if_pos rfl, count] at after
    refine ⟨[], Function.update n p (n p + 1), fit, ?_, fun q hq => ?_, List.forall_mem_nil _, fun _ => ?_⟩
    · refine (h.setCount fit hp pos (Nat.succ_pos (n p))).still sound' ?_
      rw [after]
      rfl
    · by_cases same : q = p
      · subst same
        rw [Function.update_self, Mapping.touches_one contains]
      · have outside : q.contains s.first = false :=
          Bool.eq_false_iff.2 fun inside => same (fit.eq_of_contains hq hp inside contains)
        rw [Function.update_of_ne same, Mapping.touches_none outside, Nat.add_zero]
    · rw [last] at upper
      exact ⟨p, hp, (Mapping.contains_iff.1 contains).1, upper⟩
  · -- an empty section starts in no place
    have outside : ∀ p ∈ places, p.contains s.first = false := by
      refine fun p hp => Bool.eq_false_iff.2 fun inside => ?_
      have found := h.containing?_place fit hp (held p hp) inside
      rw [(MappingTable.lookup_eq_none_cases none).1] at found
      cases found
    refine ⟨[], n, fit, h, fun p hp => ?_, List.forall_mem_nil _, fun pos => ?_⟩
    · rw [Mapping.touches_none (outside p hp), Nat.add_zero]
    · omega
  · -- the section becomes a place
    obtain ⟨o, o', before, block, wrote⟩ := Device.returns_allocate allocated
    obtain ⟨rfl, -⟩ := DeviceMemory.allocate_eq_some block
    have fit' : Places (⟨base, s.first, s.stop, o.next, .one⟩ :: places) l :=
      h.places_cons fit held none pos word before
    have settled := h.settle fit held none pos word before sound' block wrote inserted
    generalize place : (⟨base, s.first, s.stop, o.next, .one⟩ : Mapping) = M at fit' settled
    have own : M.IsOf s := place ▸ ⟨rfl, rfl⟩
    have contains : M.contains s.first = true :=
      Mapping.contains_iff.2 ⟨Nat.le_of_eq own.first, own.stop ▸ Nat.lt_add_of_pos_right pos⟩
    have apart := (List.pairwise_cons.1 fit'.apart).1
    refine ⟨[M], _, fit', settled, fun p hp => ?_, fun p hp => ?_, fun _ => ?_⟩
    · have outside : p.contains s.first = false := (apart p hp).not_contains contains
      have ne : p ≠ M := by
        rintro rfl
        rw [contains] at outside
        cases outside
      rw [Function.update_of_ne ne, Mapping.touches_none outside, Nat.add_zero]
    · rw [List.mem_singleton.1 hp, Function.update_self, Mapping.touches_one contains]
      exact ⟨own, rfl, Nat.one_pos⟩
    · exact ⟨M, List.mem_cons_self .., Nat.le_of_eq own.first, Nat.le_of_eq own.stop.symm⟩

/-! ## Releasing a section -/

theorem Places.heldBlocks_update_zero (fit : Places places l) (hp : p ∈ places) :
    heldBlocks places (Function.update n p 0) =
      (heldBlocks places n).filter fun e => e.1 != p.deviceBegin := by
  rw [heldBlocks, heldBlocks, List.filter_map, List.filter_filter]
  refine congrArg _ (List.filter_congr fun q hq => ?_)
  by_cases same : q = p
  · subst same
    simp [Mapping.block]
  · have other : (q.deviceBegin != p.deviceBegin) = true := bne_iff_ne.2 (fit.deviceBegin_ne hq hp same)
    simp [Function.update_of_ne same, Mapping.block, other]

namespace Occupied

variable (h : Occupied places n l k) (fit : Places places l) (hp : p ∈ places)
  (inside : p.contains s.first = true)

include h fit hp inside

theorem lookup_place (pos : 0 < n p) :
    (k.device.mappings.lookup s.first s.size).mapping? = some (p.counted (n p)) := by
  rw [MappingTable.lookup_of_containing? (h.containing?_place fit hp pos inside)]

/-- One reference of several is given back at once. -/
theorem hold_more (several : 1 < n p) (few : n p ≤ ReferenceCount.infinite.value / 2) :
    ∃ k', Returns (Device.hold s.first s.size true) k (some ⟨p.translate s.first, false⟩) k' ∧
      Occupied places (Function.update n p (n p - 1)) l k' := by
  have pos : 0 < n p := Nat.lt_of_succ_lt several
  have remains : (p.counted (n p)).refCount.isLast = false := by
    rw [ReferenceCount.isLast_eq (c := (p.counted (n p)).refCount) few]
    exact decide_eq_false (Nat.not_le.2 several)
  have count : (p.counted (n p)).refCount.decrement = ⟨n p - 1⟩ :=
    congrArg ReferenceCount.mk (ReferenceCount.value_decrement few)
  refine ⟨_, ?_, h.setCount fit hp pos (Nat.sub_pos_of_lt several)⟩
  rw [Device.hold, DeviceM.returns_device_bind, h.lookup_place fit hp inside pos]
  dsimp only
  rw [remains, Bool.not_false, Bool.and_true, if_pos rfl, count]
  exact returns_bind.2 ⟨(), _, DeviceM.returns_modifyMappings.2 rfl, returns_pure.2 ⟨rfl, rfl⟩⟩

/-- The last reference stays until the section is unmapped. -/
theorem hold_last (one : n p = 1) :
    Returns (Device.hold s.first s.size true) k (some ⟨p.translate s.first, true⟩) k := by
  rw [Device.hold, DeviceM.returns_device_bind, h.lookup_place fit hp inside (one ▸ Nat.one_pos), one]
  exact returns_pure.2 ⟨rfl, rfl⟩

/-- Giving the last reference back removes the mapping, by force or not. -/
theorem exec_unmap_last (one : n p = 1) (force : Bool) :
    exec (Device.unmap s.first s.size force) k = exec (Device.removeMapping (p.counted 1)) k := by
  have found := h.lookup_place fit hp inside (one ▸ Nat.one_pos)
  have gone : ¬ 0 < (if force then ReferenceCount.one else (p.counted 1).refCount).decrement.value := by
    cases force with
    | false => exact Nat.not_lt_zero 0
    | true => exact Nat.not_lt_zero 0
  rw [Device.unmap, DeviceM.exec_device_bind, found, one]
  dsimp only
  rw [if_neg gone]
  rfl

/-- When the last reference was given back, the place went away and its block was freed. -/
theorem of_unmap {force : Bool} {u : Unit} (one : n p = 1)
    (unmapped : Returns (Device.unmap s.first s.size force) k u k') :
    Occupied places (Function.update n p 0) l k' := by
  have pos : 0 < n p := one ▸ Nat.one_pos
  have hm := h.mem hp pos
  rw [one] at hm
  rw [Returns, h.exec_unmap_last fit hp inside one] at unmapped
  obtain ⟨o, o', hl, hk, older, same⟩ := h.memory fit hp
  rw [DeviceMemory.footprint, Prod.mk.injEq] at same
  have held : p.block ∈ heldBlocks places n :=
    List.mem_map_of_mem (List.mem_filter.2 ⟨hp, decide_eq_true pos⟩)
  have listed : (p.deviceBegin, p.length) ∈ o'.extents := by
    rw [same.2]
    exact List.mem_append_left _ held
  obtain ⟨c, o'', hc, freed, after⟩ := Device.footprint_remove hm unmapped
  rw [hk, Option.some.injEq] at hc
  subst hc
  rw [show (p.counted 1).deviceBegin = p.deviceBegin from rfl] at freed
  rw [Link.footprint, Prod.mk.injEq, Prod.mk.injEq] at after
  obtain ⟨unit, entries, memories⟩ := after
  have orderly := Device.along_removeMapping hm
  rw [unmapped] at orderly
  refine h.recount fit hp (orderly h.sound).1 unit (fun m => ?_) ?_
  · rw [← MappingTable.mem_entries, entries, AddressMap.mem_erase]
    simp [MappingTable.mem_entries, Mapping.counted]
  · have others : o.extents.filter (fun e => e.1 != p.deviceBegin) = o.extents :=
      List.filter_eq_self.2 fun e he => bne_iff_ne.2 (Nat.ne_of_lt (older e he))
    have bytes : DeviceMemory.total (heldBlocks places n) = p.length +
        DeviceMemory.total ((heldBlocks places n).filter fun e => e.1 != p.deviceBegin) :=
      DeviceMemory.total_filter held fit.distinct
    have shrunk : o''.footprint = (DeviceMemory.total (heldBlocks places (Function.update n p 0)) + o.used,
        heldBlocks places (Function.update n p 0) ++ o.extents) := by
      rw [DeviceMemory.footprint_freed listed freed, same.1, same.2, List.filter_append, others,
        fit.heldBlocks_update_zero hp, bytes]
      refine Prod.ext ?_ rfl
      change p.length + _ + _ - p.length = _
      omega
    rw [memories, h.blocks, h.unit, shrunk]
    exact set_modify (g := fun f => (DeviceMemory.total (heldBlocks places (Function.update n p 0)) + f.1,
      heldBlocks places (Function.update n p 0) ++ f.2)) (Accelerator.footprint_of_memory? hl)

/-- The last reference can be given back. -/
theorem unmap_last (one : n p = 1) (reliable : k.accelerator.Reliable) (force : Bool) :
    ∃ k', Returns (Device.unmap s.first s.size force) k () k' ∧
      Occupied places (Function.update n p 0) l k' := by
  have pos : 0 < n p := one ▸ Nat.one_pos
  obtain ⟨o, o', hl, hk, older, same⟩ := h.memory fit hp
  have held : p.block ∈ heldBlocks places n :=
    List.mem_map_of_mem (List.mem_filter.2 ⟨hp, decide_eq_true pos⟩)
  have listed : (p.deviceBegin, p.length) ∈ o'.extents := by
    rw [(Prod.mk.inj same).2]
    exact List.mem_append_left _ held
  obtain ⟨o'', freed⟩ := DeviceMemory.free_of_mem_extents listed
  obtain ⟨k', removed, -⟩ : Attains (Device.removeMapping (p.counted 1)) k () fun _ => True := by
    have delete := Accelerator.attains_delete (reliable.serves hk) freed
    refine Attains.bind (a := ()) (P := fun k₁ => k₁ = { k with device := k.device.without (p.counted 1) })
      ⟨_, rfl, rfl⟩ fun k₁ same => ?_
    subst same
    have called : Attains (DeviceM.call (.releaseFailed k.device.id p.deviceBegin)
        (Accelerator.delete k.device.unit p.deviceBegin))
        { k with device := k.device.without (p.counted 1) } () fun _ => True :=
      DeviceM.lifts_call.attains delete fun _ _ => trivial
    exact called.bind fun _ _ => Attains.modify trivial
  have unmapped : Returns (Device.unmap s.first s.size force) k () k' := by
    rw [Returns, h.exec_unmap_last fit hp inside one]
    exact removed
  exact ⟨k', unmapped, h.of_unmap fit hp inside one unmapped⟩

omit inside in
/-- A place that is held has a block. -/
theorem exists_block (pos : 0 < n p) : ∃ o b, k.memory? = some o ∧ b ∈ o.blocks ∧
    b.start = p.deviceBegin ∧ b.bytes.length = p.length := by
  obtain ⟨_, o, -, hk, -, same⟩ := h.memory fit hp
  have held : p.block ∈ heldBlocks places n :=
    List.mem_map_of_mem (List.mem_filter.2 ⟨hp, decide_eq_true pos⟩)
  have listed : p.block ∈ o.extents := by
    rw [(Prod.mk.inj same).2]
    exact List.mem_append_left _ held
  obtain ⟨b, hb, place⟩ := DeviceMemory.mem_extents.1 listed
  exact ⟨o, b, hk, hb, Prod.mk.inj place⟩

/-- The bytes of a section can be read where the place lies. -/
theorem returns_retrieve (pos : 0 < n p) (space : p.InSpace) (upper : s.stop ≤ p.hostEnd)
    (reliable : k.accelerator.Reliable) :
    ∃ content k', Returns (Device.retrieve (p.translate s.first) s.size) k content k' := by
  by_cases empty : s.size = 0
  · rw [empty]
    exact ⟨[], k, rfl⟩
  obtain ⟨o', b, hk, hb, start, length⟩ := h.exists_block fit hp pos
  have lower := (Mapping.contains_iff.1 inside).1
  have found : ∃ content, o'.read (p.translate s.first) s.size = .ok content := by
    rw [Mapping.translate_eq space inside]
    rw [HostSection.stop] at upper
    rw [Mapping.length] at length
    rw [DeviceMemory.read, if_neg empty,
      (h.sound.accelerator.memory hk).locate_eq hb (by omega) (by omega) (Nat.pos_of_ne_zero empty)]
    exact ⟨_, rfl⟩
  obtain ⟨content, found⟩ := found
  have retrieved := Accelerator.attains_retrieve (reliable.serves hk) found
  rw [Device.retrieve, if_neg empty]
  obtain ⟨k', ran, -⟩ : Attains (do
      let d ← DeviceM.device
      let content ← DeviceM.call (.transferFailed d.id .deviceToHost (p.translate s.first) s.size)
        (Accelerator.retrieve d.unit (p.translate s.first) s.size)
      DeviceM.count (·.recordRetrieval s.size)
      return content) k content fun _ => True :=
    Attains.bind_get ((DeviceM.lifts_call.attains (Q := fun _ => True) retrieved fun _ _ => trivial).bind
      fun _ _ => Attains.bind (P := fun _ => True) (Attains.modify trivial) fun _ _ => Attains.pure trivial)
  exact ⟨content, k', ran⟩

end Occupied

end Link

end Offloading
