import Offloading.Proofs.HostPointers
import Offloading.Proofs.HostWrites
import Offloading.Proofs.StructDelivery
/-!
# Taking structs back

Leaving a region releases its arguments from the last one to the first. Each section is mapped once, so each
release copies it back, puts the host values of the pointers in it back and frees its block. A pointer comes
after its struct, and is put back with the struct and not with what it points at. The blocks that are left
hold what the kernel has written, so it does not matter that they are copied back one after another.
-/

namespace Offloading

/-! ## Copying one section back -/

namespace Region

open RegionM

variable {settings : Settings} {a : Argument} {s s' : RegionState} {first size : Nat} {u : Unit}

/-- A section is given back as a whole: its bytes go to the host, the pointers in it are put back and
forgotten, and then it is unmapped. -/
structure GivesBack (a : Argument) (s s' : RegionState) : Prop where
  arguments : s'.arguments = s.arguments
  copied : ∃ m content, (s.activation.link.device.mappings.lookup a.start a.size).mapping? = some m ∧
    content.length = a.size ∧
    (∀ i < a.size, s.activation.link.byte? (m.translate a.start + i) = content[i]?) ∧
    s'.host = (s.host.write a.start content).restored
      (s.activation.link.device.shadows.range a.start (a.start + a.size))
  unmapped : ∃ l, s.activation.link.Still l ∧ l.memory? = s.activation.link.memory? ∧
    (∀ x, x ∈ l.device.shadows ↔
      x ∈ s.activation.link.device.shadows ∧ ¬ a.hostSection.Has x.hostSlot) ∧
    Returns (Device.unmap a.start a.size false) l () s'.activation.link

/-- Restoring the shadows in a section that was copied back and is removed. -/
theorem restoreShadows_removed (direct : settings.config.translatesOnDevice = false)
    (h : Returns (restoreShadows settings first size true true) s u s') :
    s' = { s.withLink (s.activation.link.forgetting first (first + size)) with
      host := s.host.restored (s.activation.link.device.shadows.range first (first + size)) } := by
  rw [Returns, exec_restoreShadows, direct, Prod.mk.injEq] at h
  exact h.2.symm

theorem givesBack_of_releases (direct : settings.config.translatesOnDevice = false)
    (back : a.mapType.has .fromDevice = true) (sound : s.activation.link.Sound) (some : 0 < a.size)
    (h : ReleasesPlain settings a true s s') : GivesBack a s s' := by
  obtain ⟨addr, l, s₁, s₂, held, retrieved, restored, unmapped⟩ := h
  rw [back, Bool.true_or, Bool.and_self] at retrieved restored
  rw [if_pos rfl] at retrieved unmapped
  obtain ⟨m, here, rfl, rfl⟩ : ∃ m,
      (s.activation.link.device.mappings.lookup a.start a.size).mapping? = Option.some m ∧
      addr = m.translate a.start ∧ l = s.activation.link := by
    rcases Device.returns_hold held with ⟨-, none, -⟩ | ⟨m, found, view, after⟩
    · cases none
    · rw [Option.some.injEq, HeldSection.mk.injEq] at view
      obtain ⟨rfl, last⟩ := view
      rw [← last, Bool.not_true, Bool.and_false, if_neg Bool.false_ne_true] at after
      exact ⟨m, found, rfl, after⟩
  obtain ⟨content, s₃, fetched, wrote⟩ := returns_bind.1 retrieved
  obtain ⟨l₁, got, rfl⟩ := lifts_onDevice.returns.1 fetched
  obtain rfl := returns_modify.1 wrote
  obtain rfl := restoreShadows_removed direct restored
  obtain ⟨l₂, gone, rfl⟩ := lifts_onDevice.returns.1 unmapped
  obtain ⟨bytes, counted⟩ := Device.returns_retrieve got
  obtain ⟨empty, -⟩ | ⟨k, before, read⟩ := bytes
  · exact absurd empty (Nat.ne_of_gt some)
  change s.activation.link.memory? = Option.some k at before
  obtain ⟨length, bytes⟩ := (sound.accelerator.memory before).read_eq_ok read
  obtain ⟨_, _, device⟩ := counted.device
  have shadows : l₁.device.shadows = s.activation.link.device.shadows := by rw [device]; rfl
  refine ⟨rfl, ⟨m, content, here, length, fun i hi => ?_, ?_⟩,
    ⟨l₁.forgetting a.start (a.start + a.size), ?_, counted.memory?, fun x => ?_, gone⟩⟩
  · rw [← bytes i hi, Link.byte?_of_memory? before]
  · exact congrArg (fun t : ShadowTable => (s.host.write a.start content).restored
      (t.range a.start (a.start + a.size))) shadows
  · exact Lasting.trans (R := Link.Still) (Device.along_retrieve.returns got).still
      ⟨rfl, rfl, rfl, rfl, fun h => h, rfl, rfl⟩
  · refine AddressMap.mem_eraseRange.trans (and_congr ?_ Iff.rfl)
    rw [← shadows]

end Region

/-! ## Copying all sections back -/

/-- The host has taken a section from the device: its bytes are those of the copy, except that pointers
are as the host had them before. -/
def Link.Yields (l : Link) (args : ArgumentList) (before after : HostMemory) (s : HostSection) : Prop :=
  ∃ target, l.device.translate? s.first s.size = some target ∧ ∀ i < s.size,
    (args.InSlot (s.first + i) → after.byte (s.first + i) = before.byte (s.first + i)) ∧
    (¬ args.InSlot (s.first + i) → l.byte? (target + i) = some (after.byte (s.first + i)))

theorem Link.Yields.congr {l : Link} {args : ArgumentList} {before after after' : HostMemory}
    {s : HostSection} (h : l.Yields args before after s)
    (same : ∀ addr, s.Has addr → after'.byte addr = after.byte addr) : l.Yields args before after' s := by
  obtain ⟨target, translated, bytes⟩ := h
  refine ⟨target, translated, fun i hi => ?_⟩
  rw [same (s.first + i) ⟨Nat.le_add_right _ _, Nat.add_lt_add_left hi _⟩]
  exact bytes i hi

namespace Region

variable {settings : Settings} {alignment k addr : Nat} {a : Argument} {args : ArgumentList}
  {r s s' : RegionState} {u : Unit}

/-- All sections of the arguments are on the device. Of each pointer its host value is remembered, and
nothing else is remembered in a section. -/
structure Lent (structs : args.PointerStructs alignment) (r : RegionState) : Prop where
  arguments : r.arguments = args
  device : r.activation.link.Accommodates structs.family args.sections []
  remembers : ∀ a ∈ args.arguments, a.isPointer = true →
    r.activation.link.device.Remembers a.base
  faithful : ∀ x ∈ r.activation.link.device.shadows, (∀ t ∈ args.sections, ¬ t.Has x.hostSlot) ∨
    ∃ a ∈ args.arguments, a.isPointer = true ∧ x.hostSlot = a.base ∧
      x.hostValue = r.host.readPointer a.base

/-- Where the run through the arguments is when those from position `k` on are released. -/
structure Leaving (structs : args.PointerStructs alignment) (r : RegionState) (k : Nat)
    (s : RegionState) : Prop where
  device : s.activation.link.Accommodates structs.family (args.sections.take k) []
  arguments : s.arguments = args
  places : s.activation.link.device.mappings.Extends r.activation.link.device.mappings
  fades : r.activation.link.Fades s.activation.link
  shadows : ∀ x, x ∈ s.activation.link.device.shadows ↔
    x ∈ r.activation.link.device.shadows ∧ ∀ t ∈ args.sections.drop k, ¬ t.Has x.hostSlot
  yields : ∀ t ∈ args.sections.drop k, r.activation.link.Yields args r.host s.host t
  outside : ∀ addr, (∀ t ∈ args.sections.drop k, ¬ t.Has addr) →
    s.host.byte addr = r.host.byte addr

theorem leaving_start (structs : args.PointerStructs alignment) (lent : Lent structs r) :
    Leaving structs r args.size r := by
  have none := args.drop_sections_size
  refine ⟨?_, lent.arguments, .refl _, Lasting.refl _, fun x => ?_, ?_, fun _ _ => rfl⟩
  · rw [ArgumentList.take_sections_size]
    exact lent.device
  · rw [none]
    exact ⟨fun hx => ⟨hx, List.forall_mem_nil _⟩, And.left⟩
  · rw [none]
    exact List.forall_mem_nil _

variable (structs : args.PointerStructs alignment)

include structs

/-- A pointer that meets a section lies in it. -/
theorem slot_inside_of_has {b : Argument} (hb : b ∈ args.arguments) (pointer : b.isPointer = true)
    (ha : a ∈ args.arguments) (has : b.slot.Has addr) (has' : a.hostSection.Has addr) :
    b.slot.Inside a.hostSection := by
  obtain ⟨i, hi⟩ := List.mem_iff_getElem?.1 hb
  obtain ⟨t, ht, inside⟩ := structs.slot_inside hi pointer
  have same : t = a.hostSection :=
    SectionFamily.eq_of_has (structs.mem_family_iff.2 (List.mem_of_mem_take ht)) (structs.mem_family ha)
      ⟨Nat.le_trans inside.1 has.1, Nat.lt_of_lt_of_le has.2 inside.2⟩ has'
  exact same ▸ inside

/-- The sections after a position are apart from the one there. -/
theorem not_has_of_mem_drop (ha : args.arguments[k]? = some a) {t : HostSection}
    (ht : t ∈ args.sections.drop (k + 1)) (has : a.hostSection.Has addr) : ¬ t.Has addr := by
  intro has'
  have mem := structs.mem_family (List.mem_of_getElem? ha)
  have same := SectionFamily.eq_of_has mem (structs.mem_family_iff.2 (List.mem_of_mem_drop ht)) has has'
  have nodup : (args.sections.drop k).Nodup := structs.family.nodup.sublist (List.drop_sublist _ _)
  rw [ArgumentList.sections_drop ha] at nodup
  exact (List.nodup_cons.1 nodup).1 (same ▸ ht)

omit structs in
theorem pointer_of_shadow {structs : args.PointerStructs alignment} (lent : Lent structs r)
    (ha : a ∈ args.arguments) {x : ShadowPointer} (hx : x ∈ r.activation.link.device.shadows)
    (has : a.hostSection.Has x.hostSlot) : ∃ b ∈ args.arguments, b.isPointer = true ∧
      x.hostSlot = b.base ∧ x.hostValue = r.host.readPointer b.base ∧ b.slot.Inside a.hostSection := by
  rcases lent.faithful x hx with outside | ⟨b, hb, pointer, slot, value⟩
  · exact absurd has (outside _ (structs.mem_family ha))
  · refine ⟨b, hb, pointer, slot, value, slot_inside_of_has structs hb pointer ha ?_ (slot ▸ has)⟩
    exact ⟨Nat.le_refl _, Nat.lt_add_of_pos_right (show 0 < Word.bytes by decide)⟩

section step

variable {structs} (lent : Lent structs r) (h : Leaving structs r (k + 1) s)
  (ha : args.arguments[k]? = some a)

include lent h ha

/-- The pointers that are put back with a section are those in it. -/
theorem inSlot_iff_restored (has : a.hostSection.Has addr) :
    (∃ x ∈ s.activation.link.device.shadows.range a.start (a.start + a.size),
      x.hostSlot ≤ addr ∧ addr < x.hostSlot + Word.bytes) ↔ args.InSlot addr := by
  have mem := List.mem_of_getElem? ha
  constructor
  · rintro ⟨x, hx, covers⟩
    obtain ⟨hx, inside⟩ := AddressMap.mem_range.1 hx
    obtain ⟨b, hb, pointer, slot, -⟩ := pointer_of_shadow lent mem ((h.shadows x).1 hx).1 inside
    exact ⟨b, hb, pointer, Argument.slot_has.2 (slot ▸ covers)⟩
  · rintro ⟨b, hb, pointer, covers⟩
    obtain ⟨lower, upper⟩ := slot_inside_of_has structs hb pointer mem covers has
    obtain ⟨x, hx, slot⟩ := lent.remembers b hb pointer
    have inside : a.hostSection.Has x.hostSlot := by
      rw [slot]
      exact ⟨lower, Nat.lt_of_lt_of_le (Nat.lt_add_of_pos_right (show 0 < Word.bytes by decide)) upper⟩
    refine ⟨x, AddressMap.mem_range.2 ⟨(h.shadows x).2 ⟨hx, fun t ht => ?_⟩, inside⟩, ?_⟩
    · exact not_has_of_mem_drop structs ha ht inside
    · rw [slot]
      exact covers

/-- What the host holds after a section was given back. -/
theorem byte_givesBack {content : List UInt8} (length : content.length = a.size)
    (host : s'.host = (s.host.write a.start content).restored
      (s.activation.link.device.shadows.range a.start (a.start + a.size))) (addr : Nat) :
    (a.hostSection.Has addr → args.InSlot addr → s'.host.byte addr = r.host.byte addr) ∧
      (a.hostSection.Has addr → ¬ args.InSlot addr →
        content[addr - a.start]? = some (s'.host.byte addr)) ∧
      (¬ a.hostSection.Has addr → s'.host.byte addr = s.host.byte addr) := by
  have mem := List.mem_of_getElem? ha
  have known : ∀ x ∈ s.activation.link.device.shadows.range a.start (a.start + a.size),
      ∃ b ∈ args.arguments, b.isPointer = true ∧ x.hostSlot = b.base ∧
        x.hostValue = r.host.readPointer b.base ∧ b.slot.Inside a.hostSection := by
    intro x hx
    obtain ⟨hx, inside⟩ := AddressMap.mem_range.1 hx
    exact pointer_of_shadow lent mem ((h.shadows x).1 hx).1 inside
  have restored := HostMemory.byte_restored_of_origin (m := s.host.write a.start content)
    r.host (fun x hx => by
      obtain ⟨b, -, -, slot, value, -⟩ := known x hx
      rw [slot, value]) addr
  rw [← host] at restored
  refine ⟨fun has inSlot => ?_, fun has outside => ?_, fun outside => ?_⟩
  · rcases restored with ⟨-, same⟩ | ⟨none, -⟩
    · exact same
    · obtain ⟨x, hx, covers⟩ := (inSlot_iff_restored lent h ha has).2 inSlot
      exact absurd covers (none x hx)
  · rcases restored with ⟨covered, -⟩ | ⟨-, same⟩
    · exact absurd ((inSlot_iff_restored lent h ha has).1 covered) outside
    · obtain ⟨lower, upper⟩ := has
      change a.start ≤ addr at lower
      change addr < a.start + a.size at upper
      have wrote : content[addr - a.start]? = some ((s.host.write a.start content).byte
          (a.start + (addr - a.start))) := HostMemory.byte_write_inside (by omega)
      rw [wrote, Nat.add_sub_cancel' lower, same]
  · rcases restored with ⟨⟨x, hx, covers⟩, -⟩ | ⟨-, same⟩
    · obtain ⟨b, -, -, slot, -, lower, upper⟩ := known x hx
      obtain ⟨begins, ends⟩ := Argument.slot_has.2 (slot ▸ covers)
      exact absurd ⟨Nat.le_trans lower begins, Nat.lt_of_lt_of_le ends upper⟩ outside
    · rw [same]
      refine HostMemory.byte_write_outside ?_
      rw [HostSection.Has, HostSection.stop] at outside
      dsimp only [Argument.hostSection] at outside
      omega

omit lent in
/-- The section at the position has a mapping of its own until it is released. -/
theorem isOf_leaving {m : Mapping}
    (found : (s.activation.link.device.mappings.lookup a.start a.size).mapping? = some m) :
    m ∈ s.activation.link.device.mappings ∧ m.IsOf a.hostSection := by
  have inside := structs.mem_family (List.mem_of_getElem? ha)
  have listed : a.hostSection ∈ args.sections.take (k + 1) := by
    rw [ArgumentList.sections_take ha]
    exact List.mem_append_right _ (List.mem_singleton_self _)
  obtain ⟨n, hn, own, -⟩ := h.device.shares.exists_isOf inside listed
  have lookup := h.device.shares.sound.mappings.lookup_isOf inside hn own
  obtain rfl : m = n := Option.some.inj (found.symm.trans lookup)
  exact ⟨hn, own⟩

/-- The host has the section that was given back, and it still has those that were given back before. -/
theorem yields_givesBack (back : GivesBack a s s') :
    ∀ t ∈ args.sections.drop k, r.activation.link.Yields args r.host s'.host t := by
  obtain ⟨m, content, found, length, bytes, host⟩ := back.copied
  have after := byte_givesBack lent h ha length host
  rw [ArgumentList.sections_drop ha]
  refine List.forall_mem_cons.2 ⟨⟨m.translate a.start, ?_, fun i hi => ?_⟩, fun t ht => ?_⟩
  · obtain ⟨hm, own⟩ := isOf_leaving h ha found
    obtain ⟨n, hn, place⟩ := h.places m hm
    have lookup := lent.device.shares.sound.mappings.lookup_isOf
      (structs.mem_family (List.mem_of_getElem? ha)) hn (own.of_samePlace place)
    rw [Device.translate?, lookup, Option.map_some, place.translate]
    rfl
  · have has : a.hostSection.Has (a.start + i) := ⟨Nat.le_add_right _ _, Nat.add_lt_add_left hi _⟩
    obtain ⟨pointers, copied, -⟩ := after (a.start + i)
    refine ⟨pointers has, fun outside => h.fades.byte? ?_⟩
    have copied := copied has outside
    rw [Nat.add_sub_cancel_left] at copied
    exact (bytes i hi).trans copied
  · refine (h.yields t ht).congr fun addr has => (after addr).2.2 fun has' => ?_
    exact not_has_of_mem_drop structs ha ht has' has

/-- When a section was given back and unmapped, one argument fewer is left. -/
theorem leaving_givesBack (back : GivesBack a s s')
    (shares : s'.activation.link.Shares structs.family (args.sections.take k))
    (places : s'.activation.link.device.mappings.Extends s.activation.link.device.mappings) :
    Leaving structs r k s' := by
  obtain ⟨m, content, found, length, -, host⟩ := back.copied
  obtain ⟨l, still, memory, shadows, unmapped⟩ := back.unmapped
  obtain ⟨hm, own⟩ := isOf_leaving h ha found
  have inside := structs.mem_family (List.mem_of_getElem? ha)
  have here : (l.device.mappings.lookup a.start a.size).mapping? = some m := by
    rw [still.mappings, found]
  have houses := Device.houses_unmap (h.device.houses.still still) inside (still.mappings ▸ hm) own here
    unmapped
  have fades : s.activation.link.Fades s'.activation.link :=
    Lasting.trans (Link.fades_of_memory? memory)
      (Device.fades_unmap (still.sound h.device.shares.sound) unmapped)
  refine ⟨⟨shares, houses, Device.hasRoom_unmap (h.device.room.still still) unmapped⟩,
    back.arguments.trans h.arguments, places.trans h.places, Lasting.trans h.fades fades, fun x => ?_,
    yields_givesBack lent h ha back, fun addr outside => ?_⟩
  · rw [Device.mem_shadows_unmap here (fun x hx held => ?_) unmapped, shadows, h.shadows,
      ArgumentList.sections_drop ha, List.forall_mem_cons, and_assoc, and_comm (b := ¬ _)]
    rw [own.first, own.stop] at held
    exact ((shadows x).1 hx).2 held
  · rw [ArgumentList.sections_drop ha] at outside
    obtain ⟨apart, others⟩ := List.forall_mem_cons.1 outside
    rw [(byte_givesBack lent h ha length host addr).2.2 apart, h.outside addr others]

/-- Releasing one more argument takes its section back. -/
theorem leaving_unmapArgument (aligned : settings.config.structAlignment = alignment)
    (direct : settings.config.translatesOnDevice = false)
    (ran : Returns (unmapArgument settings k) s u s') : Leaving structs r k s' := by
  have mem := List.mem_of_getElem? ha
  have inside := structs.mem_family mem
  have exchanged := structs.exchanged mem
  have fresh := structs.fresh ha
  have here : s.arguments.arguments[k]? = some a := by rw [h.arguments, ha]
  have sec := structs.mappedSection aligned ha
  rw [← h.arguments] at sec
  have shares := h.device.shares.congr fun t => (ArgumentList.count_sections_take ha t).symm
  obtain ⟨shares', releases, released⟩ := shares_unmapWhole shares here exchanged.toWhole inside sec
    (by rw [List.count_eq_zero.2 fresh]; decide) ran
  rw [decide_eq_true fresh] at released
  have back := givesBack_of_releases direct exchanged.fromDevice shares.sound
    (SectionFamily.size_pos inside) released
  exact leaving_givesBack lent h ha back shares' releases.places

end step

omit structs in
/-- Releasing the arguments from the last one down takes their sections back one by one. -/
theorem leaving_unmapArguments {structs : args.PointerStructs alignment} (lent : Lent structs r)
    (aligned : settings.config.structAlignment = alignment)
    (direct : settings.config.translatesOnDevice = false) (le : k ≤ args.size)
    (ran : Returns (((List.range args.size).drop k).reverse.forM (unmapArgument settings))
      r u s) : Leaving structs r k s := by
  induction left : args.size - k generalizing k s u with
  | zero =>
      have all : k = args.size := by omega
      subst all
      rw [List.drop_of_length_le (Nat.le_of_eq List.length_range)] at ran
      obtain ⟨-, rfl⟩ := returns_pure.1 ran
      exact leaving_start structs lent
  | succ n ih =>
      have lt : k < args.size := by omega
      rw [drop_range lt, List.reverse_cons, returns_forM_append] at ran
      obtain ⟨s₁, later, last⟩ := ran
      obtain ⟨s₂, ran, done⟩ := returns_forM_cons.1 last
      obtain ⟨-, rfl⟩ := returns_pure.1 done
      have here := ih lt later (by omega)
      exact leaving_unmapArgument lent here (List.getElem?_eq_getElem lt) aligned direct ran

omit structs in
/-- Leaving a region takes all sections back, and none stays on the device. -/
theorem leaving_leave {structs : args.PointerStructs alignment} (lent : Lent structs r)
    (aligned : settings.config.structAlignment = alignment)
    (direct : settings.config.translatesOnDevice = false) (left : Returns (leave settings) r u s) :
    Leaving structs r 0 s := by
  rw [leave, returns_get_bind, lent.arguments] at left
  exact leaving_unmapArguments lent aligned direct (Nat.zero_le _) (by rwa [List.drop_zero])

end Region

end Offloading
