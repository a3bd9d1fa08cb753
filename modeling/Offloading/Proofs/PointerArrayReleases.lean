import Offloading.Proofs.PointerArrayEntry
/-!
# Leaving with pointer arrays

An array is released before its rows: first the reference for the array itself, and then for each element that
is not null its row and its slot. So the array is copied back only if it has no such element, or if it always
is. The elements must have their host pointers then, since each of them is looked up when its turn comes.
-/

namespace Offloading

/-! ## The array -/

namespace Argument

variable {a : Argument} {host : HostMemory} {size slot other : Nat} {e : HostSection}

/-- All elements of the array are null. -/
def AllNull (a : Argument) (host : HostMemory) : Prop := ∀ slot ∈ a.slots, host.readPointer slot = 0

instance : Decidable (a.AllNull host) := inferInstanceAs (Decidable (∀ slot ∈ a.slots, _))

theorem AllNull.elements (h : a.AllNull host) : a.slots.flatMap (host.elementSections size) = [] :=
  List.flatMap_eq_nil_iff.2 fun slot mem => HostMemory.elementSections_null (h slot mem)

/-- Addresses of elements are addresses of the array. -/
theorem holds_slot (h : slot ∈ a.slots) {addr : Nat} (lower : slot ≤ addr)
    (upper : addr < slot + Word.bytes) : a.hostSection.Holds addr := by
  obtain ⟨first, last⟩ := mem_slots h
  exact ⟨Nat.le_trans first lower, Nat.lt_of_lt_of_le upper last⟩

end Argument

theorem HostMemory.pos_of_holds_row {host : HostMemory} {size slot addr : Nat}
    (h : (host.row size slot).Holds addr) : 0 < size := by
  obtain ⟨lower, upper⟩ := h
  change host.readPointer slot ≤ addr at lower
  change addr < host.readPointer slot + size at upper
  omega

namespace Argument.RowsApart

variable {a : Argument} {host : HostMemory} {size slot other : Nat} {e : HostSection}
  (h : a.RowsApart host size) (mem : slot ∈ a.slots) (live : host.readPointer slot ≠ 0)

include h mem live

/-- No byte of the array is one of a row. -/
theorem not_holds_row {addr : Nat} (inside : a.hostSection.Holds addr) :
    ¬ (host.row size slot).Holds addr := by
  intro holds
  have pos := HostMemory.pos_of_holds_row holds
  obtain ⟨lower, upper⟩ := holds
  obtain ⟨begins, ends⟩ := inside
  rcases h.array pos slot mem live with before | after
  · exact absurd lower (Nat.not_le.2 (Nat.lt_of_lt_of_le ends before))
  · exact absurd begins (Nat.not_le.2 (Nat.lt_of_lt_of_le upper after))

/-- No byte of another row is one of a row. -/
theorem not_holds_other (mem' : other ∈ a.slots) (ne : slot ≠ other) (live' : host.readPointer other ≠ 0)
    {addr : Nat} (inside : (host.row size other).Holds addr) : ¬ (host.row size slot).Holds addr := by
  intro holds
  have pos := HostMemory.pos_of_holds_row holds
  obtain ⟨lower, upper⟩ := holds
  obtain ⟨begins, ends⟩ := inside
  rcases h.rows pos slot mem other mem' ne live live' with before | after
  · exact absurd begins (Nat.not_le.2 (Nat.lt_of_lt_of_le upper before))
  · exact absurd lower (Nat.not_le.2 (Nat.lt_of_lt_of_le ends after))

/-- The slots of other elements and their rows lie apart from a row, and so does its own slot. -/
theorem apart_row (pos : 0 < size) (he : e = ⟨other, Word.bytes⟩ ∨ e = host.row size other ∧ slot ≠ other)
    (mem' : other ∈ a.slots) (live' : host.readPointer other ≠ 0) : e.Apart (host.row size slot) := by
  rcases he with rfl | ⟨rfl, ne⟩
  · obtain ⟨first, last⟩ := mem_slots mem'
    rcases h.array pos slot mem live with before | after
    · exact .inl (Nat.le_trans last before)
    · exact .inr (Nat.le_trans after first)
  · exact (h.rows pos slot mem other mem' ne live live').symm

end Argument.RowsApart

namespace ArrayHeld

variable {settings : Settings} {a : Argument} {host : HostMemory} {size slot : Nat} {l k : Link}
  {places : List Mapping} {p : Mapping}
  (held : ArrayHeld settings a size host l places k)

include held

theorem lodged_array : l.Lodged places a.hostSection :=
  held.outstanding.lodged _ (Argument.mem_arraySections.2 (.inl rfl))

theorem stop_le (hp : p ∈ places) (inside : p.contains a.start = true) : a.start + a.size ≤ p.hostEnd :=
  held.outstanding.fit.stop_le held.lodged_array hp inside

/-- Nothing was released yet. -/
theorem remains : l.Remains places (a.arraySections host size) k k where
  outstanding := held.outstanding
  fades := Lasting.refl k
  shadows _ hx := hx
  cleared _ hp gone := absurd gone (Nat.ne_of_gt (held.touches_pos hp))

/-- The elements that are not null lie in the place of the array. -/
theorem touches_elements (hp : p ∈ places) (inside : p.contains a.start = true) :
    p.touches (a.slots.flatMap (host.elementSections size)) = 0 ↔ a.AllNull host := by
  refine ⟨fun none slot mem => Classical.byContradiction fun live => ?_, fun null => ?_⟩
  · obtain ⟨lower, upper⟩ := Argument.mem_slots mem
    have stop := held.stop_le hp inside
    have begins := (Mapping.contains_iff.1 inside).1
    have there : p.contains slot = true := by
      rw [Word.bytes] at upper
      exact Mapping.contains_iff.2 ⟨by omega, by omega⟩
    refine Nat.ne_of_gt (List.countP_pos_iff.2 ⟨⟨slot, Word.bytes⟩, ?_, there⟩) none
    exact Argument.mem_elementSections.2 ⟨slot, mem, live, .inl rfl⟩
  · rw [null.elements]
    rfl

/-- What is remembered in an array are pointers of its elements. -/
theorem faithful_array {x : ShadowPointer} (hx : x ∈ k.device.shadows)
    (inside : a.hostSection.Holds x.hostSlot) : x.hostSlot ∈ a.slots ∧ host.readPointer x.hostSlot ≠ 0 ∧
      x.hostValue = host.readPointer x.hostSlot := by
  rcases held.faithful x hx with outside | pointer
  · exact absurd inside (outside _ (Argument.mem_arraySections.2 (.inl rfl)))
  · exact pointer

section row

variable (apart : a.RowsApart host size) (mem : slot ∈ a.slots) (live : host.readPointer slot ≠ 0)

include apart mem live

/-- Nothing is remembered in a row. -/
theorem forgotten_row {x : ShadowPointer} (hx : x ∈ k.device.shadows) :
    ¬ (host.row size slot).Holds x.hostSlot := by
  rcases held.faithful x hx with outside | ⟨there, -⟩
  · exact outside _ (Argument.mem_arraySections.2 (.inr ⟨slot, mem, live, .inr rfl⟩))
  · refine apart.not_holds_row mem live (Argument.holds_slot there (Nat.le_refl _) ?_)
    exact Nat.lt_add_of_pos_right (by decide)

/-- A row has a place of its own. -/
theorem touches_row (pos : 0 < size) {others : List Nat}
    (inside' : ∀ other ∈ others, other ∈ a.slots ∧ slot ≠ other)
    (hp : p ∈ places) (inside : p.contains (host.readPointer slot) = true) :
    p.touches (⟨slot, Word.bytes⟩ :: others.flatMap (host.elementSections size)) = 0 := by
  obtain ⟨lower, upper⟩ := Mapping.contains_iff.1 inside
  -- what lies apart from the row neither made the place nor starts in it
  have misses : ∀ e : HostSection, p.IsOf e → e.Apart (host.row size slot) → False := fun e own away => by
    have first : (host.row size slot).first = host.readPointer slot := rfl
    have stop : (host.row size slot).stop = host.readPointer slot + size := rfl
    rcases own.misses away with before | after
    · omega
    · omega
  obtain ⟨e, he, own⟩ := held.own p hp
  have place : p.IsOf (host.row size slot) := by
    rcases Argument.mem_arraySections.1 he with rfl | ⟨other, mem', live', slots | rows⟩
    · exact (misses _ own (apart.array pos slot mem live)).elim
    · exact (misses _ own (apart.apart_row mem live pos (.inl slots) mem' live')).elim
    · by_cases same : slot = other
      · rwa [same, ← rows]
      · exact (misses _ own (apart.apart_row mem live pos (.inr ⟨rows, same⟩) mem' live')).elim
  have away : ∀ e : HostSection, 0 < e.size → e.Apart (host.row size slot) → ¬ p.contains e.first = true := by
    intro e nonempty away there
    obtain ⟨lower, upper⟩ := Mapping.contains_iff.1 there
    rw [place.first] at lower
    rw [place.stop] at upper
    have stop : e.stop = e.first + e.size := rfl
    rcases away with before | after
    · omega
    · omega
  have word : 0 < Word.bytes := by decide
  refine List.countP_eq_zero.2 fun e he => ?_
  rcases List.mem_cons.1 he with rfl | he
  · exact away _ word (apart.apart_row mem live pos (.inl rfl) mem live)
  · obtain ⟨other, there, live', slots | rows⟩ := Argument.mem_elementSections.1 he
    · exact away e (slots ▸ word)
        (apart.apart_row mem live pos (.inl slots) (inside' other there).1 live')
    · exact away e (by rw [rows]; exact pos) (apart.apart_row mem live pos
        (.inr ⟨rows, (inside' other there).2⟩) (inside' other there).1 live')

end row

end ArrayHeld

namespace Region

open RegionM

variable {settings : Settings} {a : Argument} {host : HostMemory} {size slot : Nat} {l k : Link}
  {places : List Mapping} {start t t' : RegionState} {u : Unit} {others : List Nat}

/-- Whether leaving copies an array back when it releases its own reference. -/
def arrayComesBack (a : Argument) (host : HostMemory) : Bool := comesBack a (decide (a.AllNull host))

section array

variable (held : ArrayHeld settings a size start.host l places start.activation.link) (array : a.PointerArray)
  (mild : a.mapType.has .delete = true → a.AllNull start.host)

omit held in
include array mild in
/-- The array is released by force only if that gives its last reference back. -/
theorem gentle_array :
    Gentle places (a.slots.flatMap (start.host.elementSections size)) a.unnested := by
  refine ⟨array.member_unnested, fun delete p _ _ => ?_⟩
  rw [Argument.has_unnested (by decide) (by decide)] at delete
  rw [(mild delete).elements]
  rfl

include held array mild

/-- The array gives its own reference back, and it may come back. -/
theorem released_array (ran : Returns (unmapRegion settings false a.unnested) start u t) :
    l.Remains places (a.slots.flatMap (start.host.elementSections size)) start.activation.link
        t.activation.link ∧ ((a.size = 0 ∧ t.host = start.host) ∨ ∃ p ∈ places,
        p.contains a.start = true ∧ (arrayComesBack a start.host = false → t.host = start.host) ∧
        (arrayComesBack a start.host = true → TakesBack settings a.unnested (p.translate a.start)
          start.activation.link start.host t.host)) := by
  obtain ⟨t₁, released, ⟨-, rfl⟩ | ⟨pointer, -⟩⟩ := returns_unmapRegion ran array.isMapped_unnested
  · obtain ⟨remains, ⟨empty, rfl⟩ | ⟨p, hp, inside, released⟩⟩ :=
      remains_of_releaseSection (gentle_array array mild) held.remains released
    · exact ⟨remains, .inl ⟨empty, rfl⟩⟩
    · have decided : comesBack a.unnested
          (decide (p.touches (a.slots.flatMap (start.host.elementSections size)) = 0)) =
            arrayComesBack a start.host := by
        rw [arrayComesBack, comesBack, comesBack, Argument.has_unnested (by decide) (by decide),
          Argument.has_unnested (by decide) (by decide), decide_eq_decide.2 (held.touches_elements hp inside)]
      refine ⟨remains, .inr ⟨p, hp, inside, ?_, ?_⟩⟩
      · rw [← decided]
        exact released.kept
      · rw [← decided]
        exact released.copied
  · rw [array.pointer_unnested] at pointer
    cases pointer

/-- The array can give its own reference back. -/
theorem exists_released_array (space : ∀ p ∈ places, p.InSpace)
    (reliable : start.activation.link.accelerator.Reliable) :
    ∃ t, Returns (unmapRegion settings false a.unnested) start () t := by
  obtain ⟨t, released⟩ : ∃ t, Returns (releaseSection settings false a.unnested) start () t :=
    exists_releaseSection space reliable (gentle_array array mild) held.remains.outstanding
  refine ⟨t, ?_⟩
  rw [unmapRegion, array.isMapped_unnested, Bool.not_true, if_neg Bool.false_ne_true]
  refine returns_bind.2 ⟨(), t, released, ?_⟩
  rw [array.pointer_unnested, Bool.false_and, if_neg Bool.false_ne_true]
  exact returns_pure.2 ⟨rfl, rfl⟩

/-- Each byte of the array is the host's after that, or it is taken from the device and belongs to no pointer
that was patched. -/
theorem byte_released_array (ran : Returns (unmapRegion settings false a.unnested) start u t) {i : Nat}
    (hi : i < a.size) : t.host.byte (a.start + i) = start.host.byte (a.start + i) ∨
      arrayComesBack a start.host = true ∧
      (settings.config.translatesOnDevice = true ∨ ¬ a.InElement start.host (a.start + i)) ∧
      ∃ p ∈ places, p.contains a.start = true ∧
        start.activation.link.byte? (p.translate a.start + i) = some (t.host.byte (a.start + i)) := by
  obtain ⟨-, ⟨empty, -⟩ | ⟨p, hp, inside, kept, copied⟩⟩ := released_array held array mild ran
  · omega
  · cases comes : arrayComesBack a start.host with
    | false => exact .inl (by rw [kept comes])
    | true =>
        rcases (copied comes).byte_remembered (fun x hx inside => (held.faithful_array hx inside).2.2) hi with
          same | ⟨free, taken⟩
        · exact .inl same
        · refine .inr ⟨rfl, ?_, p, hp, inside, taken⟩
          cases translates : settings.config.translatesOnDevice with
          | true => exact .inl rfl
          | false =>
              rcases free with free | free
              · rw [translates] at free
                cases free
              · refine .inr fun ⟨slot, mem, live, lower, upper⟩ => ?_
                obtain ⟨x, hx, rfl⟩ := held.remembers translates slot mem live
                exact free x hx (Argument.holds_slot mem (Nat.le_refl _)
                  (Nat.lt_add_of_pos_right (by decide))) ⟨lower, upper⟩

end array

/-! ## The rows -/

section rows

variable (held : ArrayHeld settings a size host l places k) (apart : a.RowsApart host size)
  (mild : a.mapType.has .delete = true → a.AllNull host)

variable (mem : slot ∈ a.slots) (live : host.readPointer slot ≠ 0)
  (inside : ∀ other ∈ others, other ∈ a.slots ∧ slot ≠ other)

include mild mem live in
/-- A row is not released by force. -/
theorem gentle_row {rest : List HostSection} :
    Gentle places rest (a.rowRegion size slot (host.readPointer slot)) := by
  refine ⟨Argument.isMember_rowType, fun delete => ?_⟩
  rw [show (a.rowRegion size slot (host.readPointer slot)).mapType.has .delete = a.mapType.has .delete from
    Argument.has_rowType_inherited (by decide)] at delete
  exact absurd (mild delete slot mem) live

include live in
/-- The slot of an element and its row come first. -/
theorem perm_element : ((slot :: others).flatMap (host.elementSections size)).Perm
    (host.row size slot :: ⟨slot, Word.bytes⟩ :: others.flatMap (host.elementSections size)) := by
  rw [List.flatMap_cons, HostMemory.elementSections_live live]
  exact .swap _ _ _

include held apart mild mem live inside

/-- The element at a slot gives its references back. Its row has the bytes of the device then, if it comes from
there, and all other bytes of the host stay as they are. -/
theorem released_row
    (h : l.Remains places ((slot :: others).flatMap (host.elementSections size)) k t.activation.link)
    (ran : Returns (unmapRegion settings false (a.rowRegion size slot (host.readPointer slot))) t u t') :
    l.Remains places (others.flatMap (host.elementSections size)) k t'.activation.link ∧
      (∀ addr, ¬ (host.row size slot).Holds addr → t'.host.byte addr = t.host.byte addr) ∧
      (a.mapType.has .fromDevice = true → k.CopiedTo t'.host (host.row size slot)) := by
  obtain ⟨t₁, released, ⟨pointer, -⟩ | ⟨-, slotReleased⟩⟩ := returns_unmapRegion ran Argument.isMapped_rowRegion
  · rw [show (a.rowRegion size slot (host.readPointer slot)).mapType.has .pointerAndObject = true from
      Argument.pointer_rowType, show (a.rowRegion size slot (host.readPointer slot)).mapType.isMember = false
      from Argument.isMember_rowType] at pointer
    cases pointer
  · obtain ⟨remains, row⟩ := remains_of_releaseSection (gentle_row mild mem live)
      (h.perm (perm_element live)) released
    obtain ⟨remains', -, same⟩ := remains_of_releasePointer remains slotReleased
    have forgotten : ∀ x ∈ t.activation.link.device.shadows, ¬ (host.row size slot).Holds x.hostSlot :=
      fun x hx => held.forgotten_row apart mem live (h.shadows x hx)
    rcases row with ⟨empty, rfl⟩ | ⟨p, hp, there, row⟩
    · refine ⟨remains', fun addr _ => by rw [same], fun _ pos => ?_⟩
      exact absurd pos (Nat.not_lt.2 (Nat.le_of_eq empty))
    · refine ⟨remains', fun addr outside => ?_, fun comes pos => ?_⟩
      · rw [same]
        cases back : comesBack (a.rowRegion size slot (host.readPointer slot)) (decide (p.touches
            (⟨slot, Word.bytes⟩ :: others.flatMap (host.elementSections size)) = 0)) with
        | false => rw [row.kept back]
        | true => exact ((row.copied back).byte_unremembered forgotten).2 addr outside
      · have back : comesBack (a.rowRegion size slot (host.readPointer slot)) (decide (p.touches
            (⟨slot, Word.bytes⟩ :: others.flatMap (host.elementSections size)) = 0)) = true := by
          rw [held.touches_row apart mem live pos inside hp there, comesBack,
            show (a.rowRegion size slot (host.readPointer slot)).mapType.has .fromDevice =
              a.mapType.has .fromDevice from Argument.has_rowType_inherited (by decide), comes]
          rfl
        have outstanding := held.outstanding
        have place := outstanding.lookup_place (s := host.row size slot) outstanding.fit hp there
          (held.touches_pos hp)
        refine ⟨p.translate (host.readPointer slot), ?_, fun i hi => ?_⟩
        · rw [Device.translate?, place]
          rfl
        · rw [same]
          exact h.fades.byte? (((row.copied back).byte_unremembered forgotten).1 i hi)

omit held apart inside in
/-- The element at a slot can be released. -/
theorem exists_released_row
    (h : l.Remains places ((slot :: others).flatMap (host.elementSections size)) k t.activation.link)
    (space : ∀ p ∈ places, p.InSpace) (reliable : t.activation.link.accelerator.Reliable) :
    ∃ t', Returns (unmapRegion settings false (a.rowRegion size slot (host.readPointer slot))) t () t' := by
  have gentle {rest : List HostSection} : Gentle places rest (a.rowRegion size slot (host.readPointer slot)) :=
    gentle_row mild mem live
  have remains := h.perm (perm_element live)
  obtain ⟨t₁, released⟩ : ∃ t₁, Returns (releaseSection settings false
      (a.rowRegion size slot (host.readPointer slot))) t () t₁ :=
    exists_releaseSection space reliable gentle remains.outstanding
  obtain ⟨remains', -⟩ := remains_of_releaseSection gentle remains released
  have service := admits_sameService.toLeaves.releaseSection.returns released
  obtain ⟨t', slotReleased⟩ :=
    exists_releasePointer (Link.SameService.reliable service reliable) remains'.outstanding
  refine ⟨t', ?_⟩
  rw [unmapRegion, Argument.isMapped_rowRegion, Bool.not_true, if_neg Bool.false_ne_true]
  refine returns_bind.2 ⟨(), t₁, released, ?_⟩
  rw [show (a.rowRegion size slot (host.readPointer slot)).mapType = a.rowType from rfl,
    Argument.pointer_rowType, Argument.isMember_rowType]
  exact slotReleased

end rows

/-! ## All elements -/

section elements

variable (held : ArrayHeld settings a size host l places k) (apart : a.RowsApart host size)
  (mild : a.mapType.has .delete = true → a.AllNull host) {slots : List Nat}
  (inside : ∀ slot ∈ slots, slot ∈ a.slots) (distinct : slots.Nodup)
  (same : ∀ addr, a.hostSection.Holds addr → t.host.byte addr = host.byte addr)
  (h : l.Remains places (slots.flatMap (host.elementSections size)) k t.activation.link)

include same in
omit h in
/-- As long as the array has its bytes, it has its pointers. -/
theorem readPointer_array (mem : slot ∈ a.slots) : t.host.readPointer slot = host.readPointer slot :=
  HostMemory.readPointer_congr fun _ hi =>
    same _ (Argument.holds_slot mem (Nat.le_add_right _ _) (Nat.add_lt_add_left hi _))

include held apart mild inside distinct same h

/-- The elements give their references back one after the other. The rows have the bytes of the device then, if
they come from there, and all other bytes of the host stay as they are. -/
theorem released_rows (ran : Returns (forRegions (unmapRegion settings false)
      (slots.map fun slot => .pointee slot size a.rowType)) t u t') :
    l.Remains places [] k t'.activation.link ∧
      (∀ addr, (∀ slot ∈ slots, host.readPointer slot ≠ 0 → ¬ (host.row size slot).Holds addr) →
        t'.host.byte addr = t.host.byte addr) ∧
      (a.mapType.has .fromDevice = true → ∀ slot ∈ slots, host.readPointer slot ≠ 0 →
        k.CopiedTo t'.host (host.row size slot)) := by
  induction slots generalizing t with
  | nil =>
      obtain ⟨-, rfl⟩ := returns_pure.1 ran
      exact ⟨h, fun _ _ => rfl, fun _ => List.forall_mem_nil _⟩
  | cons slot others ih =>
      obtain ⟨mem, inside'⟩ := List.forall_mem_cons.1 inside
      obtain ⟨fresh, distinct'⟩ := List.nodup_cons.1 distinct
      have pointer := readPointer_array same mem
      rw [List.map_cons, forRegions, returns_get_bind] at ran
      by_cases live : host.readPointer slot = 0
      · rw [List.flatMap_cons, HostMemory.elementSections_null live, List.nil_append] at h
        rw [RegionPlan.resolve, pointer.trans live] at ran
        obtain ⟨remains, kept, copied⟩ := ih inside' distinct' same h ran
        exact ⟨remains, fun addr outside => kept addr fun other there => outside other (.tail _ there),
          fun comes => List.forall_mem_cons.2 ⟨fun some => absurd live some, copied comes⟩⟩
      · have others' : ∀ other ∈ others, other ∈ a.slots ∧ slot ≠ other := fun other there =>
          ⟨inside' other there, fun eq => fresh (eq ▸ there)⟩
        have live' : t.host.readPointer slot ≠ 0 := by rwa [pointer]
        rw [Argument.resolve_pointee live', pointer] at ran
        obtain ⟨_, t₁, first, rest⟩ := returns_bind.1 ran
        obtain ⟨remains, kept, copied⟩ := released_row held apart mild mem live others' h first
        have same' : ∀ addr, a.hostSection.Holds addr → t₁.host.byte addr = host.byte addr :=
          fun addr holds => (kept addr (apart.not_holds_row mem live holds)).trans (same addr holds)
        obtain ⟨remains', kept', copied'⟩ := ih inside' distinct' same' remains rest
        refine ⟨remains', fun addr outside => ?_,
          fun comes => List.forall_mem_cons.2 ⟨fun _ => ?_, copied' comes⟩⟩
        · rw [kept' addr fun other there => outside other (.tail _ there),
            kept addr (outside slot (.head _) live)]
        · refine (copied comes).congr fun addr holds => kept' addr fun other there live' => ?_
          exact apart.not_holds_other (inside' other there) live' mem (others' other there).2.symm live holds

/-- The elements can be released. -/
theorem exists_released_rows (space : ∀ p ∈ places, p.InSpace)
    (reliable : t.activation.link.accelerator.Reliable) :
    ∃ t', Returns (forRegions (unmapRegion settings false)
      (slots.map fun slot => .pointee slot size a.rowType)) t () t' := by
  induction slots generalizing t with
  | nil => exact ⟨t, returns_pure.2 ⟨rfl, rfl⟩⟩
  | cons slot others ih =>
      obtain ⟨mem, inside'⟩ := List.forall_mem_cons.1 inside
      obtain ⟨fresh, distinct'⟩ := List.nodup_cons.1 distinct
      have pointer := readPointer_array same mem
      rw [List.map_cons, forRegions]
      simp only [returns_get_bind]
      by_cases live : host.readPointer slot = 0
      · rw [List.flatMap_cons, HostMemory.elementSections_null live, List.nil_append] at h
        rw [RegionPlan.resolve, pointer.trans live]
        exact ih inside' distinct' same h reliable
      · have others' : ∀ other ∈ others, other ∈ a.slots ∧ slot ≠ other := fun other there =>
          ⟨inside' other there, fun eq => fresh (eq ▸ there)⟩
        have live' : t.host.readPointer slot ≠ 0 := by rwa [pointer]
        rw [Argument.resolve_pointee live', pointer]
        obtain ⟨t₁, first⟩ := exists_released_row mild mem live h space reliable
        obtain ⟨remains, kept, -⟩ := released_row held apart mild mem live others' h first
        have service := admits_sameService.toLeaves.unmapRegion.returns first
        obtain ⟨t', rest⟩ := ih inside' distinct' (fun addr holds =>
          (kept addr (apart.not_holds_row mem live holds)).trans (same addr holds)) remains
          (Link.SameService.reliable service reliable)
        exact ⟨t', returns_bind.2 ⟨(), t₁, first, rest⟩⟩

end elements

/-! ## Leaving -/

/-- Leaving a region with a pointer array releases the array and then its elements. -/
theorem returns_leave_array (list : t.arguments.IsPointerArray a size) :
    Returns (leave settings) t u t' ↔ ∃ t₁, Returns (unmapRegion settings false a.unnested) t () t₁ ∧
      Returns (forRegions (unmapRegion settings false)
        (a.slots.map fun slot => .pointee slot size a.rowType)) t₁ u t' := by
  have got : Returns (arguments (·.get 0)) t a t :=
    returns_arguments.2 ⟨ArgumentList.get_eq_ok.2 list.getElem?, rfl⟩
  have found : Returns (arguments (·.plans 0)) t (a.arrayPlans size) t :=
    returns_arguments.2 ⟨list.plans, rfl⟩
  have unpadded : isPadded t.arguments 0 a = false := by
    rw [isPadded, list.array.nested]
    rfl
  have ran : exec (leave settings) t =
      exec (forRegions (unmapRegion settings false) (a.arrayPlans size)) t := by
    rw [leave, exec_get_bind, show t.arguments.size = 1 from congrArg List.length list.arguments]
    change exec (unmapArgument settings 0 >>= fun _ => pure ()) t = _
    rw [bind_pure_unit, unmapArgument, exec_bind_ok got, list.array.isMapped, Bool.not_true,
      if_neg Bool.false_ne_true, exec_get_bind, unpadded, exec_bind_ok found]
  rw [Returns, ran, Argument.arrayPlans, forRegions_known]
  constructor
  · intro h
    obtain ⟨_, t₁, first, rest⟩ := returns_bind.1 h
    exact ⟨t₁, first, rest⟩
  · rintro ⟨t₁, first, rest⟩
    exact returns_bind.2 ⟨(), t₁, first, rest⟩

end Region

end Offloading
