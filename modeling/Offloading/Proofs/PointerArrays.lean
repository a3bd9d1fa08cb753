import Offloading.Proofs.Expansions
import Offloading.Proofs.OutstandingSections
/-!
# Pointer arrays

An argument may stand for an array of pointers and for the rows that its elements point at. Entering a
region maps the array, and then for each element that is not null its slot, which lies in the array, and its
row. So the array is held once for itself and once more for each such element, and each row is held once.
-/

namespace Offloading

/-! ## Arrays and their rows -/

namespace HostMemory

/-- What the pointer at a slot points at, if a row has `size` bytes. -/
def row (host : HostMemory) (size slot : Nat) : HostSection := ⟨host.readPointer slot, size⟩

/-- The sections that are mapped for the element at a slot: its slot and its row, if it is not null. -/
def elementSections (host : HostMemory) (size slot : Nat) : List HostSection :=
  if host.readPointer slot = 0 then [] else [⟨slot, Word.bytes⟩, host.row size slot]

variable {host : HostMemory} {size slot : Nat}

theorem elementSections_null (h : host.readPointer slot = 0) : host.elementSections size slot = [] :=
  if_pos h

theorem elementSections_live (h : host.readPointer slot ≠ 0) :
    host.elementSections size slot = [⟨slot, Word.bytes⟩, host.row size slot] :=
  if_neg h

end HostMemory

namespace Argument

variable {a : Argument} {host : HostMemory} {size slot start : Nat}

/-- How the rows of an array are mapped. -/
def rowType (a : Argument) : MapType :=
  ((a.mapType.keep Descriptor.inherited).set [.pointerAndObject]).clear [.nested, .hasNested]

/-- The region of the row that the element at a slot points at. -/
def rowRegion (a : Argument) (size slot start : Nat) : Argument := ⟨slot, start, size, a.rowType⟩

/-- What an array of pointers to rows of `size` bytes stands for. -/
def arrayPlans (a : Argument) (size : Nat) : List RegionPlan :=
  .known a.unnested :: a.slots.map fun slot => .pointee slot size a.rowType

/-- The sections that are mapped for an array and its rows. -/
def arraySections (a : Argument) (host : HostMemory) (size : Nat) : List HostSection :=
  a.hostSection :: a.slots.flatMap (host.elementSections size)

/-- The argument is a nested one whose section may be an array of pointers. -/
structure PointerArray (a : Argument) : Prop where
  kind : a.kind = .plain
  nested : a.mapType.has .nested = true
  explicit : a.mapType.has .implicit = false
  member : a.mapType.isMember = false
  silent : a.mapType.has .returnParam = false
  whole : a.size % Word.bytes = 0

/-- An array takes less than half of the address space, as every object does, and all of it and of its rows lies
there. If its rows have bytes, then they lie apart from each other and from the array. -/
structure RowsApart (a : Argument) (host : HostMemory) (size : Nat) : Prop where
  small : a.size < Word.signBit
  bounded : ∀ s ∈ a.arraySections host size, s.stop ≤ Word.greatest
  array : 0 < size → ∀ slot ∈ a.slots, host.readPointer slot ≠ 0 → a.hostSection.Apart (host.row size slot)
  rows : 0 < size → ∀ slot ∈ a.slots, ∀ other ∈ a.slots, slot ≠ other → host.readPointer slot ≠ 0 →
    host.readPointer other ≠ 0 → (host.row size slot).Apart (host.row size other)

theorem has_unnested {f : MapFlag} (nested : f ≠ .nested) (hasNested : f ≠ .hasNested) :
    a.unnested.mapType.has f = a.mapType.has f :=
  MapType.has_unnested nested hasNested

theorem isMember_rowType : a.rowType.isMember = false := by
  rw [rowType, MapType.isMember_clear, MapType.isMember_set, MapType.isMember_keep]

theorem has_rowType {f : MapFlag} (nested : f ≠ .nested) (hasNested : f ≠ .hasNested) :
    a.rowType.has f =
      (a.mapType.has f && Descriptor.inherited.contains f || [MapFlag.pointerAndObject].contains f) := by
  rw [rowType, MapType.has_unnested nested hasNested, MapType.has_set, MapType.has_keep]

/-- The rows take over how the array is copied. -/
theorem has_rowType_inherited {f : MapFlag} (h : f ∈ Descriptor.inherited) :
    a.rowType.has f = a.mapType.has f := by
  simp only [Descriptor.inherited, List.mem_cons, List.not_mem_nil, or_false] at h
  rcases h with rfl | rfl | rfl | rfl
  all_goals
    rw [has_rowType (by decide) (by decide)]
    simp [Descriptor.inherited]

theorem isMapped_rowRegion : (a.rowRegion size slot start).isMapped = true := by
  have has {f : MapFlag} (nested : f ≠ .nested) (hasNested : f ≠ .hasNested) :=
    has_rowType (a := a) nested hasNested
  have literal : a.rowType.has .literal = false := by
    rw [has (by decide) (by decide)]
    simp [Descriptor.inherited]
  have copy : a.rowType.has .privateCopy = false := by
    rw [has (by decide) (by decide)]
    simp [Descriptor.inherited]
  have pointer : a.rowType.has .pointerAndObject = true := by
    rw [has (by decide) (by decide)]
    simp
  rw [isMapped, kind, MapType.isLambdaCapture]
  simp only [rowRegion, literal, copy, pointer]
  rfl

theorem implicit_rowType : a.rowType.has .implicit = false := by
  rw [has_rowType (by decide) (by decide)]
  simp [Descriptor.inherited]

theorem pointer_rowType : a.rowType.has .pointerAndObject = true := by
  rw [has_rowType (by decide) (by decide)]
  simp

theorem silent_rowType : a.rowType.has .returnParam = false := by
  rw [has_rowType (by decide) (by decide)]
  simp [Descriptor.inherited]

/-- A plan of an array stands for the array, or for a row whose element is not null. -/
theorem resolve_arrayPlans {plan : RegionPlan} {r : Argument} (hp : plan ∈ a.arrayPlans size)
    (found : plan.resolve host = some r) : r = a.unnested ∨ ∃ slot ∈ a.slots,
      host.readPointer slot ≠ 0 ∧ r = a.rowRegion size slot (host.readPointer slot) := by
  rcases List.mem_cons.1 hp with rfl | hp
  · exact .inl (Option.some.inj found).symm
  · obtain ⟨slot, mem, rfl⟩ := List.mem_map.1 hp
    rw [RegionPlan.resolve] at found
    split at found
    · cases found
    · rename_i start live
      exact .inr ⟨slot, mem, live, (Option.some.inj found).symm⟩

theorem resolve_pointee (live : host.readPointer slot ≠ 0) :
    (RegionPlan.pointee slot size a.rowType).resolve host =
      some (a.rowRegion size slot (host.readPointer slot)) := by
  rw [RegionPlan.resolve]
  split
  · rename_i null
    exact absurd null live
  · rfl

namespace PointerArray

variable (h : a.PointerArray)

include h

theorem isMapped : a.isMapped = true := isMapped_of_kind h.kind

theorem isMapped_unnested : a.unnested.isMapped = true := Argument.isMapped_unnested.trans h.isMapped

theorem pointer_unnested : a.unnested.mapType.has .pointerAndObject = false :=
  (has_unnested (by decide) (by decide)).trans (pointer_of_kind h.kind)

theorem member_unnested : a.unnested.mapType.isMember = false := MapType.isMember_clear.trans h.member

end PointerArray

end Argument

namespace ArgumentList

variable {args : ArgumentList} {a : Argument} {size : Nat}

/-- The only argument of the list is an array of pointers to rows of `size` bytes. -/
structure IsPointerArray (args : ArgumentList) (a : Argument) (size : Nat) : Prop where
  arguments : args.arguments = [a]
  descriptor : args.descriptors[0]? = some (.pointerArray size)
  array : a.PointerArray

theorem IsPointerArray.getElem? (h : args.IsPointerArray a size) : args.arguments[0]? = some a := by
  rw [h.arguments]
  rfl

theorem IsPointerArray.plans (h : args.IsPointerArray a size) : args.plans 0 = .ok (a.arrayPlans size) := by
  have whole : ¬ a.size % Word.bytes ≠ 0 := not_not_intro h.array.whole
  have descriptor : args.descriptors[args.descriptorIndex 0]? = some (.pointerArray size) := h.descriptor
  rw [plans_of_nested h.getElem? h.array.nested, descriptor]
  dsimp only
  rw [Descriptor.expand, if_neg whole]
  simp only [Except.map, Except.mapError, List.map_cons, List.map_map, Argument.arrayPlans, Argument.slots]
  rfl

end ArgumentList

/-! ## Mapping the elements -/

namespace Region

open RegionM

variable {settings : Settings} {r a : Argument} {s s' : RegionState} {l : Link} {u : Unit}
  {places : List Mapping} {n : Mapping → Nat} {done : List HostSection} {slots : List Nat} {size : Nat}

/-- Mapping a region with a pointer of its own is mapping the slot, then the section, and sending what has to
be sent. -/
theorem returns_mapRegion_pointer {b : Option Nat} (mapped : r.isMapped = true)
    (pointer : r.mapType.has .pointerAndObject = true) (explicit : r.mapType.has .implicit = false)
    (member : r.mapType.isMember = false) (h : Returns (mapRegion settings false r) s b s') :
    ∃ slot? k base mapped? l, Returns (Device.map r.base r.base Word.bytes false true) s.activation.link slot? k ∧
      Returns (Device.map r.start base r.size false true) k mapped? l ∧ l.Still s'.activation.link := by
  obtain ⟨pointer?, s₁, mapped?, l, s₂, first, size, base, sec, hp, -, taken, hc, hq, -⟩ :=
    returns_mapRegion h mapped
  obtain ⟨rfl, rfl⟩ := Prod.mk.inj sec
  have sent := Lasting.trans (along_copyIn.returns hc) (along_patchPointer.returns hq)
  rcases returns_mapPointer hp with ⟨none, -⟩ | ⟨-, slot, k, found, rfl, rfl⟩
  · rw [pointer] at none
    cases none
  · rw [explicit, member] at found
    rw [explicit] at taken
    exact ⟨_, k, base, mapped?, l, found, taken, sent.link⟩

/-- A region that writes no base back gives none. -/
theorem returns_mapRegion_silent {padded : Bool} {b : Option Nat} (silent : r.mapType.has .returnParam = false)
    (h : Returns (mapRegion settings padded r) s b s') : b = none := by
  cases mapped : r.isMapped with
  | false =>
      rw [mapRegion, mapped] at h
      exact (returns_pure.1 h).1
  | true =>
      obtain ⟨pointer?, s₁, mapped?, l, s₂, first, size, base, -, -, -, -, -, -, given⟩ :=
        returns_mapRegion h mapped
      rw [given, silent]
      rfl

/-- Regions that write no base back give none. -/
theorem returns_mapPlans_silent {padded : Bool} {plans : List RegionPlan} {b : Option Nat}
    (silent : ∀ plan ∈ plans, ∀ host r, plan.resolve host = some r → r.mapType.has .returnParam = false)
    (h : Returns (mapPlans settings padded plans none) s b s') : b = none := by
  induction plans generalizing s with
  | nil => exact (returns_pure.1 h).1
  | cons plan rest ih =>
      obtain ⟨here, later⟩ := List.forall_mem_cons.1 silent
      rw [mapPlans, returns_get_bind] at h
      cases found : plan.resolve s.host with
      | none =>
          rw [found] at h
          exact ih later h
      | some r =>
          rw [found] at h
          obtain ⟨base, s₁, first, more⟩ := returns_bind.1 h
          obtain rfl := returns_mapRegion_silent (here _ r found) first
          exact ih later more

/-- Mapping elements takes their slots and rows one after the other. -/
theorem taken_mapElements {returned b : Option Nat} (h : l.Taken done places n s.activation.link)
    (few : done.length + (slots.flatMap (s.host.elementSections size)).length ≤
      ReferenceCount.infinite.value / 2)
    (untouched : ∀ e ∈ slots.flatMap (s.host.elementSections size), ∀ m ∈ l.device.mappings,
      m.Untouched e)
    (words : ∀ e ∈ slots.flatMap (s.host.elementSections size), e.stop ≤ Word.greatest)
    (mapped : Returns (mapPlans settings false
      (slots.map fun slot => .pointee slot size a.rowType) returned) s b s') :
    ∃ new n', l.Taken (done ++ slots.flatMap (s.host.elementSections size)) (new ++ places) n'
        s'.activation.link ∧
      Link.Adds done (slots.flatMap (s.host.elementSections size)) places new n n' := by
  induction slots generalizing s n places done returned with
  | nil =>
      obtain ⟨-, rfl⟩ := returns_pure.1 mapped
      exact ⟨[], n, by rwa [List.flatMap_nil, List.append_nil], .nil⟩
  | cons slot rest ih =>
      rw [List.map_cons, mapPlans, returns_get_bind] at mapped
      rw [List.flatMap_cons] at few untouched words ⊢
      cases start : s.host.readPointer slot with
      | zero =>
          rw [HostMemory.elementSections_null start, List.nil_append] at few untouched words ⊢
          rw [RegionPlan.resolve, start] at mapped
          exact ih h few untouched words mapped
      | succ k =>
          have split : s.host.elementSections size slot = [⟨slot, Word.bytes⟩, ⟨k + 1, size⟩] := by
            rw [HostMemory.elementSections_live (by rw [start]; exact Nat.succ_ne_zero k), HostMemory.row,
              start]
          rw [split, List.cons_append, List.singleton_append] at few untouched words ⊢
          obtain ⟨freeSlot, untouched⟩ := List.forall_mem_cons.1 untouched
          obtain ⟨freeRow, untouched⟩ := List.forall_mem_cons.1 untouched
          obtain ⟨slotWord, words⟩ := List.forall_mem_cons.1 words
          obtain ⟨rowWord, words⟩ := List.forall_mem_cons.1 words
          rw [List.length_cons, List.length_cons] at few
          rw [RegionPlan.resolve, start] at mapped
          obtain ⟨base, s₁, first, more⟩ := returns_bind.1 mapped
          have host : s₁.host = s.host := (along_mapRegion.returns first).host
          obtain ⟨slot?, l₁, base, row?, l₂, found, took, still⟩ := returns_mapRegion_pointer
            Argument.isMapped_rowRegion Argument.pointer_rowType Argument.implicit_rowType
            Argument.isMember_rowType first
          obtain ⟨new₁, n₁, taken₁, adds₁⟩ := h.take (s := ⟨slot, Word.bytes⟩) (by omega) freeSlot slotWord found
          obtain ⟨new₂, n₂, taken₂, adds₂⟩ := taken₁.take (s := ⟨k + 1, size⟩)
            (by rw [List.length_append, List.length_singleton]; omega) freeRow rowWord took
          rw [← host] at few untouched words ⊢
          obtain ⟨new₃, n₃, taken₃, adds₃⟩ := ih (taken₂.still still)
            (by simp only [List.length_append, List.length_singleton]; omega) untouched words more
          refine ⟨new₃ ++ new₂ ++ new₁, n₃, ?_, .cons taken₁ ?_ adds₁ (.cons taken₂ taken₃.fit adds₂ adds₃)⟩
          · simpa only [List.append_assoc, List.cons_append, List.nil_append] using taken₃
          · simpa only [List.append_assoc] using taken₃.fit

end Region

/-! ## Mapping the array -/

namespace Argument

variable {a : Argument} {host : HostMemory} {size slot : Nat} {e : HostSection}
  {earlier : List HostSection} {slots : List Nat}

theorem mem_elementSections : e ∈ slots.flatMap (host.elementSections size) ↔
    ∃ slot ∈ slots, host.readPointer slot ≠ 0 ∧ (e = ⟨slot, Word.bytes⟩ ∨ e = host.row size slot) := by
  rw [List.mem_flatMap]
  refine exists_congr fun slot => and_congr_right fun _ => ?_
  by_cases null : host.readPointer slot = 0
  · simp [HostMemory.elementSections_null null, null]
  · simp [HostMemory.elementSections_live null, null]

theorem mem_arraySections : e ∈ a.arraySections host size ↔ e = a.hostSection ∨
    ∃ slot ∈ a.slots, host.readPointer slot ≠ 0 ∧ (e = ⟨slot, Word.bytes⟩ ∨ e = host.row size slot) := by
  rw [arraySections, List.mem_cons, mem_elementSections]

/-- What the sections of an array with empty rows hold is in the array. -/
theorem holds_array {addr : Nat} (inside : ∀ slot ∈ slots, slot ∈ a.slots) (empty : size = 0)
    (h : e ∈ slots.flatMap (host.elementSections size)) (holds : e.Holds addr) :
    a.hostSection.Holds addr := by
  obtain ⟨slot, mem, -, rfl | rfl⟩ := mem_elementSections.1 h
  · obtain ⟨lower, upper⟩ := mem_slots (inside slot mem)
    exact ⟨Nat.le_trans lower holds.1, Nat.lt_of_lt_of_le holds.2 upper⟩
  · have lower : host.readPointer slot ≤ addr := holds.1
    have upper : addr < host.readPointer slot + size := holds.2
    omega

/-- An empty row may start in the array, which is mapped before it. -/
theorem anchored_elements (slots : List Nat) (array : a.hostSection ∈ earlier)
    (inside : ∀ slot ∈ slots, slot ∈ a.slots) :
    HostSection.Anchored earlier (slots.flatMap (host.elementSections size)) := by
  induction slots generalizing earlier with
  | nil => trivial
  | cons slot rest ih =>
      have others := (List.forall_mem_cons.1 inside).2
      rw [List.flatMap_cons]
      cases start : host.readPointer slot with
      | zero =>
          rw [HostMemory.elementSections_null start]
          exact ih array others
      | succ k =>
          have there : a.hostSection ∈ earlier ++ [⟨slot, Word.bytes⟩] := List.mem_append_left _ array
          rw [HostMemory.elementSections_live (start ▸ Nat.succ_ne_zero k), List.cons_append,
            List.singleton_append]
          refine ⟨fun empty => absurd empty (Nat.ne_of_gt (show 0 < Word.bytes by decide)),
            fun empty later => ?_, ih (List.mem_append_left _ there) others⟩
          obtain ⟨r, hr, holds⟩ := later
          exact ⟨a.hostSection, there, holds_array others empty hr holds⟩

theorem anchored_arraySections : HostSection.Anchored [] (a.arraySections host size) := by
  refine ⟨fun empty later => ?_, anchored_elements a.slots (by simp) fun _ h => h⟩
  -- an empty array has no elements
  obtain ⟨r, hr, -⟩ := later
  obtain ⟨slot, mem, -⟩ := mem_elementSections.1 hr
  have bounds := mem_slots mem
  have none : a.size = 0 := empty
  rw [Word.bytes] at bounds
  omega

theorem length_elementSections (slots : List Nat) :
    (slots.flatMap (host.elementSections size)).length ≤ 2 * slots.length := by
  induction slots with
  | nil => exact Nat.le_refl 0
  | cons slot rest ih =>
      rw [List.flatMap_cons, List.length_append, List.length_cons]
      by_cases null : host.readPointer slot = 0
      · rw [HostMemory.elementSections_null null, List.length_nil]
        omega
      · rw [HostMemory.elementSections_live null, List.length_cons, List.length_singleton]
        omega

/-- There are not too many references for the counts. -/
theorem RowsApart.length_le (h : a.RowsApart host size) :
    (a.arraySections host size).length ≤ ReferenceCount.infinite.value / 2 := by
  have elements : (a.slots.flatMap (host.elementSections size)).length ≤ 2 * a.slots.length :=
    length_elementSections a.slots
  have small : a.size / Word.bytes ≤ (Word.signBit - 1) / Word.bytes :=
    Nat.div_le_div_right (Nat.le_pred_of_lt h.small)
  have bound : 2 * ((Word.signBit - 1) / Word.bytes) + 1 ≤ ReferenceCount.infinite.value / 2 := by decide
  rw [length_slots] at elements
  rw [arraySections, List.length_cons]
  omega

end Argument

namespace Region

open RegionM

variable {settings : Settings} {a : Argument} {s s' : RegionState} {u : Unit} {size : Nat}

/-- Mapping an array is mapping what it stands for, and no base is written back. -/
theorem returns_mapArray (list : s.arguments.IsPointerArray a size)
    (mapped : Returns (mapArgument settings 0) s u s') :
    Returns (mapPlans settings false (a.arrayPlans size) none) s none s' := by
  have array := list.array
  have unpadded : isPadded s.arguments 0 a = false := by
    rw [isPadded, array.nested]
    rfl
  unfold mapArgument at mapped
  obtain ⟨a', s₁, hg, rest⟩ := returns_bind.1 mapped
  obtain ⟨got, rfl⟩ := returns_arguments.1 hg
  rw [ArgumentList.get_eq_ok, list.getElem?, Option.some.injEq] at got
  subst got
  rw [array.isMapped, Bool.not_true, if_neg Bool.false_ne_true, returns_get_bind, unpadded] at rest
  obtain ⟨plans, s₂, hp, regions⟩ := returns_bind.1 rest
  obtain ⟨found, rfl⟩ := returns_arguments.1 hp
  rw [list.plans, Except.ok.injEq] at found
  subst found
  obtain ⟨base?, s₃, ran, finish⟩ := returns_bind.1 regions
  have silent : base? = none := by
    refine returns_mapPlans_silent (fun plan hp host r found => ?_) ran
    rcases Argument.resolve_arrayPlans hp found with rfl | ⟨slot, -, -, rfl⟩
    · exact (Argument.has_unnested (by decide) (by decide)).trans array.silent
    · exact Argument.silent_rowType
  subst silent
  obtain ⟨-, rfl⟩ := returns_pure.1 finish
  exact ran

/-- Entering a region with a pointer array maps what it stands for and sends what waits then. -/
theorem returns_enter_array (list : s.arguments.IsPointerArray a size)
    (entered : Returns (enter settings) s u s') :
    ∃ s₁, Returns (mapPlans settings false (a.arrayPlans size) none) s none s₁ ∧ Sent s₁ s' := by
  rw [enter, returns_get_bind, returns_bind] at entered
  obtain ⟨_, s₁, mapped, flushed⟩ := entered
  rw [show s.arguments.size = 1 from congrArg List.length list.arguments] at mapped
  obtain ⟨s₂, first, done⟩ := returns_forM_cons.1 mapped
  obtain ⟨-, rfl⟩ := returns_pure.1 done
  exact ⟨s₁, returns_mapArray list first, along_flush.returns flushed⟩

/-- Mapping an array and its rows takes their sections. -/
theorem taken_mapArray {l : Link} {b : Option Nat} (array : a.PointerArray) (apart : a.RowsApart s.host size)
    (start : l.Taken [] [] (fun _ => 0) s.activation.link)
    (untouched : ∀ e ∈ a.arraySections s.host size, ∀ m ∈ l.device.mappings, m.Untouched e)
    (mapped : Returns (mapPlans settings false (a.arrayPlans size) none) s b s') :
    ∃ places n, l.Taken (a.arraySections s.host size) places n s'.activation.link ∧
      Link.Adds [] (a.arraySections s.host size) [] places (fun _ => 0) n := by
  have few := apart.length_le
  have words := apart.bounded
  rw [Argument.arrayPlans, mapPlans, returns_get_bind] at mapped
  obtain ⟨base?, s₁, seed, elements⟩ := returns_bind.1 mapped
  have host := (along_mapRegion.returns seed).host
  obtain ⟨mapped?, l₁, took, still⟩ := returns_mapRegion_section array.isMapped_unnested
    array.pointer_unnested ((Argument.has_unnested (by decide) (by decide)).trans array.explicit)
    array.member_unnested seed
  rw [Argument.arraySections] at few untouched words ⊢
  rw [List.length_cons] at few
  obtain ⟨untouched, later⟩ := List.forall_mem_cons.1 untouched
  obtain ⟨word, words⟩ := List.forall_mem_cons.1 words
  obtain ⟨new, n, taken, adds⟩ := start.take (s := a.hostSection) (by decide) untouched word took
  rw [← host] at few later words ⊢
  obtain ⟨new', n', taken', adds'⟩ := taken_mapElements (taken.still still)
    (by rw [List.nil_append, List.length_singleton]; omega) later words elements
  refine ⟨new' ++ new, n', ?_, .cons taken taken'.fit adds adds'⟩
  rwa [List.append_nil] at taken'

/-- Entering a region with a pointer array maps the array and its rows where nothing is mapped. -/
theorem outstanding_enter (sound : s.activation.link.Sound) (list : s.arguments.IsPointerArray a size)
    (apart : a.RowsApart s.host size)
    (untouched : ∀ e ∈ a.arraySections s.host size, ∀ m ∈ s.activation.link.device.mappings,
      m.Untouched e)
    (entered : Returns (enter settings) s u s') :
    s'.arguments = s.arguments ∧ ∃ places,
      s.activation.link.Outstanding places (a.arraySections s.host size) s'.activation.link ∧
      ∀ p ∈ places, ∃ e ∈ a.arraySections s.host size, p.IsOf e := by
  obtain ⟨s₁, mapped, sent⟩ := returns_enter_array list entered
  obtain ⟨places, n, taken, adds⟩ := taken_mapArray list.array apart (.start sound) untouched mapped
  refine ⟨sent.arguments.trans ((along_mapPlans _ _).returns mapped).arguments, places,
    ⟨?_, taken.fit, fun e he => ⟨untouched e he, taken.lodged e he⟩, apart.length_le⟩, adds.own⟩
  exact (taken.still sent.link).toOccupied.congr fun p hp =>
    (adds.exact Argument.anchored_arraySections p hp).symm

end Region

end Offloading
