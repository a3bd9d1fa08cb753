import Offloading.Proofs.OwnBlocks
import Offloading.Proofs.PlainArguments
import Offloading.Proofs.Settlement
/-!
# Structs with pointers

Argument lists of structs that go to the device and come back, and of pointers in these structs with the
sections that they point at. When such a list is mapped in order, each section gets a mapping and a block of
its own, and all its bytes are to be sent; the slot of a pointer is found in the mapping of its struct.
-/

namespace Offloading

theorem MapType.has_ofFlags {flags : List MapFlag} {f : MapFlag} :
    (ofFlags flags).has f = flags.contains f := getLsbD_mask flags f

/-- All of a section lies in another one. -/
def HostSection.Inside (s s' : HostSection) : Prop := s'.first ≤ s.first ∧ s.stop ≤ s'.stop

/-- An address is that of a byte of the section. -/
def HostSection.Has (s : HostSection) (addr : Nat) : Prop := s.first ≤ addr ∧ addr < s.stop

theorem SectionFamily.eq_of_has {family : SectionFamily} {s s' : HostSection} {addr : Nat}
    (hs : s ∈ family) (hs' : s' ∈ family) (has : s.Has addr) (has' : s'.Has addr) : s = s' := by
  refine Classical.byContradiction fun ne => ?_
  have apart := SectionFamily.apart_of_ne hs hs' ne
  obtain ⟨lower, upper⟩ := has
  obtain ⟨lower', upper'⟩ := has'
  rcases apart with before | before
  · omega
  · omega

namespace Argument

/-- Whether the argument has a pointer. -/
def isPointer (a : Argument) : Bool := a.mapType.has .pointerAndObject

/-- Where the pointer of the argument lies, if it has one. -/
def slot (a : Argument) : HostSection := ⟨a.base, Word.bytes⟩

theorem slot_inside {a : Argument} {s : HostSection} :
    a.slot.Inside s ↔ s.first ≤ a.base ∧ a.base + Word.bytes ≤ s.first + s.size := Iff.rfl

theorem slot_has {a : Argument} {addr : Nat} :
    a.slot.Has addr ↔ a.base ≤ addr ∧ addr < a.base + Word.bytes := Iff.rfl

/-- The argument is a struct that goes to the device, is passed to the kernel, and comes back. It is mapped
from its first byte on, at the alignment of structs. -/
structure IsStruct (a : Argument) (alignment : Nat) : Prop where
  mapType : a.mapType = .ofFlags [.toDevice, .fromDevice, .targetParam]
  base : a.base = a.start
  aligned : a.start % alignment = 0

/-- The argument is a pointer in the struct at position `parent` and what it points at, which goes to the
device and comes back. -/
structure IsField (a : Argument) (parent : Nat) (struct : Argument) : Prop where
  mapType : a.mapType = (MapType.ofFlags [.toDevice, .fromDevice, .pointerAndObject]).withMemberOf parent
  inside : a.slot.Inside struct.hostSection

/-- The section of the argument goes to the device and comes back, and it is released as a whole. -/
structure Exchanged (a : Argument) : Prop extends a.Whole where
  toDevice : a.mapType.has .toDevice = true
  fromDevice : a.mapType.has .fromDevice = true
  implicit : a.mapType.has .implicit = false
  returnParam : a.mapType.has .returnParam = false

variable {alignment parent : Nat} {struct a : Argument}

namespace IsStruct

theorem has (h : a.IsStruct alignment) (f : MapFlag) :
    a.mapType.has f = [MapFlag.toDevice, .fromDevice, .targetParam].contains f := by
  rw [h.mapType, MapType.has_ofFlags]

theorem isPointer (h : a.IsStruct alignment) : a.isPointer = false := h.has _

theorem isMember (h : a.IsStruct alignment) : a.mapType.isMember = false := by
  rw [h.mapType]
  decide

theorem exchanged (h : a.IsStruct alignment) : a.Exchanged where
  isMapped := (isMapped_congr (a := ⟨0, 0, 0, .ofFlags [.toDevice, .fromDevice, .targetParam]⟩)
    fun f _ => by rw [h.mapType]).trans (by decide)
  toDevice := h.has _
  fromDevice := h.has _
  implicit := h.has _
  nested := h.has _
  delete := h.has _
  returnParam := h.has _
  isPlainMember := by rw [Region.isPlainMember, h.isMember, Bool.false_and]
  ownsSlot := by rw [Argument.ownsSlot, show a.mapType.has .pointerAndObject = false from h.isPointer,
    Bool.and_false, Bool.false_and]

end IsStruct

namespace IsField

theorem has (h : a.IsField parent struct) (f : MapFlag) :
    a.mapType.has f = [MapFlag.toDevice, .fromDevice, .pointerAndObject].contains f := by
  rw [h.mapType, MapType.has_withMemberOf, MapType.has_ofFlags]

theorem isPointer (h : a.IsField parent struct) : a.isPointer = true := h.has _

theorem memberOf? (h : a.IsField parent struct) (room : parent + 1 < 65536) :
    a.mapType.memberOf? = some parent := by
  rw [h.mapType, MapType.memberOf?_withMemberOf room]

theorem isMember (h : a.IsField parent struct) (room : parent + 1 < 65536) :
    a.mapType.isMember = true := by
  rw [MapType.isMember, h.memberOf? room]
  rfl

theorem exchanged_of_isMember (h : a.IsField parent struct) (member : a.mapType.isMember = true) :
    a.Exchanged where
  isMapped := (isMapped_congr (a := ⟨0, 0, 0, .ofFlags [.toDevice, .fromDevice, .pointerAndObject]⟩)
    fun f _ => by rw [h.has, MapType.has_ofFlags]).trans (by decide)
  toDevice := h.has _
  fromDevice := h.has _
  implicit := h.has _
  nested := h.has _
  delete := h.has _
  returnParam := h.has _
  isPlainMember := by
    rw [Region.isPlainMember, show a.mapType.has .pointerAndObject = true from h.isPointer]
    exact Bool.and_false _
  ownsSlot := by rw [Argument.ownsSlot, member, Bool.not_true, Bool.and_false]

theorem exchanged (h : a.IsField parent struct) (room : parent + 1 < 65536) : a.Exchanged :=
  h.exchanged_of_isMember (h.isMember room)

end IsField

end Argument

/-- The arguments are structs that go to the device and come back, and pointers in earlier structs. No two
of their sections overlap, and no two pointers do. -/
structure ArgumentList.PointerStructs (alignment : Nat) (args : ArgumentList) : Prop where
  /-- There is room for the positions of all structs in the map types of their members. -/
  short : args.size < 65535
  shape : ∀ (i : Nat) (a : Argument), args.arguments[i]? = some a → a.IsStruct alignment ∨
    ∃ (parent : Nat) (struct : Argument), parent < i ∧ args.arguments[parent]? = some struct ∧ struct.IsStruct alignment ∧
      a.IsField parent struct
  nonempty : ∀ s ∈ args.sections, 0 < s.size
  bounded : ∀ s ∈ args.sections, s.stop ≤ Word.greatest
  apart : args.sections.Pairwise HostSection.Apart
  slots : args.arguments.Pairwise fun a b => a.isPointer = true → b.isPointer = true →
    a.slot.Apart b.slot

theorem SectionFamily.nodup (family : SectionFamily) : family.sections.Nodup := by
  refine family.apart.imp_of_mem fun {s s'} hs _ apart same => ?_
  subst same
  have lt := SectionFamily.first_lt (show s ∈ family from hs)
  rcases apart with before | before
  · omega
  · omega

theorem ArgumentList.sections_drop {args : ArgumentList} {k : Nat} {a : Argument}
    (ha : args.arguments[k]? = some a) :
    args.sections.drop k = a.hostSection :: args.sections.drop (k + 1) := by
  have here : args.sections[k]? = some a.hostSection := by
    rw [ArgumentList.sections, List.getElem?_map, ha]
    rfl
  obtain ⟨lt, there⟩ := List.getElem?_eq_some_iff.1 here
  rw [List.drop_eq_getElem_cons lt, there]

theorem ArgumentList.drop_sections_size (args : ArgumentList) : args.sections.drop args.size = [] :=
  List.drop_of_length_le (Nat.le_of_eq (List.length_map _))

namespace ArgumentList.PointerStructs

variable {alignment i : Nat} {args : ArgumentList} {a b : Argument}

/-- The sections of the arguments. -/
def family (h : args.PointerStructs alignment) : SectionFamily :=
  ⟨args.sections, h.nonempty, h.bounded, h.apart⟩

variable (h : args.PointerStructs alignment)

include h

theorem mem_family_iff {s : HostSection} : s ∈ h.family ↔ s ∈ args.sections := Iff.rfl

theorem mem_family (ha : a ∈ args.arguments) : a.hostSection ∈ h.family :=
  List.mem_map_of_mem (f := Argument.hostSection) ha

/-- No argument before a position has the section of the one there. -/
theorem fresh (ha : args.arguments[i]? = some a) : a.hostSection ∉ args.sections.take i := by
  have nodup : args.sections.Nodup := h.family.nodup
  rw [← List.take_append_drop i args.sections, ArgumentList.sections_drop ha, List.nodup_middle] at nodup
  exact fun mem => (List.nodup_cons.1 nodup).1 (List.mem_append_left _ mem)

private theorem room {parent : Nat} (lt : parent < i) (ha : args.arguments[i]? = some a) :
    parent + 1 < 65536 := by
  obtain ⟨bound, -⟩ := List.getElem?_eq_some_iff.1 ha
  have short := h.short
  rw [ArgumentList.size] at short
  omega

theorem exchanged (ha : a ∈ args.arguments) : a.Exchanged := by
  obtain ⟨i, hi⟩ := List.mem_iff_getElem?.1 ha
  rcases h.shape i a hi with struct | ⟨parent, struct, lt, -, -, field⟩
  · exact struct.exchanged
  · exact field.exchanged (h.room lt hi)

/-- The position of no argument among the structs is padded, since all structs are aligned. -/
theorem mappedSection {settings : Settings} (aligned : settings.config.structAlignment = alignment)
    (ha : args.arguments[i]? = some a) :
    Region.mappedSection settings (Region.isPadded args i a) a = (a.start, a.size) := by
  rcases h.shape i a ha with struct | ⟨parent, struct, lt, -, -, field⟩
  · rw [Region.mappedSection, aligned, struct.aligned]
    split
    · rfl
    · rfl
  · rw [Region.mappedSection, Region.isPadded_isMember ha (field.isMember (h.room lt ha)),
      if_neg Bool.false_ne_true]

/-- The pointer of an argument lies in a struct that comes before. -/
theorem slot_inside (ha : args.arguments[i]? = some a) (pointer : a.isPointer = true) :
    ∃ s ∈ args.sections.take i, a.slot.Inside s := by
  rcases h.shape i a ha with struct | ⟨parent, struct, lt, hs, -, field⟩
  · rw [struct.isPointer] at pointer
    cases pointer
  · refine ⟨struct.hostSection, List.mem_iff_getElem?.2 ⟨parent, ?_⟩, field.inside⟩
    rw [List.getElem?_take_of_lt lt, ArgumentList.sections, List.getElem?_map, hs]
    rfl

theorem slots_apart {j : Nat} (ha : args.arguments[i]? = some a) (hb : args.arguments[j]? = some b)
    (ne : i ≠ j) (pa : a.isPointer = true) (pb : b.isPointer = true) : a.slot.Apart b.slot := by
  obtain ⟨hi, rfl⟩ := List.getElem?_eq_some_iff.1 ha
  obtain ⟨hj, rfl⟩ := List.getElem?_eq_some_iff.1 hb
  have slots := List.pairwise_iff_getElem.1 h.slots
  rcases Nat.lt_or_gt_of_ne ne with lt | gt
  · exact slots i j hi hj lt pa pb
  · exact (slots j i hj hi gt pb pa).symm

theorem isMember_eq_isPointer (ha : args.arguments[i]? = some a) :
    a.mapType.isMember = a.isPointer := by
  rcases h.shape i a ha with struct | ⟨parent, struct, lt, -, -, field⟩
  · rw [struct.isMember, struct.isPointer]
  · rw [field.isMember (h.room lt ha), field.isPointer]

end ArgumentList.PointerStructs

end Offloading
