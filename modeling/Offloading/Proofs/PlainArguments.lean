import Offloading.Proofs.RoundTrip
import Offloading.Proofs.SharedSections
/-!
# Plain arguments

Regions whose arguments are plain sections: explicit, not nested, no members and never dropped by force.
Mapping such an argument maps its section and copies it to the device if the mapping is new; releasing it
copies the section back and removes the mapping if nobody else lists the section.
-/

namespace Offloading

namespace Argument

/-- The section of the argument. -/
def hostSection (a : Argument) : HostSection := ⟨a.start, a.size⟩

/-- The section of the argument is released as a whole, and no slot of a pointer with it. -/
structure Whole (a : Argument) : Prop where
  isMapped : a.isMapped = true
  nested : a.mapType.has .nested = false
  delete : a.mapType.has .delete = false
  isPlainMember : Region.isPlainMember a = false
  ownsSlot : a.ownsSlot = false

theorem Whole.isRemoved {a : Argument} (h : a.Whole) (held : HeldSection) :
    Region.isRemoved a held = held.isLast := by
  rw [Region.isRemoved, h.isPlainMember, h.delete, Bool.or_false, Bool.not_false, Bool.and_true]

/-- The argument is a plain section that is mapped explicitly and released reference by reference. -/
structure Plain (a : Argument) : Prop where
  kind : a.kind = .plain
  explicit : a.mapType.has .implicit = false
  nested : a.mapType.has .nested = false
  member : a.mapType.isMember = false
  delete : a.mapType.has .delete = false

instance (a : Argument) : Decidable a.Plain :=
  decidable_of_iff (a.kind = .plain ∧ a.mapType.has .implicit = false ∧
      a.mapType.has .nested = false ∧ a.mapType.isMember = false ∧ a.mapType.has .delete = false)
    ⟨fun ⟨kind, explicit, nested, member, delete⟩ => ⟨kind, explicit, nested, member, delete⟩,
      fun ⟨kind, explicit, nested, member, delete⟩ => ⟨kind, explicit, nested, member, delete⟩⟩

/-- A plain argument is no pointer. -/
theorem pointer_of_kind {a : Argument} (kind : a.kind = .plain) :
    a.mapType.has .pointerAndObject = false := by
  unfold Argument.kind at kind
  split at kind
  · cases kind
  · split at kind
    · cases kind
    · split at kind
      · cases kind
      · split at kind
        · cases kind
        · rename_i none
          exact eq_false_of_ne_true none

theorem isMapped_of_kind {a : Argument} (kind : a.kind = .plain) : a.isMapped = true := by
  rw [isMapped, kind]
  rfl

namespace Plain

variable {a : Argument}

theorem isMapped (h : a.Plain) : a.isMapped = true := isMapped_of_kind h.kind

theorem pointer (h : a.Plain) : a.mapType.has .pointerAndObject = false := pointer_of_kind h.kind

theorem isPlainMember (h : a.Plain) : Region.isPlainMember a = false := by
  rw [Region.isPlainMember, h.member, Bool.false_and]

theorem whole (h : a.Plain) : a.Whole where
  isMapped := h.isMapped
  nested := h.nested
  delete := h.delete
  isPlainMember := h.isPlainMember
  ownsSlot := by rw [Argument.ownsSlot, h.pointer, Bool.and_false, Bool.false_and]

theorem memberOf? (h : a.Plain) : a.mapType.memberOf? = none :=
  Option.not_isSome_iff_eq_none.1 (Bool.eq_false_iff.1 h.member)

end Plain

end Argument

namespace ArgumentList

variable {args args' : ArgumentList} {index : Nat} {a : Argument}

/-- The sections of the arguments. -/
def sections (args : ArgumentList) : List HostSection := args.arguments.map Argument.hostSection

/-- All arguments are plain sections of the family. -/
structure PlainOver (family : SectionFamily) (args : ArgumentList) : Prop where
  plain : ∀ a ∈ args.arguments, a.Plain
  inside : ∀ a ∈ args.arguments, a.hostSection ∈ family

instance (family : SectionFamily) (args : ArgumentList) : Decidable (args.PlainOver family) :=
  decidable_of_iff
    ((∀ a ∈ args.arguments, a.Plain) ∧ ∀ a ∈ args.arguments, a.hostSection ∈ family)
    ⟨fun ⟨plain, inside⟩ => ⟨plain, inside⟩, fun ⟨plain, inside⟩ => ⟨plain, inside⟩⟩

/-- No section of plain arguments is padded, since none has members. -/
theorem PlainOver.isPadded {family : SectionFamily} (h : args.PlainOver family)
    (frames : args.SameFrames args') : Region.isPadded args' index a = false := by
  have headless : args.headsStruct index = false := by
    rw [headsStruct]
    split
    · rfl
    · cases next : args.arguments[index + 1]? with
      | none => exact Bool.and_false _
      | some b =>
          rw [Option.bind_some, (h.plain b (List.mem_of_getElem? next)).memberOf?]
          exact Bool.and_false _
  rw [Region.isPadded, headsStruct_congr frames, headless, Bool.and_false]

theorem take_sections_size (args : ArgumentList) : args.sections.take args.size = args.sections :=
  List.take_of_length_le (Nat.le_of_eq (List.length_map _))

theorem sections_take {k : Nat} (ha : args.arguments[k]? = some a) :
    args.sections.take (k + 1) = args.sections.take k ++ [a.hostSection] := by
  rw [List.take_add_one, sections, List.getElem?_map, ha]
  rfl

theorem count_sections_take {k : Nat} (ha : args.arguments[k]? = some a) (s : HostSection) :
    (args.sections.take (k + 1)).count s = (a.hostSection :: args.sections.take k).count s := by
  rw [sections_take ha]
  exact (List.perm_append_singleton _ _).count_eq s

end ArgumentList

namespace Region

open RegionM

variable {settings : Settings} {a : Argument} {s s' start : RegionState} {u : Unit} {k : Nat}
  {family : SectionFamily} {listed : List HostSection}

/-! ## One argument -/

/-- A plain argument is released: its section is held, and the bytes are copied back if the section comes
from the device and this is the last reference or the bytes always come back. Then patched pointers are
put back, and the section is unmapped with the last reference. -/
def ReleasesPlain (settings : Settings) (a : Argument) (isLast : Bool) (s s' : RegionState) : Prop :=
  let copied := a.mapType.has .fromDevice && (isLast || a.mapType.has .always)
  ∃ addr l s₁ s₂,
    Returns (Device.hold a.start a.size true) s.activation.link (some ⟨addr, isLast⟩) l ∧
    Returns
      (if copied then do writeHost a.start (← onDevice (Device.retrieve addr a.size))
      else pure ()) (s.withLink l) () s₁ ∧
    Returns (restoreShadows settings a.start a.size copied isLast) s₁ () s₂ ∧
    Returns (if isLast then onDevice (Device.unmap a.start a.size false) else pure ()) s₂ () s'

theorem returns_copyBack_plain {first size source : Nat} {removed copied : Bool}
    (member : isPlainMember a = false)
    (h : Returns (copyBack a first size source removed) s copied s') :
    copied = (a.mapType.has .fromDevice && (removed || a.mapType.has .always)) ∧
      Returns
        (if copied then do writeHost first (← onDevice (Device.retrieve source size))
        else pure ()) s () s' := by
  unfold isPlainMember at member
  unfold copyBack at h
  dsimp only at h
  rw [member] at h
  cases comes : a.mapType.has .fromDevice with
  | false =>
      rw [comes] at h
      obtain ⟨rfl, rfl⟩ := returns_pure.1 h
      exact ⟨rfl, returns_pure.2 ⟨rfl, rfl⟩⟩
  | true =>
      rw [comes, if_pos rfl, if_neg Bool.false_ne_true, returns_pure_bind, Bool.or_false] at h
      rw [Bool.true_and]
      cases copies : removed || a.mapType.has .always with
      | false =>
          rw [copies] at h
          obtain ⟨rfl, rfl⟩ := returns_pure.1 h
          exact ⟨rfl, returns_pure.2 ⟨rfl, rfl⟩⟩
      | true =>
          rw [copies, if_pos rfl] at h
          obtain ⟨content, s₁, retrieved, h⟩ := returns_bind.1 h
          obtain ⟨_, s₂, written, h⟩ := returns_bind.1 h
          obtain ⟨rfl, rfl⟩ := returns_pure.1 h
          exact ⟨rfl, returns_bind.2 ⟨content, s₁, retrieved, written⟩⟩

/-- Releasing a section as a whole strikes it from the list once. -/
theorem shares_unmapWhole (shares : s.activation.link.Shares family (a.hostSection :: listed))
    (ha : s.arguments.arguments[k]? = some a) (whole : a.Whole) (inside : a.hostSection ∈ family)
    (sec : mappedSection settings (isPadded s.arguments k a) a = (a.start, a.size))
    (finite : listed.count a.hostSection < ReferenceCount.infinite.value / 2)
    (h : Returns (unmapArgument settings k) s u s') :
    s'.activation.link.Shares family listed ∧
      s.activation.link.Releases family s'.activation.link ∧
      ReleasesPlain settings a (decide (a.hostSection ∉ listed)) s s' := by
  rcases returns_unmapArgument h ha whole.nested with ⟨literal, -⟩ | ⟨-, ran⟩
  · rw [whole.isMapped] at literal
    cases literal
  have released : Returns (releaseSection settings (isPadded s.arguments k a) a) s () s' := by
    obtain ⟨s₀, released, ⟨-, rfl⟩ | ⟨owner, -⟩⟩ := returns_unmapRegion ran whole.isMapped
    · exact released
    · have none := whole.ownsSlot
      rw [Argument.ownsSlot, whole.isMapped, Bool.true_and, owner] at none
      cases none
  obtain ⟨held?, l, first, size, sec', held, rest⟩ := returns_releaseSection released
  cases sec.symm.trans sec'
  rw [whole.isPlainMember] at held
  obtain ⟨⟨addr, rfl⟩, cases⟩ := Device.shares_hold (s := a.hostSection) shares inside finite held
  rcases rest with ⟨none, -⟩ | ⟨part, copied, s₁, s₂, same, back, restored, ending⟩
  · cases none
  cases same
  rw [whole.isRemoved] at back restored ending
  obtain ⟨rfl, back'⟩ := returns_copyBack_plain whole.isPlainMember back
  -- copying back and restoring pointers moves neither mappings nor blocks
  have still : l.Still s₂.activation.link := Lasting.trans (along_copyBack.returns back).link.still
    ((along_restoreShadows Device.along_visitShadows_still).returns restored).link
  rcases cases with ⟨more, shares', releases⟩ | ⟨last, rfl⟩
  · have kept : decide (a.hostSection ∉ listed) = false := by simp [more]
    rcases ending with ⟨-, rfl⟩ | ⟨removed, -⟩
    · refine ⟨shares'.still still, Lasting.trans releases still.releases, addr, l, s₁, s', held, back',
        restored, ?_⟩
      simp only [kept]
      exact returns_pure.2 ⟨rfl, rfl⟩
    · rw [kept] at removed
      cases removed
  · have gone : decide (a.hostSection ∉ listed) = true := by simp [last]
    rcases ending with ⟨kept, -⟩ | ⟨-, l', unmapped, rfl⟩
    · rw [gone] at kept
      cases kept
    · rw [whole.delete] at unmapped
      obtain ⟨shares', releases⟩ :=
        Device.shares_unmap (s := a.hostSection) (shares.still still) inside last unmapped
      refine ⟨shares', Lasting.trans still.releases releases, addr, _, s₁, s₂, held, back', restored, ?_⟩
      simp only [gone]
      exact lifts_onDevice.returns.2 ⟨l', unmapped, rfl⟩

theorem drop_range {n : Nat} (lt : k < n) :
    (List.range n).drop k = k :: (List.range n).drop (k + 1) := by
  rw [List.drop_eq_getElem_cons (by rwa [List.length_range]), List.getElem_range]

section All

variable (plain : start.arguments.PlainOver family)
  (finite : ∀ s ∈ family,
    (start.arguments.sections ++ listed).count s ≤ ReferenceCount.infinite.value / 2)

include plain finite

end All

end Region

end Offloading
