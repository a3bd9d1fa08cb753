import Offloading.Proofs.Enter
/-!
# Leaving a region

What the steps of releasing an argument did when they succeeded.
-/

namespace Offloading

/-- Whether releasing a region gives back a reference on the pointer slot at its base. -/
def Argument.ownsSlot (a : Argument) : Bool :=
  a.isMapped && a.mapType.has .pointerAndObject && !a.mapType.isMember

namespace Region

open RegionM

variable {settings : Settings} {padded : Bool} {region : Argument} {s s' : RegionState} {u : Unit}

/-- Whether a region is a member of a struct and no pointer. -/
def isPlainMember (region : Argument) : Bool :=
  region.mapType.isMember && !region.mapType.has .pointerAndObject

/-- Whether the section of a region loses its mapping when it is released. -/
def isRemoved (region : Argument) (held : HeldSection) : Bool :=
  (held.isLast || region.mapType.has .delete) && !isPlainMember region

/-- A section is held, copied back, its pointers are restored, and it is unmapped if nobody else holds
it. A section without bytes may not be mapped at all. -/
theorem returns_releaseSection (h : Returns (releaseSection settings padded region) s u s') :
    ∃ held? l, ∃ first size : Nat, mappedSection settings padded region = (first, size) ∧
      Returns (Device.hold first size (!isPlainMember region)) s.activation.link held? l ∧
      ((held? = none ∧ size = 0 ∧ s' = s.withLink l) ∨
        ∃ held copied s₁ s₂, held? = some held ∧
          Returns (copyBack region first size held.addr (isRemoved region held)) (s.withLink l)
            copied s₁ ∧
          Returns (restoreShadows settings first size copied (isRemoved region held)) s₁ () s₂ ∧
          ((isRemoved region held = false ∧ s' = s₂) ∨
            (isRemoved region held = true ∧
              ∃ l', Returns (Device.unmap first size (region.mapType.has .delete))
                s₂.activation.link () l' ∧ s' = s₂.withLink l'))) := by
  unfold releaseSection at h
  rcases hsec : mappedSection settings padded region with ⟨first, size⟩
  rw [hsec] at h
  obtain ⟨held?, s₁, hh, rest⟩ := returns_bind.1 h
  obtain ⟨l, held, rfl⟩ := lifts_onDevice.returns.1 hh
  refine ⟨held?, l, first, size, rfl, held, ?_⟩
  cases held? with
  | none =>
      by_cases empty : size = 0
      · dsimp only at rest
        rw [if_pos empty] at rest
        exact .inl ⟨rfl, empty, (returns_pure.1 rest).2⟩
      · dsimp only at rest
        rw [if_neg empty] at rest
        exact absurd rest not_returns_unmapped
  | some part =>
      obtain ⟨copied, s₂, hc, rest⟩ := returns_bind.1 rest
      obtain ⟨_, s₃, hr, rest⟩ := returns_bind.1 rest
      refine .inr ⟨part, copied, s₂, s₃, rfl, hc, hr, ?_⟩
      change Returns (if isRemoved region part then
        onDevice (Device.unmap first size (region.mapType.has .delete)) else pure ()) s₃ u s' at rest
      cases removed : isRemoved region part with
      | false =>
          rw [removed] at rest
          exact .inl ⟨rfl, (returns_pure.1 rest).2⟩
      | true =>
          rw [removed] at rest
          obtain ⟨l', unmapped, rfl⟩ := lifts_onDevice.returns.1 rest
          exact .inr ⟨rfl, l', unmapped, rfl⟩

theorem returns_releasePointer {slot : Nat} (h : Returns (releasePointer slot) s u s') :
    ∃ held l, Returns (Device.hold slot Word.bytes true) s.activation.link (some held) l ∧
      ((held.isLast = false ∧ s' = s.withLink l) ∨
        (held.isLast = true ∧
          ∃ l', Returns (Device.unmap slot Word.bytes false) l () l' ∧ s' = s.withLink l')) := by
  unfold releasePointer at h
  obtain ⟨held?, s₁, hh, rest⟩ := returns_bind.1 h
  obtain ⟨l, held, rfl⟩ := lifts_onDevice.returns.1 hh
  cases held? with
  | none => exact absurd rest not_returns_unmapped
  | some part =>
      refine ⟨part, l, held, ?_⟩
      cases last : part.isLast with
      | false =>
          dsimp only at rest
          rw [last] at rest
          exact .inl ⟨rfl, (returns_pure.1 rest).2⟩
      | true =>
          dsimp only at rest
          rw [last] at rest
          obtain ⟨l', unmapped, rfl⟩ := lifts_onDevice.returns.1 rest
          exact .inr ⟨rfl, l', unmapped, rfl⟩

theorem returns_unmapRegion (h : Returns (unmapRegion settings padded region) s u s')
    (hm : region.isMapped = true) :
    ∃ s₁, Returns (releaseSection settings padded region) s () s₁ ∧
      (((region.mapType.has .pointerAndObject && !region.mapType.isMember) = false ∧ s' = s₁) ∨
        ((region.mapType.has .pointerAndObject && !region.mapType.isMember) = true ∧
          Returns (releasePointer region.base) s₁ () s')) := by
  unfold unmapRegion at h
  rw [hm] at h
  obtain ⟨_, s₁, hr, rest⟩ := returns_bind.1 h
  refine ⟨s₁, hr, ?_⟩
  cases owner : region.mapType.has .pointerAndObject && !region.mapType.isMember with
  | false =>
      rw [owner] at rest
      exact .inl ⟨rfl, (returns_pure.1 rest).2⟩
  | true =>
      rw [owner] at rest
      exact .inr ⟨rfl, rest⟩

/-- The base of a region without a slot of its own plays no part when it is released. -/
theorem unmapRegion_rebase {b : Nat} (h : region.ownsSlot = true → b = region.base) :
    unmapRegion settings padded { region with base := b } = unmapRegion settings padded region := by
  cases owns : region.ownsSlot with
  | true => rw [h owns]
  | false =>
      cases hm : region.isMapped with
      | false =>
          have hm' : Argument.isMapped { region with base := b } = false := hm
          rw [unmapRegion, unmapRegion, hm, hm']
          rfl
      | true =>
          rw [Argument.ownsSlot, hm, Bool.true_and] at owns
          unfold unmapRegion
          dsimp only
          rw [owns]
          rfl

/-- An argument that is not nested is released as one region. -/
theorem returns_unmapArgument {index : Nat} {a : Argument}
    (h : Returns (unmapArgument settings index) s u s')
    (ha : s.arguments.arguments[index]? = some a) (plain : a.mapType.has .nested = false) :
    (a.isMapped = false ∧ s' = s) ∨
      (a.isMapped = true ∧
        Returns (unmapRegion settings (isPadded s.arguments index a) a) s () s') := by
  unfold unmapArgument at h
  obtain ⟨a', s₁, hg, rest⟩ := returns_bind.1 h
  obtain ⟨got, rfl⟩ := returns_arguments.1 hg
  rw [ArgumentList.get_eq_ok, ha, Option.some.injEq] at got
  subst got
  cases hm : a.isMapped with
  | false =>
      rw [hm] at rest
      exact .inl ⟨rfl, (returns_pure.1 rest).2⟩
  | true =>
      rw [hm, Bool.not_true, if_neg Bool.false_ne_true, returns_get_bind] at rest
      obtain ⟨plans, s₂, hp, rest⟩ := returns_bind.1 rest
      obtain ⟨found, rfl⟩ := returns_arguments.1 hp
      rw [plans_of_get ha plain, Except.ok.injEq] at found
      subst found
      rw [forRegions, returns_get_bind] at rest
      obtain ⟨_, s₃, hr, rest⟩ := returns_bind.1 rest
      obtain ⟨-, rfl⟩ := returns_pure.1 rest
      exact .inr ⟨rfl, hr⟩

end Region

end Offloading
