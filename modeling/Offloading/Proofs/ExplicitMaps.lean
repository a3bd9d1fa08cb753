import Offloading.Proofs.Enter
import Offloading.Proofs.MapType
/-!
# Explicit maps

An explicit map needs its whole section in one mapping. This module says which argument lists map
explicitly, and that the regions resolved from such a list, elements of pointer arrays among them, do.
-/

namespace Offloading

/-- A mapped region has no implicit flag. -/
def Argument.Explicit (a : Argument) : Prop := a.isMapped = true → a.mapType.has .implicit = false

/-- What a descriptor lists is mapped explicitly. -/
def Descriptor.Explicit : Descriptor → Prop
  | regions list => ∀ region ∈ list, region.Explicit
  | pointerArray _ => True
  | refused _ => True

/-- All maps of a list are explicit. -/
structure ArgumentList.Explicit (l : ArgumentList) : Prop where
  arguments : ∀ a ∈ l.arguments, a.Explicit
  descriptors : ∀ d ∈ l.descriptors, d.Explicit

theorem Argument.Explicit.congr {a b : Argument} (h : a.Explicit) (same : b.frame = a.frame) :
    b.Explicit := by
  have mapType : b.mapType = a.mapType := (Prod.mk.inj (Prod.mk.inj same).2).2
  have alike : b.isMapped = a.isMapped := isMapped_congr fun f _ => by rw [mapType]
  intro mapped
  rw [mapType]
  exact h (alike ▸ mapped)

theorem ArgumentList.Explicit.congr {l l' : ArgumentList} (h : l.Explicit)
    (same : l.SameFrames l') : l'.Explicit := by
  refine ⟨fun a ha => ?_, fun d hd => h.descriptors d (same.descriptors ▸ hd)⟩
  have frame : a.frame ∈ l.arguments.map Argument.frame := same.arguments ▸ List.mem_map_of_mem ha
  obtain ⟨b, hb, alike⟩ := List.mem_map.1 frame
  exact (h.arguments b hb).congr alike.symm

theorem Argument.Explicit.unnested {region : Argument} (h : region.Explicit) :
    Argument.Explicit
      { region with mapType := region.mapType.clear [.nested, .hasNested] } := by
  intro hm
  exact (MapType.has_unnested (by decide) (by decide)).trans (h (isMapped_unnested ▸ hm))

/-- Every region that the plan may stand for is mapped explicitly. -/
def RegionPlan.Explicit (plan : RegionPlan) : Prop :=
  ∀ host region, plan.resolve host = some region → region.Explicit

theorem RegionPlan.Explicit.unnested {plan : RegionPlan} (h : plan.Explicit) :
    plan.unnested.Explicit := by
  intro host region hr
  cases plan with
  | known a =>
      cases hr
      exact (h host a rfl).unnested
  | pointee slot size mapType =>
      rw [RegionPlan.unnested, resolve] at hr
      cases start : host.readPointer slot with
      | zero =>
          rw [start] at hr
          cases hr
      | succ n =>
          rw [start] at hr
          cases hr
          refine (h host ⟨slot, n + 1, size, mapType⟩ ?_).unnested
          rw [resolve, start]
          rfl

/-- The elements of a pointer array do not take over an implicit flag. -/
private theorem pointee_explicit {seed : Argument} {slot size : Nat} :
    (RegionPlan.pointee slot size
      ((seed.mapType.keep Descriptor.inherited).set [.pointerAndObject])).Explicit := by
  intro host region hr
  rw [RegionPlan.resolve] at hr
  split at hr
  · cases hr
  · cases hr
    intro _
    simp [MapType.has_set, MapType.has_keep, Descriptor.inherited]

private theorem known_explicit {a : Argument} (h : a.Explicit) : (RegionPlan.known a).Explicit := by
  intro host region hr
  cases hr
  exact h

private theorem expand_explicit {a : Argument} (ha : a.Explicit) {d : Descriptor}
    (hd : d.Explicit) {plans : List RegionPlan} (h : d.expand a = .ok plans) :
    ∀ plan ∈ plans, plan.Explicit := by
  intro plan hp
  cases d with
  | regions list =>
      cases h
      obtain ⟨region, hr, rfl⟩ := List.mem_map.1 hp
      exact known_explicit (hd region hr)
  | pointerArray elementSize =>
      rw [Descriptor.expand] at h
      split at h
      · cases h
      · cases h
        rcases List.mem_cons.1 hp with rfl | hp
        · exact known_explicit ha
        · obtain ⟨slot, -, rfl⟩ := List.mem_map.1 hp
          exact pointee_explicit
  | refused detail => cases h

theorem ArgumentList.plans_explicit {l : ArgumentList} (explicit : l.Explicit) {index : Nat}
    {plans : List RegionPlan} (h : l.plans index = .ok plans) : ∀ plan ∈ plans, plan.Explicit := by
  cases hg : l.arguments[index]? with
  | none =>
      rw [ArgumentList.plans, ArgumentList.get, hg] at h
      cases h
  | some a =>
      have ha := explicit.arguments a (List.mem_of_getElem? hg)
      cases nested : a.mapType.has .nested with
      | false =>
          rw [Region.plans_of_get hg nested] at h
          cases h
          exact List.forall_mem_singleton.2 (known_explicit ha)
      | true =>
          rw [plans_of_nested hg nested] at h
          cases hd : l.descriptors[l.descriptorIndex index]? with
          | none =>
              rw [hd] at h
              cases h
          | some d =>
              rw [hd] at h
              cases he : d.expand a with
              | error detail =>
                  simp only [he] at h
                  cases h
              | ok inner =>
                  simp only [he] at h
                  cases h
                  have all := expand_explicit ha (explicit.descriptors d (List.mem_of_getElem? hd)) he
                  intro plan hp
                  obtain ⟨plan', hp', rfl⟩ := List.mem_map.1 hp
                  exact (all plan' hp').unnested

end Offloading
