import Offloading.Proofs.PlainArguments
import Offloading.Proofs.PatchedRuns
import Offloading.Proofs.Readying
/-!
# Interleaved regions

Regions with plain arguments over sections that do not overlap. They are begun and ended in any order, not
only the one that began last ending first. At every point of such a run a section is held on a device as
often as the open regions list it there, and it keeps its device address until no open region lists it.
-/

namespace Offloading

/-- The device that a caller names. -/
def Settings.named (settings : Settings) (id : Int) : Nat :=
  if id = -1 then settings.config.defaultDevice else id.toNat

/-- A region that has begun and has not ended. -/
structure OpenRegion where
  /-- The position of its device. -/
  device : Nat
  /-- The sections of its arguments. -/
  sections : List HostSection
  deriving DecidableEq, Repr

namespace OpenRegion

variable {regions : List OpenRegion} {region : OpenRegion} {dev : Nat} {s : HostSection}

/-- The sections that regions list on a device. -/
def listedOn (dev : Nat) (regions : List OpenRegion) : List HostSection :=
  (regions.filter fun r => r.device == dev).flatMap (·.sections)

/-- The regions that are open after a call. -/
def next (settings : Settings) (regions : List OpenRegion) : Call → List OpenRegion
  | .dataBegin id args => ⟨settings.named id, args.sections⟩ :: regions
  | .dataEnd id args => regions.erase ⟨settings.named id, args.sections⟩
  | _ => regions

end OpenRegion

namespace Link

variable {l l' l₁ : Link} {family : SectionFamily}

end Link

namespace Platform

open CallM OpenRegion

variable {pl pl' : Platform} {dev d : Nat} {id : Int} {l l' : Link} {args : ArgumentList}
  {family : SectionFamily} {regions regions' : List OpenRegion} {c : Call}
  {calls before after : List Call} {s : HostSection} {m n : Mapping} {start r : RegionState} {u : Unit}

/-- Every section of the family is held on every device as often as the open regions list it there, and no
waiting library is in the way. -/
structure Shared (family : SectionFamily) (regions : List OpenRegion) (pl : Platform) : Prop where
  sound : pl.Sound
  clear : pl.Clear family
  finite : ∀ dev, ∀ s ∈ family, (listedOn dev regions).count s ≤ ReferenceCount.infinite.value / 2
  links : ∀ dev l, pl.link? dev = some l → l.Shares family (listedOn dev regions)

theorem Shared.advanced (h : pl.Shared family regions) (advanced : pl.Advanced family pl') :
    pl'.Shared family regions := by
  refine ⟨advanced.sound, advanced.clear, h.finite, fun dev l' hl' => ?_⟩
  obtain ⟨l, hl, advances⟩ := advanced.links dev l' hl'
  have shares := h.links dev l hl
  exact shares.advanced (advances shares.sound)

/-- What is listed changes on one device. -/
theorem Shared.setLink (h : pl.Shared family regions) (hl : pl.link? dev = some l)
    (shares : l'.Shares family (listedOn dev regions'))
    (finite : ∀ s ∈ family, (listedOn dev regions').count s ≤ ReferenceCount.infinite.value / 2)
    (others : ∀ d s, d ≠ dev → (listedOn d regions').count s = (listedOn d regions).count s)
    (links : pl'.links = (pl.setLink dev l').links) (libraries : pl'.libraries = pl.libraries) :
    pl'.Shared family regions' := by
  obtain ⟨devices, accelerators⟩ := Prod.mk.inj links
  have sound : pl'.Sound := (h.sound.setLink shares.sound).of_same devices accelerators
  refine ⟨sound, ?_, fun d s hs => ?_, fun d k hk => ?_⟩
  · rw [Clear, libraries]
    exact h.clear
  · by_cases here : d = dev
    · exact here ▸ finite s hs
    · rw [others d s here]
      exact h.finite d s hs
  · by_cases here : d = dev
    · subst here
      rw [link?_congr links, link?_setLink hl, Option.some.injEq] at hk
      exact hk ▸ shares
    · have there := sound.link hk
      rw [link?_congr links] at hk
      obtain ⟨n, hn, device, -⟩ := link?_setLink_other hl here hk
      refine ⟨there, fun s hs => ?_⟩
      rw [others d s here, device]
      exact (h.links d n hn).hosts s hs

/-- The call succeeds. It begins a region with plain arguments over the family, so that no count gets
infinite, ends such a region that is open, or writes to host memory. -/
inductive Fits (family : SectionFamily) (regions : List OpenRegion) (pl : Platform) : Call → Prop where
  | begins {id : Int} {args : ArgumentList} {s' : CallState} (plain : args.PlainOver family)
      (finite : ∀ s ∈ family, (listedOn (pl.settings.named id)
        (next pl.settings regions (.dataBegin id args))).count s ≤ ReferenceCount.infinite.value / 2)
      (succeeds : Returns (dataBegin id) { platform := pl, arguments := args } () s') :
      Fits family regions pl (.dataBegin id args)
  | ends {id : Int} {args : ArgumentList} {s' : CallState} (plain : args.PlainOver family)
      (opened : ⟨pl.settings.named id, args.sections⟩ ∈ regions)
      (succeeds : Returns (dataEnd id) { platform := pl, arguments := args } () s') :
      Fits family regions pl (.dataEnd id args)
  | writes {first : Nat} {content : List UInt8} : Fits family regions pl (.write first content)

/-- All calls fit, each at the point at which it is made. -/
def Interleaves (family : SectionFamily) : List OpenRegion → Platform → List Call → Prop
  | _, _, [] => True
  | regions, pl, c :: rest =>
      pl.Fits family regions c ∧ Interleaves family (next pl.settings regions c) (pl.perform c) rest

theorem Interleaves.left (h : Interleaves family regions pl (before ++ after)) :
    Interleaves family regions pl before := by
  induction before generalizing pl regions with
  | nil => trivial
  | cons c rest ih => exact ⟨h.1, ih h.2⟩

/-- Nothing is mapped where the sections lie, and no library that waits to be loaded will map a global
variable there. -/
structure Untouched (family : SectionFamily) (pl : Platform) : Prop where
  clear : pl.Clear family
  misses : ∀ dev l, pl.link? dev = some l → ∀ m ∈ l.device.mappings, ∀ s ∈ family, m.Misses s

theorem Untouched.shared (h : pl.Untouched family) (sound : pl.Sound) : pl.Shared family [] where
  sound := sound
  clear := h.clear
  finite _ _ _ := Nat.zero_le _
  links dev l hl := ⟨sound.link hl, fun s hs =>
    ⟨fun _ m hm => h.misses dev l hl m hm s hs, fun pos => absurd pos (Nat.lt_irrefl 0)⟩⟩

section Runs

variable (shared : pl.Shared family []) (run : Interleaves family [] pl calls)

include shared run

end Runs

/-- Two sections of 16 bytes. -/
def twoSections : SectionFamily where
  sections := [⟨64, 16⟩, ⟨128, 16⟩]
  nonempty := by decide
  bounded := by decide
  apart := by decide

end Platform

end Offloading
