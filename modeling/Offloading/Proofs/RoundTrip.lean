import Mathlib
import Offloading.Proofs.Footprint
import Offloading.Proofs.Leave
import Offloading.Proofs.Reachable
/-!
# Entering and leaving

Leaving a region undoes entering it, argument by argument and the last one first: each reference is
given back on the very mapping that it was taken on, since all that later arguments mapped is gone by
then.
-/

namespace Offloading

/-- What leaving a region can undo without looking at other arguments. -/
structure Argument.Reversible (a : Argument) : Prop where
  nested : a.mapType.has .nested = false
  delete : a.mapType.has .delete = false
  /-- A pointer keeps its base. -/
  pointer : a.mapType.has .pointerAndObject = true → a.mapType.has .returnParam = false

/-- If the argument is a member of a struct, then its pointer slot, or else its section, meets a
mapping. -/
def Argument.MemberMapped (t : MappingTable) (a : Argument) : Prop :=
  a.isMapped = true → a.mapType.isMember = true →
    if a.mapType.has .pointerAndObject then (t.lookup a.base Word.bytes).isFound = true
    else (t.lookup a.start a.size).isFound = true

namespace Region

open RegionM

variable {settings : Settings} {padded : Bool} {region : Argument} {s s₁ s' t t' : RegionState}
  {l l₁ k : Link} {r : Option MappedSection} {first size base : Nat} {implicit : Bool} {u v : Unit}

/-! ## One region -/

/-- A section that meets a mapping can be mapped without taking a reference. -/
private theorem footprint_map_found {updateRef : Bool}
    (mapped : Returns (Device.map first base size implicit updateRef) l r l₁)
    (noRef : updateRef = false) (found : (l.device.mappings.lookup first size).isFound = true) :
    l₁.footprint = l.footprint := by
  obtain ⟨m, hm⟩ := Option.isSome_iff_exists.1 found
  rcases Device.returns_map mapped with ⟨m, hm, -, -, rfl⟩ | ⟨none, -⟩ | ⟨none, -⟩
  · refine Link.footprint_eq_iff.2 ⟨rfl, ?_, rfl⟩
    change (l.device.mappings.setCount m _).entries = _
    rw [noRef, if_neg Bool.false_ne_true, MappingTable.setCount_self (MappingTable.mem_of_lookup hm)]
  · rw [hm] at none
    cases none
  · rw [hm] at none
    cases none

theorem footprint_releaseSection (hs : l.Sound) (kept : region.mapType.has .delete = false)
    (sec : mappedSection settings padded region = (first, size))
    (mapped : Returns (Device.map first base size implicit (!isPlainMember region)) l r l₁)
    (member : isPlainMember region = true → (l.device.mappings.lookup first size).isFound = true)
    (finite : l.CountsStayFinite l₁) (same : t.activation.link.footprint = l₁.footprint)
    (released : Returns (releaseSection settings padded region) t u t') :
    t'.activation.link.footprint = l.footprint := by
  obtain ⟨held?, k, first', size', sec', held, rest⟩ := returns_releaseSection released
  rw [sec, Prod.mk.injEq] at sec'
  obtain ⟨rfl, rfl⟩ := sec'
  -- copying back and restoring pointers moves neither mappings nor blocks
  have middle : ∀ {copied removed source} {t₁ t₂ : RegionState},
      Returns (copyBack region first size source removed) (t.withLink k) copied t₁ →
      Returns (restoreShadows settings first size copied removed) t₁ () t₂ →
      t₂.activation.link.footprint = k.footprint := by
    intro copied removed source t₁ t₂ hc hr
    have copy := (along_copyBack.returns hc).link.still.footprint
    have restore := ((along_restoreShadows Device.along_visitShadows_still).returns hr).link.footprint
    exact restore.trans copy
  cases plain : isPlainMember region with
  | true =>
      rw [plain] at mapped held
      have before := same.trans (footprint_map_found mapped rfl (member plain))
      have untouched : k = t.activation.link := by
        rcases Device.returns_hold held with ⟨-, -, rfl⟩ | ⟨m, -, -, rfl⟩
        · rfl
        · rfl
      rcases rest with ⟨-, -, rfl⟩ | ⟨part, copied, t₁, t₂, rfl, hc, hr, ⟨-, rfl⟩ | ⟨removed, -⟩⟩
      · rw [← before, ← untouched]
        rfl
      · rw [middle hc hr, untouched, before]
      · simp [isRemoved, plain] at removed
  | false =>
      rw [plain] at mapped held
      rcases Device.footprint_release (u := ()) hs mapped finite same held with
        ⟨⟨part, rfl, last⟩, rfl, undone⟩ | ⟨notLast, before⟩
      · rcases rest with ⟨none, -⟩ |
          ⟨part', copied, t₁, t₂, same', hc, hr, ⟨remains, -⟩ | ⟨-, k', unmapped, rfl⟩⟩
        · cases none
        · cases same'
          simp [isRemoved, plain, last] at remains
        · rw [kept] at unmapped
          exact undone _ _ (middle hc hr) unmapped
      · rcases rest with ⟨-, -, rfl⟩ |
          ⟨part, copied, t₁, t₂, rfl, hc, hr, ⟨-, rfl⟩ | ⟨removed, -⟩⟩
        · exact before
        · rw [middle hc hr, before]
        · simp [isRemoved, plain, kept, notLast part rfl] at removed

theorem footprint_releasePointer {slot : Nat} (hs : l.Sound)
    (mapped : Returns (Device.map slot base Word.bytes implicit true) l r l₁)
    (finite : l.CountsStayFinite l₁) (same : t.activation.link.footprint = l₁.footprint)
    (released : Returns (releasePointer slot) t u t') :
    t'.activation.link.footprint = l.footprint := by
  obtain ⟨part, k, held, rest⟩ := returns_releasePointer released
  rcases Device.footprint_release (u := ()) hs mapped finite same held with
    ⟨⟨part', same', last⟩, rfl, undone⟩ | ⟨notLast, before⟩
  · cases same'
    rcases rest with ⟨more, -⟩ | ⟨-, k', unmapped, rfl⟩
    · rw [last] at more
      cases more
    · exact undone _ _ rfl unmapped
  · rcases rest with ⟨-, rfl⟩ | ⟨last, -⟩
    · exact before
    · rw [notLast part rfl] at last
      cases last

/-- Releasing a region undoes mapping it, if blocks and mappings are then as mapping it left them. -/
theorem footprint_unmapRegion {base? : Option Nat} {b : Nat} (hs : s.activation.link.Sound)
    (rev : region.Reversible) (hm : region.isMapped = true)
    (member : region.MemberMapped s.activation.link.device.mappings)
    (whole : region.mapType.isMember = true → padded = false)
    (entered : Returns (mapRegion settings padded region) s base? s')
    (finite : s.activation.link.CountsStayFinite s'.activation.link)
    (pointer : region.mapType.has .pointerAndObject = true → b = region.base)
    (same : t.activation.link.footprint = s'.activation.link.footprint)
    (left : Returns (unmapRegion settings padded { region with base := b }) t u t') :
    t'.activation.link.footprint = s.activation.link.footprint := by
  have rebased : region.ownsSlot = true → b = region.base := by
    intro owns
    simp only [Argument.ownsSlot, Bool.and_eq_true] at owns
    exact pointer owns.1.2
  rw [unmapRegion_rebase rebased] at left
  obtain ⟨t₁, body, slot⟩ := returns_unmapRegion left hm
  obtain ⟨pointer?, s₁, mapped?, l, s₂, first, size, base, sec, hp, -, mapped, hc, hq, -⟩ :=
    returns_mapRegion entered hm
  -- the states between the steps, and what the steps from each of them on may change
  have grown₁ := (along_mapPointer.returns hp).link.toGrown
  have grown₂ := (Device.along_map.returns mapped).toGrown
  have sent := Lasting.trans (along_copyIn.returns hc) (along_patchPointer.returns hq)
  have sound₁ := grown₁.sound hs
  have sound₂ := grown₂.sound sound₁
  have sound' := sent.link.grown.sound sound₂
  have finite₁ : s.activation.link.CountsStayFinite s₁.activation.link :=
    finite.within hs (Lasting.refl _) (Lasting.trans grown₂ sent.link.grown) sound₁
  have finite₂ : s₁.activation.link.CountsStayFinite l :=
    finite.within hs grown₁ sent.link.grown sound₂
  have same₂ : t.activation.link.footprint = l.footprint := same.trans sent.link.footprint
  rcases returns_mapPointer hp with ⟨noPointer, rfl, rfl⟩ | ⟨isPointer, part, l', mappedSlot, rfl, rfl⟩
  · have update : (Option.isSome (none : Option MappedPointer) || !region.mapType.isMember) =
        !isPlainMember region := by simp [isPlainMember, noPointer]
    rw [update] at mapped
    have undone := footprint_releaseSection hs rev.delete sec mapped (fun plain => ?_) finite₂ same₂
      body
    · rcases slot with ⟨-, rfl⟩ | ⟨owner, -⟩
      · exact undone
      · simp [noPointer] at owner
    · have isMember : region.mapType.isMember = true := by
        simpa [isPlainMember, noPointer] using plain
      have found := member hm isMember
      rw [noPointer, if_neg Bool.false_ne_true] at found
      rw [mappedSection, whole isMember, if_neg Bool.false_ne_true, Prod.mk.injEq] at sec
      obtain ⟨rfl, rfl⟩ := sec
      exact found
  · have update : (Option.isSome (some (⟨region.base, part.addr⟩ : MappedPointer)) ||
        !region.mapType.isMember) = !isPlainMember region := by simp [isPlainMember, isPointer]
    rw [update] at mapped
    have undone := footprint_releaseSection sound₁ rev.delete sec mapped
      (fun plain => by simp [isPlainMember, isPointer] at plain) finite₂ same₂ body
    rcases slot with ⟨notOwner, rfl⟩ | ⟨owner, releasedSlot⟩
    · have isMember : region.mapType.isMember = true := by simpa [isPointer] using notOwner
      have found := member hm isMember
      rw [isPointer, if_pos rfl] at found
      exact undone.trans (footprint_map_found mappedSlot (by simp [isMember]) found)
    · have notMember : region.mapType.isMember = false := by simpa [isPointer] using owner
      rw [notMember] at mappedSlot
      exact footprint_releasePointer hs mappedSlot finite₁ undone releasedSlot

/-! ## All arguments -/

theorem isPadded_isMember {arguments : ArgumentList} {index : Nat} {a : Argument}
    (ha : arguments.arguments[index]? = some a) (member : a.mapType.isMember = true) :
    isPadded arguments index a = false := by
  rw [isPadded, ArgumentList.headsStruct, ha]
  simp [member]

/-- Mapping an argument keeps everything of it but the base, and the base of a pointer too. -/
theorem rebased_of_mapArgument {index : Nat} {a : Argument}
    (h : Returns (mapArgument settings index) s u s')
    (ha : s.arguments.arguments[index]? = some a) (rev : a.Reversible) :
    ∃ b, s'.arguments.arguments[index]? = some { a with base := b } ∧
      (a.mapType.has .pointerAndObject = true → b = a.base) := by
  rcases returns_mapArgument h ha rev.nested with ⟨-, rfl⟩ | ⟨hm, base?, s₁, l, entered, rfl, same, set⟩
  · exact ⟨a.base, ha, fun _ => rfl⟩
  · have arguments := (along_mapRegion.returns entered).arguments
    cases base? with
    | none =>
        refine ⟨a.base, ?_, fun _ => rfl⟩
        change l.arguments[index]? = _
        rw [same rfl, arguments]
        exact ha
    | some base =>
        obtain ⟨a', ha', rfl⟩ := ArgumentList.setBase_eq_ok (set base rfl)
        rw [arguments, ha, Option.some.injEq] at ha'
        subst ha'
        obtain ⟨lt, -⟩ := List.getElem?_eq_some_iff.1 (arguments ▸ ha)
        refine ⟨base, List.getElem?_set_self lt, fun pointer => ?_⟩
        obtain ⟨_, _, _, _, _, _, _, _, -, -, -, -, -, -, returned⟩ := returns_mapRegion entered hm
        rw [rev.pointer pointer] at returned
        cases returned

theorem others_mapArguments {indices : List Nat} {i : Nat}
    (h : Returns (indices.forM (mapArgument settings)) s u s') (hi : i ∉ indices) :
    s'.arguments.arguments[i]? = s.arguments.arguments[i]? := by
  induction indices generalizing s with
  | nil => rw [(returns_pure.1 h).2]
  | cons index rest ih =>
      obtain ⟨s₁, first, later⟩ := returns_forM_cons.1 h
      rw [ih later fun mem => hi (List.mem_cons_of_mem index mem)]
      refine (along_mapArgument.returns first).others i fun same => hi ?_
      rw [same]
      exact List.mem_cons_self ..

private theorem reversible_of_sameFrames {l l' : ArgumentList} (h : l.SameFrames l')
    (rev : ∀ a ∈ l.arguments, a.Reversible) : ∀ a ∈ l'.arguments, a.Reversible := by
  intro a ha
  have framed : a.frame ∈ l.arguments.map Argument.frame := by
    rw [← h.arguments]
    exact List.mem_map_of_mem ha
  obtain ⟨b, hb, same⟩ := List.mem_map.1 framed
  have mapType : b.mapType = a.mapType := congrArg (fun f => f.2.2) same
  obtain ⟨nested, delete, pointer⟩ := rev b hb
  rw [mapType] at nested delete pointer
  exact ⟨nested, delete, pointer⟩

/-- Releasing one argument undoes mapping it. -/
theorem footprint_unmapArgument {index : Nat} (hs : s.activation.link.Sound)
    (rev : ∀ a ∈ s.arguments.arguments, a.Reversible)
    (member : ∀ a, s.arguments.arguments[index]? = some a →
      a.MemberMapped s.activation.link.device.mappings)
    (entered : Returns (mapArgument settings index) s u s')
    (finite : s.activation.link.CountsStayFinite s'.activation.link)
    (frames : s'.arguments.SameFrames t.arguments)
    (here : t.arguments.arguments[index]? = s'.arguments.arguments[index]?)
    (same : t.activation.link.footprint = s'.activation.link.footprint)
    (left : Returns (unmapArgument settings index) t v t') :
    t'.activation.link.footprint = s.activation.link.footprint := by
  cases ha : s.arguments.arguments[index]? with
  | none =>
      obtain ⟨a, s₁, hg, -⟩ := returns_bind.1 entered
      have got := (returns_arguments.1 hg).1
      rw [ArgumentList.get_eq_ok, ha] at got
      cases got
  | some a =>
      have reva := rev a (List.mem_of_getElem? ha)
      obtain ⟨b, rebased, pointer⟩ := rebased_of_mapArgument entered ha reva
      have headed : t.arguments.headsStruct index = s.arguments.headsStruct index :=
        ArgumentList.headsStruct_congr ((along_mapArgument.returns entered).arguments.trans frames)
      have padded : isPadded t.arguments index { a with base := b } =
          isPadded s.arguments index a := by rw [isPadded, isPadded, headed]
      have released := returns_unmapArgument left (here.trans rebased) reva.nested
      rcases returns_mapArgument entered ha reva.nested with
        ⟨hm, rfl⟩ | ⟨hm, base?, s₁, l, mapped, rfl, -⟩
      · rcases released with ⟨-, rfl⟩ | ⟨hm', -⟩
        · exact same
        · rw [show Argument.isMapped { a with base := b } = a.isMapped from rfl, hm] at hm'
          cases hm'
      · rcases released with ⟨hm', -⟩ | ⟨-, released⟩
        · rw [show Argument.isMapped { a with base := b } = a.isMapped from rfl, hm] at hm'
          cases hm'
        · rw [padded] at released
          exact footprint_unmapRegion hs reva hm (member a ha) (isPadded_isMember ha) mapped finite
            pointer same released

/-- The positions of a list are released in the opposite order. When the turn of one comes, all that
was mapped after it is gone. -/
theorem footprint_unmapArguments {indices : List Nat} (hs : s.activation.link.Sound)
    (distinct : indices.Nodup) (rev : ∀ a ∈ s.arguments.arguments, a.Reversible)
    (member : ∀ before i after, indices = before ++ i :: after → ∀ a s₁,
      Returns (before.forM (mapArgument settings)) s () s₁ →
      s₁.arguments.arguments[i]? = some a → a.MemberMapped s₁.activation.link.device.mappings)
    (entered : Returns (indices.forM (mapArgument settings)) s u s')
    (finite : s.activation.link.CountsStayFinite s'.activation.link)
    (frames : s'.arguments = t.arguments)
    (same : t.activation.link.footprint = s'.activation.link.footprint)
    (left : Returns (indices.reverse.forM (unmapArgument settings)) t v t') :
    t'.activation.link.footprint = s.activation.link.footprint := by
  induction indices generalizing s t' v with
  | nil =>
      rw [(returns_pure.1 left).2, same, (returns_pure.1 entered).2]
  | cons index rest ih =>
      obtain ⟨fresh, distinct⟩ := List.nodup_cons.1 distinct
      obtain ⟨s₁, first, later⟩ := returns_forM_cons.1 entered
      rw [List.reverse_cons, returns_forM_append] at left
      obtain ⟨t₁, laterLeft, rest'⟩ := left
      obtain ⟨t₂, firstLeft, done⟩ := returns_forM_cons.1 rest'
      rw [(returns_pure.1 done).2]
      have entered₁ := along_mapArgument.returns first
      have entered' := (along_mapArguments rest).returns later
      have sound₁ := entered₁.link.sound hs
      have finite₁ : s.activation.link.CountsStayFinite s₁.activation.link :=
        finite.within hs (Lasting.refl _) entered'.link sound₁
      have finite' : s₁.activation.link.CountsStayFinite s'.activation.link :=
        finite.within hs entered₁.link (Lasting.refl _) (entered'.link.sound sound₁)
      have undone := ih sound₁ distinct (reversible_of_sameFrames entered₁.arguments rev)
        (fun before i after split a s₂ h => member (index :: before) i after (by rw [split]; rfl) a s₂
          (returns_forM_cons.2 ⟨s₁, first, h⟩)) later finite' laterLeft
      have kept : t₁.arguments = s'.arguments :=
        ((Along.forM (fun _ => along_unmapArgument) _).returns laterLeft).arguments.trans frames.symm
      refine footprint_unmapArgument hs rev (fun a ha => ?_) first finite₁ ?_ ?_ undone firstLeft
      · exact member [] index rest rfl a s rfl ha
      · rw [kept]
        exact entered'.arguments
      · rw [kept]
        exact others_mapArguments later fresh

/-- Whenever the turn of an argument comes that is a member of a struct, what it belongs to is mapped
already. -/
def MembersMapped (settings : Settings) (s : RegionState) : Prop :=
  ∀ i a s', Returns ((List.range i).forM (mapArgument settings)) s () s' →
    s'.arguments.arguments[i]? = some a → a.MemberMapped s'.activation.link.device.mappings

/-- Leaving a region gives back exactly what entering it took. -/
theorem footprint_leave (hs : s.activation.link.Sound)
    (rev : ∀ a ∈ s.arguments.arguments, a.Reversible) (member : MembersMapped settings s)
    (entered : Returns (enter settings) s u s')
    (finite : s.activation.link.CountsStayFinite s'.activation.link)
    (arguments : t.arguments = s'.arguments)
    (same : t.activation.link.footprint = s'.activation.link.footprint)
    (left : Returns (leave settings) t v t') :
    t'.activation.link.footprint = s.activation.link.footprint := by
  rw [enter, returns_get_bind, returns_bind] at entered
  obtain ⟨_, s₁, mapped, flushed⟩ := entered
  have sent := along_flush.returns flushed
  have grown := (along_mapArguments _).returns mapped
  rw [leave, returns_get_bind] at left
  have size : t.arguments.size = s.arguments.size := by
    rw [arguments, sent.arguments, grown.arguments.size]
  rw [size] at left
  have finite₁ := finite.within hs (Lasting.refl _) sent.link.grown (grown.link.sound hs)
  refine footprint_unmapArguments hs List.nodup_range rev (fun before i after split a s₂ h => ?_)
    mapped finite₁ (arguments.trans sent.arguments).symm (same.trans sent.link.footprint) left
  have turn : before = List.range i := by
    have lt : before.length < s.arguments.size := by
      have := congrArg List.length split
      rw [List.length_range, List.length_append, List.length_cons] at this
      omega
    have there : i = before.length := by
      have := congrArg (fun l => l[before.length]?) split
      simpa [lt] using this.symm
    have prefix' := congrArg (List.take before.length) split
    rw [List.take_left, List.take_range, Nat.min_eq_left (Nat.le_of_lt lt)] at prefix'
    rw [there]
    exact prefix'.symm
  rw [turn] at h
  exact member i a s₂ h

end Region

/-! ## Calls -/

namespace Platform

variable {pl pl' : Platform} {dev : Nat} {l l' : Link} {id : Int}

/-- The mappings of all devices and the live blocks of all accelerators. -/
def footprint (pl : Platform) :
    List (Nat × Int × AddressMap Mapping) × List (List (Nat × List (Nat × Nat))) :=
  (pl.devices.map fun slot =>
    (slot.accelerator, slot.device.unit, slot.device.mappings.entries),
    pl.accelerators.map Accelerator.footprint)

theorem footprint_congr (h : pl'.links = pl.links) : pl'.footprint = pl.footprint := by
  rw [links, links, Prod.mk.injEq] at h
  rw [footprint, footprint, h.1, h.2]

theorem footprint_setLink (hl : pl.link? dev = some l) (same : l'.footprint = l.footprint) :
    (pl.setLink dev l').footprint = pl.footprint := by
  obtain ⟨slot, hs, device, ha⟩ := link?_eq_some_iff.1 hl
  obtain ⟨unit, entries, blocks⟩ := Link.footprint_eq_iff.1 same
  rw [footprint, footprint, setLink, hs]
  refine Prod.ext (Accelerator.map_set_of_same hs ?_) (Accelerator.map_set_of_same ha blocks)
  change (slot.accelerator, l'.device.unit, l'.device.mappings.entries) = _
  rw [unit, entries, device]

/-- Ending a region right after it began gives back what beginning it took: the mappings with their
places and counts, the live blocks and the bytes in use are what they were before, on every device. -/
theorem footprint_dataEnd {arguments : ArgumentList} {s s' : CallState} {u v : Unit}
    (reachable : pl.Reachable) (loaded : ∀ slot ∈ pl.devices, slot.device.pending = false)
    (reversible : ∀ a ∈ arguments.arguments, a.Reversible)
    (members : ∀ dev pl' link, Returns (ready id) pl dev pl' → pl'.link? dev = some link →
      Region.MembersMapped pl'.settings (CallState.region { platform := pl', arguments } link))
    (begun : Returns (dataBegin id) { platform := pl, arguments } u s)
    (finite : ∀ dev link link', pl.link? dev = some link → s.platform.link? dev = some link' →
      link.CountsStayFinite link')
    (ended : Returns (dataEnd id) s v s') : s'.platform.footprint = pl.footprint := by
  have settled : ∀ {dev link}, pl.link? dev = some link → link.device.pending = false := by
    intro dev link hl
    obtain ⟨slot, hs, device, -⟩ := link?_eq_some_iff.1 hl
    rw [← device]
    exact loaded slot (List.mem_of_getElem? hs)
  -- the device is prepared and the region entered
  obtain ⟨dev, pl₁, l₁, r, metrics, ready₁, hl₁, entered, args, after⟩ := returns_phase begun
  obtain ⟨l₀, l₀', hl₀, prepared, rfl⟩ := returns_ready ready₁ fun l hl => settled hl
  rw [link?_setLink hl₀, Option.some.injEq] at hl₁
  subst hl₁
  have sound₁ := prepared.still.sound (reachable.sound.link hl₀)
  have grown := ((Region.along_enter _).returns entered).link
  have links₁ : s.platform.links = (pl.setLink dev r.activation.link).links := by
    rw [after]
    exact links_setLink_setLink rfl
  have hr : s.platform.link? dev = some r.activation.link := by
    rw [link?_congr links₁, link?_setLink hl₀]
  have settings : s.platform.settings = pl.settings := by
    rw [after]
    exact settings_setLink.trans settings_setLink
  have listed : s.platform.listed = pl.listed := by
    rw [after]
    exact listed_setLink.trans listed_setLink
  -- the same device is prepared again and the region left
  obtain ⟨dev', pl₂, l₂, r', metrics', ready₂, hl₂, left, -, after'⟩ := returns_phase ended
  have pending : r.activation.link.device.pending = false := by
    rw [grown.pending]
    exact prepared.still.pending.trans (settled hl₀)
  have again := returns_deviceIndex_congr settings listed (index_of_ready ready₁)
  obtain ⟨rfl, -⟩ := again.unique (index_of_ready ready₂)
  obtain ⟨r₀, r₀', hr₀, prepared', rfl⟩ := returns_ready ready₂ fun l hl => by
    rw [hr, Option.some.injEq] at hl
    exact hl ▸ pending
  rw [hr, Option.some.injEq] at hr₀
  subst hr₀
  rw [link?_setLink hr, Option.some.injEq] at hl₂
  subst hl₂
  rw [settings_setLink, settings] at left
  rw [settings_setLink] at entered
  -- leaving gives back what entering took, and preparing takes nothing
  have restored : r'.activation.link.footprint = l₀'.footprint := by
    have counts : l₀'.CountsStayFinite r.activation.link := by
      have := finite dev' l₀ _ hl₀ hr
      obtain ⟨_, device⟩ := prepared.device
      intro m hm inf
      rw [device]
      exact this m hm inf
    have members₁ := members dev' _ l₀' ready₁ (link?_setLink hl₀)
    rw [settings_setLink] at members₁
    exact Region.footprint_leave sound₁ reversible members₁ entered counts args
      prepared'.still.footprint left
  have links₂ : s'.platform.links = (pl.setLink dev' r'.activation.link).links := by
    rw [after']
    exact links_setLink_setLink (links_setLink_setLink links₁)
  rw [footprint_congr links₂]
  exact footprint_setLink hl₀ (restored.trans prepared.still.footprint)

theorem footprint_dataEnd_holderList :
    ∃ s s', Returns (dataBegin 0) { platform := oneDevice, arguments := holderList } () s ∧
      Returns (dataEnd 0) s () s' ∧ s'.platform.footprint = oneDevice.footprint := by
  have begun : Returns (dataBegin 0) { platform := oneDevice, arguments := holderList } () _ :=
    returns_of_ok (by cbv)
  have ended : Returns (dataEnd 0)
      (exec (dataBegin 0) { platform := oneDevice, arguments := holderList }).2 () _ :=
    returns_of_ok (by cbv)
  refine ⟨_, _, begun, ended, footprint_dataEnd (.fresh fresh_oneDevice) ?_ ?_ ?_ begun ?_ ended⟩
  · intro slot hs
    rw [List.mem_singleton.1 hs]
  · intro a ha
    simp only [holderList, List.mem_cons, List.not_mem_nil, or_false] at ha
    rcases ha with rfl | rfl
    · exact ⟨by decide, by decide, by decide⟩
    · exact ⟨by decide, by decide, by decide⟩
  · intro dev pl' link prepared hl i a s' mapped ha
    have first : Returns (ready 0) oneDevice 0 _ := returns_of_ok (by cbv)
    obtain ⟨rfl, rfl⟩ := first.unique prepared
    have same := ((Region.along_mapArguments _).returns mapped).arguments
    have frame := same.map i
    rw [ha] at frame
    rcases i with _ | _ | i
    · intro _ member
      have : a.mapType = .ofFlags [.toDevice, .fromDevice] := congrArg (fun f => f.2.2) (Option.some.inj frame)
      rw [this] at member
      cases member
    · have slotMapped : ((exec (ready 0) oneDevice).2.link? 0).all (fun link =>
          ((exec ((List.range 1).forM (Region.mapArgument (exec (ready 0) oneDevice).2.settings))
            (CallState.region { platform := (exec (ready 0) oneDevice).2, arguments := holderList }
              link)).2.activation.link.device.mappings.lookup 64 8).isFound) = true := by
        cbv
      rw [hl] at slotMapped
      have other := Region.others_mapArguments mapped (i := 1) (by decide)
      rw [ha] at other
      cases other
      intro _ _
      have : s' = _ := (congrArg Prod.snd mapped).symm
      rw [this]
      exact slotMapped
    · cases frame
  · intro dev link link' _ hl m hm inf
    have finite : (exec (dataBegin 0) { platform := oneDevice, arguments := holderList }).2.platform.devices.all
        (fun slot => slot.device.mappings.entries.items.all fun m => !m.refCount.isInfinite) = true := by
      cbv
    obtain ⟨slot, hs, device, -⟩ := link?_eq_some_iff.1 hl
    have counts := List.all_eq_true.1 (List.all_eq_true.1 finite slot (List.mem_of_getElem? hs)) m
      (by rw [device]; exact hm)
    rw [inf] at counts
    cases counts

end Platform

end Offloading
