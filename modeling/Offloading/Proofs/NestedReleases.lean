import Offloading.Proofs.HostPointers
import Offloading.Proofs.NestedRegions
/-!
# Releasing lists of plain regions

A section that is released gives back a reference on the place that it starts in, if somebody holds the place.
A section that is empty can always be released, and any other one as long as its place is held. So a list of
sections can be released in whatever order if each place is held at least as often as sections start in it.
-/

namespace Offloading

namespace Link

variable {l k k' : Link} {places : List Mapping} {n n' : Mapping → Nat} {p m : Mapping} {s : HostSection}
  {sections sections' : List HostSection}

/-- The section lies where the places are: no other mapping meets it, and it lies in one of them unless it
is empty. -/
structure Lodged (places : List Mapping) (l : Link) (s : HostSection) : Prop where
  untouched : ∀ m ∈ l.device.mappings, m.Untouched s
  inside : 0 < s.size → ∃ p ∈ places, p.hostBegin ≤ s.first ∧ s.stop ≤ p.hostEnd

/-- The places are held so often that each reference counts, and no call fails. -/
structure Held (places : List Mapping) (n : Mapping → Nat) (l k : Link) : Prop
    extends Occupied places n l k where
  fit : Places places l
  space : ∀ p ∈ places, p.InSpace
  few : ∀ p ∈ places, n p ≤ ReferenceCount.infinite.value / 2
  reliable : k.accelerator.Reliable

/-- How often the places are held after the sections were released. -/
def released (n : Mapping → Nat) (sections : List HostSection) (p : Mapping) : Nat :=
  n p - p.touches sections

theorem released_append : released (released n sections) sections' = released n (sections ++ sections') := by
  funext p
  rw [released, released, released, Mapping.touches_append, Nat.sub_sub]

theorem released_le : released n sections p ≤ n p := Nat.sub_le ..

namespace Held

theorem congr (h : Held places n l k) (same : ∀ p ∈ places, n' p = n p) : Held places n' l k :=
  ⟨h.toOccupied.congr same, h.fit, h.space, fun p hp => same p hp ▸ h.few p hp, h.reliable⟩

theorem still (h : Held places n l k) (still : k.Still k') (service : k.SameService k') :
    Held places n l k' :=
  ⟨h.toOccupied.still (still.sound h.sound) still.footprint, h.fit, h.space, h.few,
    service.reliable h.reliable⟩

/-- References were given back. -/
theorem lower (h : Held places n l k) (occupied : Occupied places n' l k')
    (fewer : ∀ p ∈ places, n' p ≤ n p) (service : k.SameService k') : Held places n' l k' :=
  ⟨occupied, h.fit, h.space, fun p hp => Nat.le_trans (fewer p hp) (h.few p hp),
    service.reliable h.reliable⟩

/-- Places that nobody holds are none. -/
theorem drop {new : List Mapping} (h : Held (new ++ places) n l k) (gone : ∀ p ∈ new, n p = 0) :
    Held places n l k :=
  ⟨h.toOccupied.drop gone, h.fit.tail rfl, fun p hp => h.space p (List.mem_append_right _ hp),
    fun p hp => h.few p (List.mem_append_right _ hp), h.reliable⟩

end Held

/-- A section of the places can only meet a place that is held and that it starts in. -/
theorem Occupied.place_of_lookup (h : Occupied places n l k) (fit : Places places l)
    (lodged : Lodged places l s) (found : (k.device.mappings.lookup s.first s.size).mapping? = some m) :
    ∃ p ∈ places, 0 < n p ∧ m = p.counted (n p) ∧ p.contains s.first = true := by
  rcases MappingTable.lookup_cases found with inside | ⟨-, above, reaches⟩
  · exact h.place_of_containing? inside fun m hm => (lodged.untouched m hm).2
  · -- a mapping above the first byte does not meet the section, since that lies in a place
    obtain ⟨hm, higher, -⟩ := AddressMap.above?_eq_some_iff.1 above
    rw [Mapping.address_eq] at higher
    have stop : Word.saturatingAdd s.first s.size ≤ s.stop := Nat.min_le_left _ _
    have nonempty := h.sound.mappings.nonempty m hm
    obtain ⟨p, hp, lower, upper⟩ := lodged.inside (by rw [HostSection.stop] at stop; omega)
    rcases (h.mappings m).1 hm with ⟨q, hq, -, rfl⟩ | old
    · have begins : (q.counted (n q)).hostBegin = q.hostBegin := rfl
      have ends : (q.counted (n q)).hostEnd = q.hostEnd := rfl
      have ne : p ≠ q := by
        rintro rfl
        omega
      rcases fit.apart.forall hp hq ne with before | after
      · omega
      · omega
    · rcases (lodged.untouched m old).1 with before | after
      · omega
      · omega

namespace Places

variable (fit : Places places l)

include fit

/-- A section lies in the place that it starts in. -/
theorem stop_le (lodged : Lodged places l s) (hp : p ∈ places) (inside : p.contains s.first = true) :
    s.stop ≤ p.hostEnd := by
  obtain ⟨lower, upper⟩ := Mapping.contains_iff.1 inside
  by_cases empty : s.size = 0
  · rw [HostSection.stop]
    omega
  · obtain ⟨q, hq, begins, ends⟩ := lodged.inside (Nat.pos_of_ne_zero empty)
    have there : q.contains s.first = true :=
      Mapping.contains_iff.2 ⟨begins, by rw [HostSection.stop] at ends; omega⟩
    exact fit.eq_of_contains hp hq inside there ▸ ends

/-- When a place gives back a reference, then as many as the section has there were given back. -/
theorem update_eq_released (hp : p ∈ places) (inside : p.contains s.first = true) :
    ∀ q ∈ places, released n [s] q = Function.update n p (n p - 1) q := by
  intro q hq
  rw [released]
  by_cases same : q = p
  · rw [same, Function.update_self, Mapping.touches_one inside]
  · have outside : q.contains s.first = false :=
      Bool.eq_false_iff.2 fun there => same (fit.eq_of_contains hq hp there inside)
    rw [Function.update_of_ne same, Mapping.touches_none outside, Nat.sub_zero]

end Places

/-- A section that starts in no place that is held gives nothing back. -/
theorem released_eq (free : ∀ p ∈ places, 0 < n p → p.contains s.first = false) :
    ∀ p ∈ places, released n [s] p = n p := by
  intro p hp
  rw [released]
  by_cases held : 0 < n p
  · rw [Mapping.touches_none (free p hp held), Nat.sub_zero]
  · omega

end Link

/-! ## Regions -/

namespace Region

open RegionM

variable {settings : Settings} {padded : Bool} {r : Argument} {t t' t₁ t₂ : RegionState} {l k : Link}
  {places : List Mapping} {n : Mapping → Nat} {p : Mapping} {u : Unit} {plans : List RegionPlan}

/-- A section that is held is copied back, its pointers are restored, and it is unmapped if it loses its
mapping. -/
theorem releases_held {first size : Nat} {held : HeldSection} {copied : Bool}
    (sec : mappedSection settings padded r = (first, size))
    (holding : Returns (Device.hold first size (!isPlainMember r)) t.activation.link (some held) k)
    (copying : Returns (copyBack r first size held.addr (isRemoved r held)) (t.withLink k) copied t₁)
    (restoring : Returns (restoreShadows settings first size copied (isRemoved r held)) t₁ () t₂)
    (last : Returns (if isRemoved r held then onDevice (Device.unmap first size (r.mapType.has .delete))
      else pure ()) t₂ () t') :
    Returns (releaseSection settings padded r) t () t' := by
  unfold releaseSection
  rw [sec]
  exact returns_bind.2 ⟨some held, t.withLink k, lifts_onDevice.returns.2 ⟨k, holding, rfl⟩,
    returns_bind.2 ⟨copied, t₁, copying, returns_bind.2 ⟨(), t₂, restoring, last⟩⟩⟩

/-- A region that is no member, and that is not dropped by force while others hold it, loses its mapping if
nobody else holds it. -/
theorem releases_free {held : HeldSection} {copied : Bool} (member : r.mapType.isMember = false)
    (gentle : r.mapType.has .delete = true → held.isLast = true)
    (holding : Returns (Device.hold r.start r.size true) t.activation.link (some held) k)
    (copying : Returns (copyBack r r.start r.size held.addr held.isLast) (t.withLink k) copied t₁)
    (restoring : Returns (restoreShadows settings r.start r.size copied held.isLast) t₁ () t₂)
    (last : Returns (if held.isLast then
      onDevice (Device.unmap r.start r.size (r.mapType.has .delete)) else pure ()) t₂ () t') :
    Returns (releaseSection settings false r) t () t' := by
  have whole : isPlainMember r = false := by rw [isPlainMember, member, Bool.false_and]
  have removed : isRemoved r held = held.isLast := by
    rw [isRemoved, whole, Bool.not_false, Bool.and_true]
    cases delete : r.mapType.has .delete with
    | false => exact Bool.or_false _
    | true => rw [gentle delete, Bool.or_true]
  refine releases_held rfl ?_ (removed ▸ copying) (removed ▸ restoring) ?_
  · rwa [whole]
  · rwa [removed]

/-- A plain region is released as a section. -/
theorem unmapRegion_plain (plain : r.Plain) :
    unmapRegion settings false r = releaseSection settings false r := by
  rw [unmapRegion, plain.isMapped, plain.pointer, Bool.not_true, if_neg Bool.false_ne_true, Bool.false_and,
    if_neg Bool.false_ne_true]
  exact bind_pure_unit

/-- Bytes that can be read are copied back, if they have to be. -/
theorem exists_returns_copyBack {first size source : Nat} {removed : Bool}
    (member : r.mapType.isMember = false)
    (reads : ∃ content k, Returns (Device.retrieve source size) t.activation.link content k) :
    ∃ copied t', Returns (copyBack r first size source removed) t copied t' := by
  rw [copyBack]
  dsimp only
  rw [member, Bool.false_and, if_neg Bool.false_ne_true]
  by_cases comes : r.mapType.has .fromDevice = true
  · rw [if_pos comes]
    by_cases copies : (removed || r.mapType.has .always || false) = true
    · obtain ⟨content, k, read⟩ := reads
      let back : RegionState := { t.withLink k with host := t.host.write first content }
      refine ⟨true, back, returns_bind.2 ⟨false, t, rfl, ?_⟩⟩
      rw [if_pos copies]
      exact returns_bind.2 ⟨content, t.withLink k, lifts_onDevice.returns.2 ⟨k, read, rfl⟩, rfl⟩
    · refine ⟨false, t, returns_bind.2 ⟨false, t, rfl, ?_⟩⟩
      rw [if_neg copies]
      exact returns_pure.2 ⟨rfl, rfl⟩
  · exact ⟨false, t, by rw [if_neg comes]; exact returns_pure.2 ⟨rfl, rfl⟩⟩

/-- What happens between holding a section of a place and unmapping it. -/
theorem copies_held {removed : Bool} (member : r.mapType.isMember = false) (h : l.Held places n t.activation.link)
    (lodged : l.Lodged places r.hostSection) (hp : p ∈ places) (pos : 0 < n p)
    (inside : p.contains r.start = true) :
    ∃ copied t₁ t₂, Returns (copyBack r r.start r.size (p.translate r.start) removed) t copied t₁ ∧
      Returns (restoreShadows settings r.start r.size copied removed) t₁ () t₂ ∧
      l.Held places n t₂.activation.link := by
  obtain ⟨copied, t₁, copying⟩ := exists_returns_copyBack member
    (h.returns_retrieve (s := r.hostSection) h.fit hp inside pos (h.space p hp)
      (h.fit.stop_le lodged hp inside) h.reliable)
  obtain ⟨t₂, restoring, -⟩ := returns_restoreShadows settings r.start r.size copied removed t₁
  refine ⟨copied, t₁, t₂, copying, restoring, ?_⟩
  have copy := (along_copyBack.returns copying).link.still
  have restore := ((along_restoreShadows Device.along_visitShadows_still).returns restoring).link
  exact h.still (Lasting.trans copy restore) (Lasting.trans
    (admits_sameService.toLeaves.copyBack.returns copying)
    (admits_sameService.toLeaves.restoreShadows.returns restoring))

/-- A section is released from the place that it starts in. -/
theorem attains_releaseSection_held (member : r.mapType.isMember = false)
    (gentle : r.mapType.has .delete = true → n p = 1) (h : l.Held places n t.activation.link)
    (lodged : l.Lodged places r.hostSection) (hp : p ∈ places) (pos : 0 < n p)
    (inside : p.contains r.start = true) :
    Attains (releaseSection settings false r) t () fun t' =>
      l.Held places (Link.released n [r.hostSection]) t'.activation.link := by
  have given := h.fit.update_eq_released (n := n) (s := r.hostSection) hp inside
  have fewer : ∀ q ∈ places, Link.released n [r.hostSection] q ≤ n q := fun _ _ => Link.released_le
  rcases Nat.lt_or_ge 1 (n p) with several | one
  · obtain ⟨k, holding, occupied⟩ :=
      h.hold_more (s := r.hostSection) h.fit hp inside several (h.few p hp)
    have after : l.Held places (Link.released n [r.hostSection]) k :=
      h.lower (occupied.congr given) fewer (Device.along_hold_service.returns holding)
    have pos' : 0 < Link.released n [r.hostSection] p := by
      rw [given p hp, Function.update_self]
      omega
    obtain ⟨copied, t₁, t₂, copying, restoring, held⟩ :=
      copies_held (t := t.withLink k) member after lodged hp pos'
        inside
    have kept : r.mapType.has .delete = true → false = true := fun delete => by
      have := gentle delete
      omega
    exact ⟨t₂, releases_free member kept holding copying restoring (returns_pure.2 ⟨rfl, rfl⟩), held⟩
  · have one : n p = 1 := by omega
    have holding := h.hold_last (s := r.hostSection) h.fit hp inside one
    obtain ⟨copied, t₁, t₂, copying, restoring, held⟩ :=
      copies_held (t := t.withLink t.activation.link) member h lodged hp pos inside
    obtain ⟨k, unmapped, occupied⟩ :=
      held.unmap_last (s := r.hostSection) h.fit hp inside one held.reliable (r.mapType.has .delete)
    refine ⟨t₂.withLink k, releases_free member (fun _ => rfl) holding copying restoring
      (lifts_onDevice.returns.2 ⟨k, unmapped, rfl⟩), ?_⟩
    refine held.lower (occupied.congr fun q hq => ?_) fewer (Device.along_unmap_service.returns unmapped)
    rw [given q hq, one]

/-- A section can be released if it is empty or its place is held. -/
theorem attains_releaseSection_lodged (member : r.mapType.isMember = false)
    (gentle : r.mapType.has .delete = true → ∀ p ∈ places, p.contains r.start = true → n p = 1) (h : l.Held places n t.activation.link)
    (lodged : l.Lodged places r.hostSection)
    (ready : 0 < r.size → ∃ p ∈ places, 0 < n p ∧ p.contains r.start = true) :
    Attains (releaseSection settings false r) t () fun t' =>
      l.Held places (Link.released n [r.hostSection]) t'.activation.link := by
  by_cases held : ∃ p ∈ places, 0 < n p ∧ p.contains r.start = true
  · obtain ⟨p, hp, pos, inside⟩ := held
    exact attains_releaseSection_held member (fun delete => gentle delete p hp inside) h lodged hp pos inside
  · have empty : r.size = 0 := Nat.eq_zero_of_not_pos fun pos => held (ready pos)
    have unmapped : (t.activation.link.device.mappings.lookup r.start r.size).mapping? = none := by
      refine Option.eq_none_iff_forall_ne_some.2 fun m found => ?_
      obtain ⟨p, hp, pos, -, inside⟩ := h.place_of_lookup h.fit lodged found
      exact held ⟨p, hp, pos, inside⟩
    have holding : Returns (Device.hold r.start r.size true) t.activation.link none t.activation.link := by
      rw [Device.hold, DeviceM.returns_device_bind, unmapped]
      exact returns_pure.2 ⟨rfl, rfl⟩
    refine ⟨t, ?_, h.congr (Link.released_eq fun p hp pos => ?_)⟩
    · unfold releaseSection
      rw [show mappedSection settings false r = (r.start, r.size) from rfl]
      refine returns_bind.2 ⟨Option.none, t, lifts_onDevice.returns.2 ⟨t.activation.link, ?_, rfl⟩, ?_⟩
      · rw [member]
        exact holding
      · dsimp only
        rw [if_pos empty]
        exact returns_pure.2 ⟨rfl, rfl⟩
    · exact Bool.eq_false_iff.2 fun inside => held ⟨p, hp, pos, inside⟩

/-- A plain region can be released if it is empty or its place is held. -/
theorem attains_release_plain (plain : r.Plain) (h : l.Held places n t.activation.link)
    (lodged : l.Lodged places r.hostSection)
    (ready : 0 < r.size → ∃ p ∈ places, 0 < n p ∧ p.contains r.start = true) :
    Attains (unmapRegion settings false r) t () fun t' =>
      l.Held places (Link.released n [r.hostSection]) t'.activation.link := by
  rw [unmapRegion_plain plain]
  exact attains_releaseSection_lodged plain.member (fun delete => absurd delete (Bool.eq_false_iff.1 plain.delete)) h
    lodged ready

/-- A plain region that was released was empty, or its place was held. -/
theorem ready_of_release_plain (plain : r.Plain) (h : l.Held places n t.activation.link)
    (lodged : l.Lodged places r.hostSection) (ran : Returns (unmapRegion settings false r) t u t') :
    0 < r.size → ∃ p ∈ places, 0 < n p ∧ p.contains r.start = true := by
  intro pos
  obtain ⟨t₁, section', -⟩ := returns_unmapRegion ran plain.isMapped
  obtain ⟨held?, k, first, size, sec, holding, rest⟩ := returns_releaseSection section'
  cases sec
  rcases rest with ⟨-, empty, -⟩ | ⟨held, copied, t₁, t₂, rfl, -⟩
  · omega
  · rcases Device.returns_hold holding with ⟨-, none, -⟩ | ⟨m, found, -⟩
    · cases none
    · obtain ⟨p, hp, held, -, inside⟩ := h.place_of_lookup h.fit lodged found
      exact ⟨p, hp, held, inside⟩

/-! ## Lists of regions -/

theorem forRegions_known {step : Argument → RegionM Unit} :
    forRegions step (.known r :: plans) = (do
      step r
      forRegions step plans) := rfl

/-- Plain regions are released one after the other if each place is held at least as often as sections start
in it. -/
theorem attains_forRegions_plain (plain : ∀ plan ∈ plans, plan.Plain)
    (h : l.Held places n t.activation.link)
    (lodged : ∀ s ∈ plans.filterMap RegionPlan.section?, l.Lodged places s)
    (enough : ∀ p ∈ places, p.touches (plans.filterMap RegionPlan.section?) ≤ n p) :
    Attains (forRegions (unmapRegion settings false) plans) t () fun t' =>
      l.Held places (Link.released n (plans.filterMap RegionPlan.section?)) t'.activation.link := by
  induction plans generalizing t n with
  | nil => exact Attains.pure h
  | cons plan rest ih =>
      obtain ⟨plain, others⟩ := List.forall_mem_cons.1 plain
      cases plan with
      | pointee slot size mapType => exact plain.elim
      | known r =>
          have split : (RegionPlan.known r :: rest).filterMap RegionPlan.section? =
              r.hostSection :: rest.filterMap RegionPlan.section? := rfl
          rw [split] at lodged enough ⊢
          obtain ⟨here, later⟩ := List.forall_mem_cons.1 lodged
          rw [forRegions_known]
          refine (attains_release_plain plain h here fun pos => ?_).bind fun t' held => ?_
          · obtain ⟨p, hp, lower, upper⟩ := here.inside pos
            have inside : p.contains r.start = true :=
              Mapping.contains_iff.2 ⟨lower, Nat.lt_of_lt_of_le (Nat.lt_add_of_pos_right pos) upper⟩
            refine ⟨p, hp, Nat.lt_of_lt_of_le ?_ (enough p hp), inside⟩
            rw [Mapping.touches_cons, Mapping.touches_one inside]
            omega
          · have left := ih others held later fun p hp => ?_
            · rwa [Link.released_append, List.singleton_append] at left
            · have all := enough p hp
              rw [Mapping.touches_cons] at all
              rw [Link.released]
              omega

/-- However plain regions were released, each of them gave back what it could. -/
theorem held_of_forRegions_plain (plain : ∀ plan ∈ plans, plan.Plain)
    (h : l.Held places n t.activation.link)
    (lodged : ∀ s ∈ plans.filterMap RegionPlan.section?, l.Lodged places s)
    (ran : Returns (forRegions (unmapRegion settings false) plans) t u t') :
    l.Held places (Link.released n (plans.filterMap RegionPlan.section?)) t'.activation.link := by
  induction plans generalizing t n with
  | nil =>
      obtain ⟨-, rfl⟩ := returns_pure.1 ran
      exact h
  | cons plan rest ih =>
      obtain ⟨plain, others⟩ := List.forall_mem_cons.1 plain
      cases plan with
      | pointee slot size mapType => exact plain.elim
      | known r =>
          have split : (RegionPlan.known r :: rest).filterMap RegionPlan.section? =
              [r.hostSection] ++ rest.filterMap RegionPlan.section? := rfl
          rw [split] at lodged ⊢
          obtain ⟨here, later⟩ := List.forall_mem_cons.1 lodged
          rw [forRegions_known] at ran
          obtain ⟨_, t₁, first, more⟩ := returns_bind.1 ran
          obtain ⟨t₂, first', held⟩ := attains_release_plain plain h here
            (ready_of_release_plain plain h here first)
          obtain ⟨-, rfl⟩ := first.unique first'
          rw [← Link.released_append]
          exact ih others held later more

end Region

end Offloading
