import Offloading.Proofs.Arrival
import Offloading.Proofs.Backing
import Offloading.Proofs.HostPointers
/-!
# Device pointers

The copy of a patched pointer holds the device value of the pointer. Leaving a region keeps it so, and
refreshing a region patches again what it copies over. Entering a region does not: it must not copy a
section over a patched pointer that it does not patch again.
-/

namespace Offloading

namespace MappingTable

variable {t u : MappingTable} {first size first' size' target : Nat} {c d : Chunk}

theorem Lodges.mono (h : t.Lodges first size target) (places : t.Extends u) :
    u.Lodges first size target := by
  obtain ⟨m, hm, inside, upper, rfl⟩ := h
  obtain ⟨n, hn, place⟩ := places m hm
  refine ⟨n, hn, (place.contains first).trans inside, ?_, ?_⟩
  · rw [place.hostEnd]
    exact upper
  · rw [place.deviceBegin, place.hostBegin]

theorem Holds.mono (h : t.Holds first size) (places : t.Extends u) : u.Holds first size := by
  obtain ⟨m, hm, lower, upper⟩ := h
  obtain ⟨n, hn, place⟩ := places m hm
  exact ⟨n, hn, by rw [place.hostBegin]; exact lower, by rw [place.hostEnd]; exact upper⟩

/-- Chunks for sections that do not meet have no address in common. -/
theorem Unaliased.chunks_apart (unaliased : t.Unaliased) (h : t.Lodges first size c.target)
    (h' : t.Lodges first' size' d.target) (hc : c.content.length ≤ size)
    (hd : d.content.length ≤ size') (apart : first + size ≤ first' ∨ first' + size' ≤ first) :
    c.Apart d := by
  intro addr
  cases hv : c.byte? addr with
  | none => exact .inl rfl
  | some v =>
      refine .inr (Chunk.byte?_eq_none fun inside => ?_)
      obtain ⟨lower, upper⟩ := Chunk.bounds_of_byte? hv
      refine h.apart h' unaliased apart (i := addr - c.target) (j := addr - d.target) ?_ ?_ ?_
      · omega
      · omega
      · omega

end MappingTable

/-- Sections end before the last word and their copies within the address space, and patched pointers do
not overlap. -/
structure Device.Roomy (d : Device) : Prop where
  host : ∀ m ∈ d.mappings, m.hostEnd < Word.greatest
  device : ∀ m ∈ d.mappings, m.deviceBegin + m.length ≤ Word.modulus
  apart : ∀ x ∈ d.shadows, ∀ y ∈ d.shadows, x.hostSlot ≠ y.hostSlot →
    x.hostSlot + Word.bytes ≤ y.hostSlot ∨ y.hostSlot + Word.bytes ≤ x.hostSlot

theorem Device.Roomy.inSpace {d : Device} (h : d.Roomy) : d.mappings.InSpace :=
  fun m hm => ⟨Nat.le_of_lt (h.host m hm), h.device m hm⟩

theorem Device.Roomy.congr {d d' : Device} (h : d.Roomy) (mappings : d'.mappings = d.mappings)
    (shadows : d'.shadows = d.shadows) : d'.Roomy := by
  refine ⟨?_, ?_, ?_⟩
  · rw [mappings]
    exact h.host
  · rw [mappings]
    exact h.device
  · rw [shadows]
    exact h.apart

/-- Where the sections of the device are, and the patched pointers. -/
def Device.layout (d : Device) : List (Nat × Nat × Nat) × List Nat :=
  (d.mappings.entries.items.map fun m => (m.hostBegin, m.hostEnd, m.deviceBegin),
    d.shadows.items.map (·.hostSlot))

theorem Device.roomy_of_layout {d : Device} {sections : List (Nat × Nat × Nat)} {slots : List Nat}
    (h : d.layout = (sections, slots))
    (space : ∀ p ∈ sections, p.2.1 < Word.greatest ∧ p.2.2 + (p.2.1 - p.1) ≤ Word.modulus)
    (apart : ∀ x ∈ slots, ∀ y ∈ slots, x ≠ y → x + Word.bytes ≤ y ∨ y + Word.bytes ≤ x) : d.Roomy := by
  obtain ⟨rfl, rfl⟩ := Prod.mk.inj h
  refine ⟨fun m hm => ?_, fun m hm => ?_, fun x hx y hy other => ?_⟩
  · exact (space _ (List.mem_map_of_mem hm)).1
  · exact (space _ (List.mem_map_of_mem hm)).2
  · exact apart _ (List.mem_map_of_mem hx) _ (List.mem_map_of_mem hy) other

/-- All patched pointers lie in mapped sections, and their copies hold their device values. -/
structure Link.Patched (l : Link) : Prop where
  sound : l.Sound
  backed : l.Backed
  lodged : ∀ x ∈ l.device.shadows, l.device.mappings.Lodges x.hostSlot Word.bytes x.deviceSlot
  carries : ∀ x ∈ l.device.shadows, l.Carries x

namespace Link

variable {l l' : Link} {x y : ShadowPointer}

theorem Patched.tidy (h : l.Patched) : l.Tidy := fun x hx => by
  obtain ⟨m, hm, inside, -⟩ := h.lodged x hx
  exact ⟨m, hm, inside⟩

theorem Patched.unaliased (h : l.Patched) : l.device.mappings.Unaliased := h.backed.unaliased h.sound

theorem Carries.congr (h : l.Carries x) (same : ∀ addr, l'.byte? addr = l.byte? addr) :
    l'.Carries x := fun addr v hv => (same addr).trans (h addr v hv)

theorem Patched.congr (h : l.Patched) (sound : l'.Sound)
    (mappings : l'.device.mappings = l.device.mappings) (shadows : l'.device.shadows = l.device.shadows)
    (memory : l'.memory? = l.memory?) : l'.Patched := by
  refine ⟨sound, h.backed.of_places ?_ fun e _ block => ?_, ?_, ?_⟩
  · rw [mappings]
    exact .refl _
  · rwa [extents_congr memory]
  · rw [mappings, shadows]
    exact h.lodged
  · rw [shadows]
    exact fun x hx => (h.carries x hx).congr fun addr => byte?_congr memory

/-- Moving bytes does no harm as long as the pointers hold their device values afterwards. -/
theorem Patched.transferred (h : l.Patched) (moved : l.Transferred l')
    (carries : ∀ x ∈ l.device.shadows, l'.Carries x) : l'.Patched := by
  refine ⟨moved.still.sound h.sound, h.backed.still moved.still, ?_, ?_⟩
  · rw [moved.still.mappings, moved.extended.shadows]
    exact h.lodged
  · rw [moved.extended.shadows]
    exact carries

/-- Two patched pointers have no address in common. -/
theorem Patched.apart (h : l.Patched) (roomy : l.device.Roomy) (hx : x ∈ l.device.shadows)
    (hy : y ∈ l.device.shadows) (other : y ≠ x) : x.chunk.Apart y.chunk := by
  have slots : x.hostSlot ≠ y.hostSlot := fun same => other (AddressMap.eq_of_address_eq hy hx same.symm)
  exact h.unaliased.chunks_apart (h.lodged x hx) (h.lodged y hy) x.length_chunk y.length_chunk
    (roomy.apart x hx y hy slots)

/-- A pointer that holds its device value can be read. -/
theorem Patched.read (h : l.Patched) (hx : x ∈ l.device.shadows) :
    ∃ k, l.memory? = some k ∧ k.read x.deviceSlot Word.bytes = .ok (Word.toBytes x.deviceValue) := by
  have long : (Word.toBytes x.deviceValue).length = Word.bytes := Word.length_toBytes _
  have read := h.backed.read h.sound (long ▸ h.lodged x hx) (by rw [long]; decide) fun i hi => ?_
  · rwa [long] at read
  · have held : x.chunk.byte? (x.deviceSlot + i) = (Word.toBytes x.deviceValue)[i]? := by
      rw [Chunk.byte?, ShadowPointer.chunk, if_pos (Nat.le_add_right _ _), Nat.add_sub_cancel_left]
    rw [List.getElem?_eq_getElem hi] at held ⊢
    exact h.carries x hx _ _ held

end Link

/-! ## Sections in mappings -/

/-- A look-up takes all of the section as lying in one mapping. -/
def MappingTable.Contains (t : MappingTable) (first size : Nat) : Prop :=
  ∃ m ∈ t, m.contains first = true ∧ Word.saturatingAdd first size ≤ m.hostEnd

namespace MappingTable

variable {t u : MappingTable} {first size : Nat}

theorem Contains.mono (h : t.Contains first size) (places : t.Extends u) : u.Contains first size := by
  obtain ⟨m, hm, inside, upper⟩ := h
  obtain ⟨n, hn, place⟩ := places m hm
  exact ⟨n, hn, (place.contains first).trans inside, by rw [place.hostEnd]; exact upper⟩

/-- Sums are too small to saturate if all sections end before the last word. -/
theorem Contains.holds (h : t.Contains first size) (host : ∀ m ∈ t, m.hostEnd < Word.greatest) :
    t.Holds first size := by
  obtain ⟨m, hm, inside, upper⟩ := h
  have := host m hm
  rw [Word.saturatingAdd] at upper
  exact ⟨m, hm, (Mapping.contains_iff.1 inside).1, by omega⟩

end MappingTable

/-- A section that is mapped explicitly lies in one mapping. -/
theorem Device.contains_of_map {l l' : Link} {first base size : Nat} {updateRef : Bool}
    {mapped : MappedSection}
    (h : Returns (map first base size false updateRef) l (some mapped) l') :
    l'.device.mappings.Contains first size := by
  rcases returns_map h with ⟨m, hl, whole, -, rfl⟩ | ⟨-, -, none, -⟩ | ⟨-, hs, addr, l₁, -, -, hi⟩
  · obtain ⟨found, upper⟩ :=
      MappingTable.containing?_of_not_isPartial hl (whole.resolve_right Bool.false_ne_true)
    obtain ⟨held, inside⟩ := MappingTable.containing?_mem found
    have here : l.device.mappings.Contains first size := ⟨m, held, inside, upper⟩
    exact here.mono (MappingTable.setCount_extends held _)
  · cases none
  · obtain ⟨inserted, rfl⟩ := returns_insertMapping hi
    rcases MappingTable.insert_cases l₁.device.mappings ⟨base, first, first + size, addr, .one⟩ with
      ⟨e, failed, -⟩ | ⟨-, -, -, entries⟩
    · rw [failed] at inserted
      cases inserted
    · refine ⟨⟨base, first, first + size, addr, .one⟩, ?_, ?_, Nat.min_le_left _ _⟩
      · refine MappingTable.mem_entries.1 ?_
        change _ ∈ (l₁.device.mappings.insert _).2.entries
        rw [entries]
        exact AddressMap.mem_insert_self
      · exact Mapping.contains_iff.2 ⟨Nat.le_refl _, Nat.lt_add_of_pos_right hs⟩

namespace Placement

variable {t u : MappingTable} {p : Placement}

/-- The section of the placement lies in one mapping, and so does its pointer. -/
structure Contained (t : MappingTable) (p : Placement) : Prop where
  whole : p.target?.isSome → t.Contains p.first p.size
  pointer : ∀ q, p.pointer? = some q → t.Contains q.hostSlot Word.bytes

theorem Contained.mono (h : p.Contained t) (places : t.Extends u) : p.Contained u :=
  ⟨fun some => (h.whole some).mono places, fun q hq => (h.pointer q hq).mono places⟩

/-- The section of the placement and its pointer are mapped to where the placement says. -/
structure Lodged (t : MappingTable) (p : Placement) : Prop where
  whole : ∀ target, p.target? = some target → t.Lodges p.first p.size target
  pointer : ∀ q, p.pointer? = some q → t.Lodges q.hostSlot Word.bytes q.deviceSlot
  content : p.content.length ≤ p.size

/-- The section that is copied for the placement meets the pointer in the slot. -/
def CopiesOver (p : Placement) (slot : Nat) : Prop :=
  p.content ≠ [] ∧ p.first < slot + Word.bytes ∧ slot < p.first + p.size

/-- The placement has its pointer in the slot. -/
def PointsAt (p : Placement) (slot : Nat) : Prop := ∃ q, p.pointer? = some q ∧ q.hostSlot = slot

end Placement

namespace Region

open RegionM

variable {settings : Settings} {padded : Bool} {region : Argument} {s s' : RegionState} {u : Unit}
  {p : Placement} {x : ShadowPointer}

/-! ## Entering -/

private theorem contained_place (hs : s.activation.link.Sound) (backed : s.activation.link.Backed)
    (explicit : region.mapType.has .implicit = false)
    (placed : Returns (place settings padded region) s p s') :
    p.Contained s'.activation.link.device.mappings ∧ s'.activation.link.Backed := by
  obtain ⟨pointer?, s₁, mapped?, l, content, first, size, base, -, hp, -, mapped, decided, rfl⟩ :=
    returns_place.1 placed
  obtain ⟨rfl, -⟩ := returns_contentIn decided
  rw [explicit] at mapped
  have before := Step.entered (along_mapPointer.returns hp)
  have hs₁ := before.link.sound hs
  have grown := (Device.along_map.returns mapped).toGrown
  have slot : s₁.activation.link.Backed ∧ ∀ q, pointer? = some q →
      s₁.activation.link.device.mappings.Contains q.hostSlot Word.bytes := by
    rcases returns_mapPointer hp with ⟨-, rfl, rfl⟩ | ⟨-, found, l₁, ran, rfl, rfl⟩
    · exact ⟨backed, fun q hq => (nomatch hq)⟩
    · rw [explicit] at ran
      refine ⟨Device.backed_map hs backed ran, fun q hq => ?_⟩
      cases hq
      exact Device.contains_of_map ran
  refine ⟨⟨fun some => ?_, fun q hq => ?_⟩, Device.backed_map hs₁ slot.1 mapped⟩
  · cases mapped? with
    | none => cases some
    | some found => exact Device.contains_of_map mapped
  · exact (slot.2 q hq).mono (grown.mappings.sections hs₁.mappings)

/-- All placements so far lie in mappings, and what is left is mapped explicitly. -/
structure Secured (ps : List Placement) (s : RegionState) : Prop where
  sound : s.activation.link.Sound
  backed : s.activation.link.Backed
  explicit : s.arguments.Explicit
  contained : ∀ p ∈ ps, p.Contained s.activation.link.device.mappings

private theorem Secured.place {ps : List Placement} {s₁ : RegionState} (h : Secured ps s)
    (explicit : region.mapType.has .implicit = false)
    (placed : Returns (place settings padded region) s p s₁) (shipped : Shipped settings p s₁ s') :
    Secured (ps ++ [p]) s' := by
  obtain ⟨-, entered⟩ := given_place h.sound placed
  obtain ⟨new, backed⟩ := contained_place h.sound h.backed explicit placed
  have sent := shipped.sent
  refine ⟨sent.link.sound (entered.link.sound h.sound), backed.still sent.link, ?_, fun q hq => ?_⟩
  · rw [sent.arguments, entered.arguments]
    exact h.explicit
  · rw [sent.link.mappings]
    rcases List.mem_append.1 hq with hq | hq
    · exact (h.contained q hq).mono (entered.link.mappings.sections h.sound.mappings)
    · rw [List.mem_singleton.1 hq]
      exact new

/-- What is mapped explicitly lies in mappings that stay backed. -/
theorem secured_mapArguments {indices : List Nat} (h : Secured [] s)
    (mapped : Returns (indices.forM (mapArgument settings)) s u s') :
    Secured (placementsOn settings indices s) s' := by
  have step : ∀ ps {padded region p s s₁ s'}, Argument.Explicit region → region.isMapped = true →
      Secured ps s → Returns (place settings padded region) s p s₁ → Shipped settings p s₁ s' →
      Secured (ps ++ [p]) s' :=
    fun ps _ _ _ _ _ _ explicit hm h placed shipped => h.place (explicit hm) placed shipped
  exact mapArguments_induct_of step
    (fun h same => ⟨h.sound, h.backed, h.explicit.congr same, h.contained⟩)
    (fun h found plan hp host region => ArgumentList.plans_explicit h.explicit found plan hp host region) h mapped

private theorem lodged_enter (h : s.activation.link.Patched) (explicit : s.arguments.Explicit)
    (entered : Returns (enter settings) s u s') (roomy : s'.activation.link.device.Roomy) :
    s'.activation.link.Sound ∧ s'.activation.link.Backed ∧
      ∀ p ∈ placements settings s, p.Lodged s'.activation.link.device.mappings := by
  obtain ⟨s₁, n, mapped, flushed⟩ := returns_enter entered
  have still := (Strategy.along_flush settings.strategy).returns flushed
  have given := given_mapArguments h.sound mapped
  have secured := secured_mapArguments ⟨h.sound, h.backed, explicit, fun _ hp => (nomatch hp)⟩ mapped
  have contained := secured.contained
  rw [← still.mappings] at given contained
  have sound := still.sound secured.sound
  refine ⟨sound, secured.backed.still still, fun p hp => ⟨fun target ht => ?_, fun q hq => ?_, ?_⟩⟩
  · obtain ⟨m, hm, gives⟩ := (given p hp).target target ht
    refine sound.mappings.lodges roomy.inSpace hm gives fun _ => ?_
    exact ((contained p hp).whole (by rw [ht, Option.isSome_some])).holds roomy.host
  · obtain ⟨m, hm, gives⟩ := (given p hp).pointer q hq
    refine sound.mappings.lodges roomy.inSpace hm gives fun _ => ?_
    exact ((contained p hp).pointer q hq).holds roomy.host
  · rcases (given p hp).content with none | ⟨-, read⟩
    · rw [none]
      exact Nat.zero_le _
    · exact Nat.le_of_eq ((congrArg List.length read).trans (HostMemory.length_read _ _ _))

/-- A region copies a section over the pointer in the slot and does not patch the pointer afterwards. -/
def Smears (settings : Settings) (ps : List Placement) (slot : Nat) : Prop :=
  ∃ earlier p later, ps = earlier ++ p :: later ∧ p.CopiesOver slot ∧
    ∀ q ∈ following earlier p later settings.strategy, ¬ q.PointsAt slot

section sequence

variable {d : Device} {ps : List Placement} {parcels before after : List Parcel} {c : Chunk}
  {r : PointerPatch} (sequence : Sequence settings d ps parcels)
  (lodged : ∀ p ∈ ps, p.Lodged d.mappings)

include sequence lodged

/-- A patch that is resolved late finds the slot where it was mapped. -/
private theorem lodges_of_patch (space : d.mappings.InSpace) (wf : d.mappings.WellFormed)
    (hr : Parcel.patch r ∈ parcels) : d.mappings.Lodges r.hostSlot Word.bytes r.deviceSlot := by
  obtain ⟨p, hp, y, patched, same⟩ := sequence.patches r hr
  obtain ⟨q, hq, rfl⟩ := Placement.patch?_eq_some patched
  have slot := (lodged p hp).pointer q hq
  rcases same with rfl | late
  · exact slot
  · obtain ⟨_, found, rfl⟩ := PointerPatch.resolved?_eq_some_iff.1 late
    have there : d.translate? q.hostSlot Word.bytes = some q.deviceSlot :=
      slot.translate? space (fun _ hm => hm) wf
    rw [there, Option.some.injEq] at found
    exact found ▸ slot

/-- A copy meets a pointer that the region does not smear only if a patch follows. -/
private theorem patch_or_apart (unaliased : d.mappings.Unaliased)
    (direct : settings.config.translatesOnDevice = false)
    (here : d.mappings.Lodges x.hostSlot Word.bytes x.deviceSlot)
    (clean : ¬ Smears settings ps x.hostSlot) (split : parcels = before ++ .copy c :: after) :
    (∃ r, Parcel.patch r ∈ after ∧ r.hostSlot = x.hostSlot) ∨ x.chunk.Apart c := by
  by_cases again : ∃ r, Parcel.patch r ∈ after ∧ r.hostSlot = x.hostSlot
  · exact .inl again
  refine .inr fun addr => ?_
  cases hc : c.byte? addr with
  | none => exact .inr rfl
  | some v =>
      obtain ⟨earlier, p, later, target, sorted, ht, hv, followed⟩ :=
        sequence.copies before c after split addr v hc
      have place := lodged p (sorted ▸ List.mem_append_right _ (List.mem_cons_self ..))
      have some : p.content ≠ [] := by
        intro none
        have := Chunk.bounds_of_byte? hv
        rw [none] at this
        exact Nat.not_lt_of_le this.1 this.2
      have spared : ¬ p.CopiesOver x.hostSlot := by
        refine fun copies => clean ⟨earlier, p, later, sorted, copies, ?_⟩
        rintro q hq ⟨pointer, hpointer, slot⟩
        obtain ⟨r, hr, same⟩ := followed q hq _ (Placement.patch?_of_pointer? direct hpointer)
        exact again ⟨r, hr, same.trans slot⟩
      have away : x.hostSlot + Word.bytes ≤ p.first ∨ p.first + p.size ≤ x.hostSlot := by
        by_cases lower : p.first < x.hostSlot + Word.bytes
        · exact .inr (Nat.le_of_not_lt fun upper => spared ⟨some, lower, upper⟩)
        · exact .inl (Nat.le_of_not_lt lower)
      have apart := unaliased.chunks_apart (d := ⟨target, p.content⟩) here (place.whole target ht)
        x.length_chunk place.content away
      refine .inl ((apart addr).resolve_right ?_)
      rw [hv]
      exact Option.some_ne_none v

end sequence

/-- Entering a region leaves all patched pointers with their device values, unless it smears one. -/
theorem patched_enter (h : s.activation.link.Patched) (idle : s.activation.queue = {})
    (explicit : s.arguments.Explicit) (direct : settings.config.translatesOnDevice = false)
    (entered : Returns (enter settings) s u s') (roomy : s'.activation.link.device.Roomy)
    (clean : ∀ x ∈ s'.activation.link.device.shadows,
      ¬ Smears settings (placements settings s) x.hostSlot) :
    s'.activation.link.Patched ∧ s.activation.link.Confined s'.activation.link := by
  obtain ⟨parcels, arrived, sequence⟩ := arrived_enter h.sound idle entered
  obtain ⟨sound, backed, lodged⟩ := lodged_enter h explicit entered roomy
  have places := ((along_enter settings).returns entered).link.mappings.sections h.sound.mappings
  have unaliased := backed.unaliased sound
  have patches : ∀ r, Parcel.patch r ∈ parcels →
      s'.activation.link.device.mappings.Lodges r.hostSlot Word.bytes r.deviceSlot :=
    fun r hr => lodges_of_patch sequence lodged roomy.inSpace sound.mappings hr
  have slots : ∀ x ∈ s'.activation.link.device.shadows,
      s'.activation.link.device.mappings.Lodges x.hostSlot Word.bytes x.deviceSlot := by
    intro x hx
    rw [arrived.shadows] at hx
    rcases Parcel.mem_shadows hx with old | ⟨r, hr, rfl⟩
    · exact (h.lodged x old).mono places
    · exact patches r hr
  refine ⟨⟨sound, backed, slots, fun x hx addr v hv => ?_⟩, arrived.confined⟩
  rw [arrived.bytes]
  refine Parcel.carried (arrived.shadows ▸ hx) (fun old addr v hv => ?_) (fun r hr other => ?_)
    (fun before c after split => ?_) addr v hv
  · rw [Link.blank, h.carries x old addr v hv, Option.some_or]
  · -- some patch of the same slot is remembered
    obtain ⟨y, hy, -, same⟩ := exists_mem_foldl_insert (t := s.activation.link.device.shadows)
      ⟨r.shadow, List.mem_map_of_mem (Parcel.mem_patches.2 hr), rfl⟩
    have away := roomy.apart x hx y (arrived.shadows ▸ hy) fun e => other (same.symm.trans e.symm)
    rw [same] at away
    exact unaliased.chunks_apart (d := r.shadow.chunk) (slots x hx) (patches r hr) x.length_chunk
      r.shadow.length_chunk away
  · exact patch_or_apart sequence lodged unaliased direct (slots x hx) (clean x hx) split

/-! ## Leaving -/

/-- The device of the region only loses mappings, blocks and shadows. -/
def Sheds (s s' : RegionState) : Prop := s.activation.link.Sheds s'.activation.link

instance : Lasting Sheds where
  refl s := Lasting.refl s.activation.link
  trans h h' := Lasting.trans (R := Link.Sheds) h h'

theorem leaves_sheds : Leaves Sheds where
  rest same _ _ := by
    rw [Sheds, same]
    exact Lasting.refl _
  retrieve := lifts_onDevice.along
    (Device.along_retrieve_holdings.mono Link.sheds_of_holdings) fun _ _ h => h
  visit := lifts_onDevice.along Device.along_visitShadows_sheds fun _ _ h => h
  hold := lifts_onDevice.along Device.along_hold_sheds fun _ _ h => h
  unmap := lifts_onDevice.along Device.along_unmap_sheds fun _ _ h => h

/-- Leaving a region leaves the patched pointers that stay mapped with their device values. -/
theorem patched_leave (settings : Settings) (h : s.activation.link.Patched)
    (roomy : s.activation.link.device.Roomy) :
    (exec (leave settings) s).2.activation.link.Patched ∧
      s.activation.link.Confined (exec (leave settings) s).2.activation.link := by
  obtain ⟨⟨sound, backed⟩, dwindled⟩ := leaves_sheds.leave s ⟨h.sound, h.backed⟩
  have tidy : (exec (leave settings) s).2.activation.link.Tidy :=
    ((along_leave s).link h.sound).2 h.tidy
  have stays : ∀ x ∈ (exec (leave settings) s).2.activation.link.device.shadows,
      ∃ n ∈ (exec (leave settings) s).2.activation.link.device.mappings,
        n.contains x.hostSlot = true ∧ x.hostSlot + Word.bytes ≤ n.hostEnd ∧
          x.deviceSlot = n.deviceBegin + (x.hostSlot - n.hostBegin) := by
    intro x hx
    obtain ⟨m, hm, inside, upper, slot⟩ := h.lodged x (dwindled.shadows x hx)
    obtain ⟨n, hn, inside'⟩ := tidy x hx
    obtain ⟨e, he, place⟩ := dwindled.places n hn
    have bound := (Mapping.contains_iff.1 inside).2
    obtain rfl : e = m := h.sound.mappings.unique he hm ((place.contains _).trans inside') inside
      (Nat.lt_trans bound (roomy.host m hm))
    exact ⟨n, hn, inside', place.hostEnd ▸ upper, by rw [slot, place.deviceBegin, place.hostBegin]⟩
  refine ⟨⟨sound, backed, stays, fun x hx addr v hv => ?_⟩, dwindled.confined⟩
  have before := h.carries x (dwindled.shadows x hx) addr v hv
  rcases dwindled.bytes addr with none | same
  · -- the block of the mapping is still there
    obtain ⟨n, hn, inside, upper, slot⟩ := stays x hx
    obtain ⟨lower, bound⟩ := Chunk.bounds_of_byte? hv
    have long := x.length_chunk
    have start := (Mapping.contains_iff.1 inside).1
    change x.deviceSlot ≤ addr at lower
    change addr < x.deviceSlot + _ at bound
    have held := backed.byte?_isSome sound hn (i := addr - n.deviceBegin) (by
      rw [Mapping.length]
      omega)
    rw [Nat.add_sub_cancel' (by omega), none] at held
    cases held
  · exact same.trans before

/-! ## Refreshing -/

end Region

namespace Link

variable {l l' : Link} {x : ShadowPointer} {c : Chunk} {u : Unit}

theorem Carries.stored (h : l.Carries x) (stored : l.Stored l' [c]) (apart : x.chunk.Apart c) :
    l'.Carries x := by
  intro addr v hv
  have none : c.byte? addr = none := (apart addr).resolve_left (by rw [hv]; exact Option.some_ne_none v)
  rw [stored.bytes, Chunk.written, none]
  exact h addr v hv

/-- A pointer that is written again holds its device value, and keeps it while others are written. -/
theorem carries_resubmit {ys : List ShadowPointer} (wf : l.accelerator.WellFormed)
    (apart : ∀ y ∈ ys, y ≠ x → x.chunk.Apart y.chunk) (h : x ∈ ys ∨ l.Carries x)
    (sent : Returns (ys.forM fun y => Device.submit y.deviceSlot (Word.toBytes y.deviceValue)) l u l') :
    l'.Carries x := by
  induction ys generalizing l with
  | nil =>
      obtain ⟨-, rfl⟩ := returns_pure.1 sent
      exact h.resolve_left (List.not_mem_nil)
  | cons y rest ih =>
      obtain ⟨l₁, first, more⟩ := returns_forM_cons.1 sent
      obtain ⟨here, others⟩ := List.forall_mem_cons.1 apart
      have stored : l.Stored l₁ [y.chunk] := Device.stored_submit wf first
      refine ih ((Device.along_submit.returns first).wellFormed wf) others ?_ more
      by_cases same : y = x
      · subst same
        refine .inr fun addr v hv => ?_
        rw [stored.bytes, Chunk.written, hv]
        rfl
      · rcases h with hx | carries
        · exact .inl ((List.mem_cons.1 hx).resolve_left (Ne.symm same))
        · exact .inr (carries.stored stored (here same))

end Link

theorem Device.returns_resubmitShadows {l l' : Link} {lower upper n : Nat}
    (h : Returns (Device.resubmitShadows lower upper) l n l') :
    n = (l.device.shadows.range lower upper).length ∧
      Returns ((l.device.shadows.range lower upper).forM fun x =>
        Device.submit x.deviceSlot (Word.toBytes x.deviceValue)) l () l' := by
  rw [Device.resubmitShadows, DeviceM.returns_device_bind] at h
  obtain ⟨_, l₁, sent, done⟩ := returns_bind.1 h
  obtain ⟨rfl, rfl⟩ := returns_pure.1 done
  exact ⟨rfl, sent⟩

/-- The section that is sent begins inside of the pointer in the slot. -/
def Turn.Cuts (t : Turn) (slot : Nat) : Prop :=
  t.region.mapType.has .toDevice = true ∧ slot < t.region.start ∧ t.region.start < slot + Word.bytes

namespace Region

open RegionM

variable {region : Argument} {s s' : RegionState} {b : Bool}

/-- What refreshing a region does to the device: a section that goes there is sent, and the pointers in
it are patched again. -/
inductive Refreshed (region : Argument) (l l' : Link) : Prop where
  | idle (counted : l.Counted l')
  | sent (l₁ l₂ : Link) (m : Mapping) (content : List UInt8) (n : Nat)
      (inbound : region.mapType.has .toDevice = true) (moved : l.Transferred l₁)
      (counted : l.Counted l₁)
      (found : (l.device.mappings.lookup region.start region.size).mapping? = some m)
      (length : content.length = region.size)
      (submitted : Returns (Device.submit (m.translate region.start) content) l₁ () l₂)
      (patched : Returns (Device.resubmitShadows region.start (region.start + region.size)) l₂ n l')

private theorem refreshed_of_sent {l : Link} {m : Mapping}
    (found : (l.device.mappings.lookup region.start region.size).mapping? = some m)
    (moved : l.Transferred s.activation.link) (counted : l.Counted s.activation.link)
    (h : Returns (if region.mapType.has .toDevice then do
        onDevice (Device.submit (m.translate region.start) (← readHost region.start region.size))
        let _ ← onDevice (Device.resubmitShadows region.start (region.start + region.size))
        return true
      else pure true : RegionM Bool) s b s') : Refreshed region l s'.activation.link := by
  cases inbound : region.mapType.has .toDevice with
  | false =>
      rw [inbound, if_neg Bool.false_ne_true] at h
      rw [(returns_pure.1 h).2]
      exact .idle counted
  | true =>
      rw [inbound, if_pos rfl] at h
      obtain ⟨content, s₁, read, h⟩ := returns_bind.1 h
      obtain ⟨rfl, rfl⟩ := returns_pure.1 read
      obtain ⟨_, s₂, hs, h⟩ := returns_bind.1 h
      obtain ⟨l₁, submitted, rfl⟩ := lifts_onDevice.returns.1 hs
      obtain ⟨n, s₃, hp, h⟩ := returns_bind.1 h
      obtain ⟨l₂, patched, rfl⟩ := lifts_onDevice.returns.1 hp
      obtain ⟨-, rfl⟩ := returns_pure.1 h
      exact .sent _ l₁ m _ n inbound moved counted found (HostMemory.length_read _ _ _) submitted patched

theorem refreshed_of_returns (h : Returns (refreshRegion region) s b s') :
    Refreshed region s.activation.link s'.activation.link := by
  rw [refreshRegion] at h
  cases hm : region.isMapped with
  | false =>
      rw [hm] at h
      obtain ⟨-, rfl⟩ := returns_pure.1 h
      exact .idle (.refl _)
  | true =>
      rw [hm, Bool.not_true, if_neg Bool.false_ne_true] at h
      dsimp only at h
      rw [returns_device_bind] at h
      cases found : s.activation.link.device.translate? region.start region.size with
      | none =>
          rw [found] at h
          rw [(returns_pure.1 h).2]
          exact .idle (.refl _)
      | some target =>
          obtain ⟨m, hm, rfl⟩ := Option.map_eq_some_iff.1 found
          rw [found] at h
          dsimp only at h
          cases outbound : region.mapType.has .fromDevice with
          | false =>
              rw [outbound, if_neg Bool.false_ne_true] at h
              exact refreshed_of_sent hm (Lasting.refl _) (.refl _) h
          | true =>
              rw [outbound, if_pos rfl] at h
              obtain ⟨content, s₁, hr, h⟩ := returns_bind.1 h
              obtain ⟨l₁, retrieved, rfl⟩ := lifts_onDevice.returns.1 hr
              obtain ⟨_, s₂, wrote, h⟩ := returns_bind.1 h
              have := returns_modify.1 wrote
              subst this
              obtain ⟨visited, s₃, hv, h⟩ := returns_bind.1 h
              obtain ⟨l₂, visiting, rfl⟩ := lifts_onDevice.returns.1 hv
              obtain ⟨-, rfl⟩ := Device.returns_visitShadows visiting
              obtain ⟨_, s₄, restored, h⟩ := returns_bind.1 h
              rw [Returns, exec_restorePointers] at restored
              cases restored
              exact refreshed_of_sent hm (Device.along_retrieve.returns retrieved)
                (Device.returns_retrieve retrieved).2 h

private theorem confined_resubmit {ys : List ShadowPointer} {l l' : Link} {u : Unit}
    (wf : l.accelerator.WellFormed)
    (sent : Returns (ys.forM fun y => Device.submit y.deviceSlot (Word.toBytes y.deviceValue)) l u l') :
    l.Confined l' := by
  induction ys generalizing l with
  | nil =>
      obtain ⟨-, rfl⟩ := returns_pure.1 sent
      exact Lasting.refl _
  | cons y rest ih =>
      obtain ⟨l₁, first, more⟩ := returns_forM_cons.1 sent
      exact Lasting.trans (Device.stored_submit wf first).confined
        (ih ((Device.along_submit.returns first).wellFormed wf) more)

theorem Refreshed.confined {l l' : Link} (h : Refreshed region l l')
    (wf : l.accelerator.WellFormed) : l.Confined l' := by
  have counts : ∀ {k : Link}, l.Counted k → l.Confined k := fun {k} counted => by
    obtain ⟨_, _, device⟩ := counted.device
    exact .of_memories (by rw [device]) counted.memories
  cases h with
  | idle counted => exact counts counted
  | sent l₁ l₂ m content n inbound moved counted found length submitted resubmitted =>
      have wf₁ := moved.wellFormed wf
      have wf₂ := (Device.along_submit.returns submitted).wellFormed wf₁
      exact Lasting.trans (counts counted) (Lasting.trans (Device.stored_submit wf₁ submitted).confined
        (confined_resubmit wf₂ (Device.returns_resubmitShadows resubmitted).2))

/-- A section that is sent to where a mapping has it meets no pointer but those that begin in the section,
unless it begins inside of one. -/
private theorem apart_of_submitted {l l' : Link} {m : Mapping} {x : ShadowPointer}
    {content : List UInt8} {u : Unit} (h : l.Patched) (roomy : l.device.Roomy)
    (hx : x ∈ l.device.shadows)
    (found : (l.device.mappings.lookup region.start region.size).mapping? = some m)
    (length : content.length = region.size)
    (submitted : Returns (Device.submit (m.translate region.start) content) l u l')
    (outside : ¬ (region.start ≤ x.hostSlot ∧ x.hostSlot < region.start + region.size))
    (uncut : ¬ (x.hostSlot < region.start ∧ region.start < x.hostSlot + Word.bytes)) :
    x.chunk.Apart ⟨m.translate region.start, content⟩ := by
  obtain ⟨n, hn, inside, upper, slot⟩ := h.lodged x hx
  obtain ⟨begins, bound⟩ := Mapping.contains_iff.1 inside
  intro addr
  cases hv : x.chunk.byte? addr with
  | none => exact .inl rfl
  | some v =>
      refine .inr (Chunk.byte?_eq_none fun ⟨lower, above⟩ => ?_)
      obtain ⟨first, last⟩ := Chunk.bounds_of_byte? hv
      have long := x.length_chunk
      change x.deviceSlot ≤ addr at first
      change addr < x.deviceSlot + _ at last
      change m.translate region.start ≤ addr at lower
      change addr < m.translate region.start + content.length at above
      rw [length] at above
      have offset : n.deviceBegin + (addr - n.deviceBegin) = addr := by omega
      obtain ⟨holds, -, target⟩ := h.backed.lodges_of_submit h.sound roomy.inSpace found submitted length
        hn (i := addr - n.deviceBegin) (by rw [Mapping.length]; omega) (offset.symm ▸ ⟨lower, above⟩)
      have := (Mapping.contains_iff.1 holds).1
      omega

/-- Refreshing a region leaves all patched pointers with their device values, unless it cuts one. -/
theorem patched_refreshRegion (h : s.activation.link.Patched)
    (roomy : s.activation.link.device.Roomy) (ran : Returns (refreshRegion region) s b s')
    (uncut : ∀ x ∈ s.activation.link.device.shadows, region.mapType.has .toDevice = true →
      ¬ (x.hostSlot < region.start ∧ region.start < x.hostSlot + Word.bytes)) :
    s'.activation.link.Patched := by
  refine h.transferred (along_refreshRegion.returns ran).link fun x hx => ?_
  cases refreshed_of_returns ran with
  | idle counted => exact (h.carries x hx).congr fun addr => Link.byte?_congr counted.memory?
  | sent l₁ l₂ m content n inbound moved counted found length submitted resubmitted =>
      have before : l₁.Patched := h.transferred moved fun y hy =>
        (h.carries y hy).congr fun addr => Link.byte?_congr counted.memory?
      rw [← moved.still.mappings] at found
      rw [← moved.extended.shadows] at hx uncut
      have roomy₁ : l₁.device.Roomy := roomy.congr moved.still.mappings moved.extended.shadows
      have sent := Device.along_submit.returns submitted
      obtain ⟨_, again⟩ := Device.returns_resubmitShadows resubmitted
      rw [sent.extended.shadows] at again
      refine Link.carries_resubmit (sent.wellFormed before.sound.accelerator) (fun y hy other => ?_) ?_
        again
      · exact before.apart roomy₁ hx (AddressMap.mem_range.1 hy).1 other
      · by_cases within : region.start ≤ x.hostSlot ∧ x.hostSlot < region.start + region.size
        · exact .inl (AddressMap.mem_range.2 ⟨hx, within⟩)
        · have apart := apart_of_submitted before roomy₁ hx found length submitted within
            (uncut x hx inbound)
          exact .inr ((before.carries x hx).stored
            (Device.stored_submit before.sound.accelerator submitted) apart)

/-- Refreshing the regions of a call leaves all patched pointers with their device values, unless it cuts
one of them. -/
theorem patched_refresh {n : Nat} (h : s.activation.link.Patched)
    (roomy : s.activation.link.device.Roomy) (ran : Returns refresh s n s')
    (uncut : ∀ t ∈ refreshes s, ∀ x ∈ s.activation.link.device.shadows, ¬ t.Cuts x.hostSlot) :
    s'.activation.link.Patched ∧ s.activation.link.Confined s'.activation.link := by
  have all := along_refresh_of_turns (s := s) (R := Kept fun r : RegionState =>
    r.activation.link.Patched ∧ r.activation.link.device.Roomy ∧
      r.activation.link.device.shadows = s.activation.link.device.shadows ∧
      s.activation.link.Confined r.activation.link) fun t ht => ?_
  · have after : (exec refresh s).2 = s' := congrArg Prod.snd ran
    rw [after] at all
    obtain ⟨patched, -, -, confined⟩ := all ⟨h, roomy, rfl, Lasting.refl _⟩
    exact ⟨patched, confined⟩
  · obtain ⟨b, returned⟩ := returned_of_refresh ran ht
    have moved := (along_refreshRegion.returns returned).link
    rintro ⟨patched, roomy, shadows, confined⟩
    refine ⟨patched_refreshRegion patched roomy returned fun x hx inbound cut => ?_, ?_, ?_, ?_⟩
    · exact uncut t ht x (shadows ▸ hx) ⟨inbound, cut⟩
    · exact roomy.congr moved.still.mappings moved.extended.shadows
    · exact moved.extended.shadows.trans shadows
    · exact Lasting.trans confined
        ((refreshed_of_returns returned).confined patched.sound.accelerator)

end Region

end Offloading
