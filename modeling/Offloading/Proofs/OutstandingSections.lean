import Offloading.Proofs.HostWrites
import Offloading.Proofs.NestedReleases
import Offloading.Proofs.OwnBlocks
/-!
# Outstanding sections

Sections that were mapped and are still to be released hold their places: each place as often as sections
start in it. Releasing one of them strikes it from the list, in whatever order this happens. If it was the
last one of its place, the section is copied back if it comes from the device, and the place goes away with
its block and with what is remembered of the pointers in it. Otherwise its bytes stay where they are, unless
they always come back.
-/

namespace Offloading

namespace Link

variable {l k k' : Link} {places : List Mapping} {p : Mapping} {s : HostSection}
  {rest sections sections' : List HostSection}

/-- The sections are still to be released: each place is held once for each of them that starts in it, and
they lie where the places are. -/
structure Outstanding (places : List Mapping) (sections : List HostSection) (l k : Link) : Prop
    extends Occupied places (fun p => p.touches sections) l k where
  fit : Places places l
  lodged : ∀ s ∈ sections, Lodged places l s
  few : sections.length ≤ ReferenceCount.infinite.value / 2

namespace Outstanding

theorem perm (h : l.Outstanding places sections k) (same : sections.Perm sections') :
    l.Outstanding places sections' k :=
  ⟨h.toOccupied.congr fun _ _ => (same.countP_eq _).symm, h.fit, fun s hs => h.lodged s (same.mem_iff.2 hs),
    same.length_eq ▸ h.few⟩

theorem still (h : l.Outstanding places sections k) (still : k.Still k') :
    l.Outstanding places sections k' :=
  ⟨h.toOccupied.still (still.sound h.sound) still.footprint, h.fit, h.lodged, h.few⟩

/-- When all sections were released, the device has the mappings and blocks that it had before. -/
theorem footprint (h : l.Outstanding places [] k) : k.footprint = l.footprint := by
  have none : Occupied (places ++ []) (fun p => p.touches []) l k := by
    rw [List.append_nil]
    exact h.toOccupied
  exact (none.drop fun _ _ => rfl).footprint

/-- One of the sections was released. -/
theorem strike (h : l.Outstanding places (s :: rest) k)
    (occupied : Occupied places (released (fun p => p.touches (s :: rest)) [s]) l k') :
    l.Outstanding places rest k' := by
  refine ⟨occupied.congr fun p _ => ?_, h.fit, (List.forall_mem_cons.1 h.lodged).2,
    Nat.le_trans (Nat.le_succ _) h.few⟩
  rw [released, Mapping.touches_cons, Nat.add_sub_cancel_left]

variable (h : l.Outstanding places (s :: rest) k)

include h

theorem lodged_head : Lodged places l s := (List.forall_mem_cons.1 h.lodged).1

/-- A section that is not empty starts in a place. -/
theorem exists_place (pos : 0 < s.size) : ∃ p ∈ places, p.contains s.first = true := by
  obtain ⟨p, hp, lower, upper⟩ := h.lodged_head.inside pos
  exact ⟨p, hp, Mapping.contains_iff.2 ⟨lower, Nat.lt_of_lt_of_le (Nat.lt_add_of_pos_right pos) upper⟩⟩

theorem touches_le (p : Mapping) : p.touches (s :: rest) ≤ ReferenceCount.infinite.value / 2 :=
  Nat.le_trans Mapping.touches_le_length h.few

/-- A section that no place contains is not found. -/
theorem lookup_none (outside : ∀ p ∈ places, p.contains s.first = false) :
    (k.device.mappings.lookup s.first s.size).mapping? = none := by
  refine Option.eq_none_iff_forall_ne_some.2 fun m found => ?_
  obtain ⟨p, hp, -, -, inside⟩ := h.place_of_lookup h.fit h.lodged_head found
  rw [outside p hp] at inside
  cases inside

/-- A section that no place contains gives nothing back. -/
theorem strike_outside (outside : ∀ p ∈ places, p.contains s.first = false) :
    l.Outstanding places rest k :=
  h.strike (h.toOccupied.congr fun p hp =>
    released_eq (fun q hq _ => outside q hq) p hp)

end Outstanding

/-- One reference on the place was given back, and the place went away if that was the `last` one: bytes may
get lost, and what is remembered of the pointers in the place is forgotten with it. -/
structure Drops (p : Mapping) (last : Bool) (l l' : Link) : Prop where
  fades : l.Fades l'
  shadows : ∀ x, x ∈ l'.device.shadows ↔
    x ∈ l.device.shadows ∧ (last = true → p.contains x.hostSlot = false)

/-- Counts do not matter for bytes and shadows. -/
theorem drops_withMappings {mappings : MappingTable} : k.Drops p false (k.withMappings mappings) :=
  ⟨fades_of_memory? rfl, fun _ => ⟨fun hx => ⟨hx, (nomatch ·)⟩, And.left⟩⟩

/-- Since `k` sections were released, and those in `rest` are still to be released: no byte has changed that is
still there, and no pointer is remembered that was not, and none in a place that nobody holds. -/
structure Remains (places : List Mapping) (rest : List HostSection) (l k k' : Link) : Prop where
  outstanding : l.Outstanding places rest k'
  fades : k.Fades k'
  shadows : ∀ x ∈ k'.device.shadows, x ∈ k.device.shadows
  cleared : ∀ p ∈ places, p.touches rest = 0 → ∀ x ∈ k'.device.shadows, p.contains x.hostSlot = false

namespace Remains

variable {k₁ : Link}

theorem perm (h : l.Remains places sections k k') (same : sections.Perm sections') :
    l.Remains places sections' k k' :=
  ⟨h.outstanding.perm same, h.fades, h.shadows, fun p hp gone => h.cleared p hp ((same.countP_eq _).trans gone)⟩

variable (h : l.Remains places (s :: rest) k k₁)

include h

/-- One more section gave its reference back. -/
theorem drop (hp : p ∈ places) (inside : p.contains s.first = true) (outstanding : l.Outstanding places rest k')
    (drops : k₁.Drops p (decide (p.touches rest = 0)) k') : l.Remains places rest k k' := by
  refine ⟨outstanding, Lasting.trans h.fades drops.fades,
    fun x hx => h.shadows x ((drops.shadows x).1 hx).1, fun q hq gone x hx => ?_⟩
  obtain ⟨there, outside⟩ := (drops.shadows x).1 hx
  by_cases same : q = p
  · subst same
    exact outside (decide_eq_true gone)
  · have other : q.contains s.first = false :=
      Bool.eq_false_iff.2 fun inside' => same (outstanding.fit.eq_of_contains hq hp inside' inside)
    refine h.cleared q hq ?_ x there
    rw [Mapping.touches_cons, Mapping.touches_none other, gone]

/-- A section that starts in no place gave nothing back. -/
theorem skip (outside : ∀ p ∈ places, p.contains s.first = false) (outstanding : l.Outstanding places rest k₁) :
    l.Remains places rest k k₁ := by
  refine ⟨outstanding, h.fades, h.shadows, fun q hq gone => h.cleared q hq ?_⟩
  rw [Mapping.touches_cons, Mapping.touches_none (outside q hq), gone]

end Remains

end Link

namespace Device

variable {l k k' : Link} {places : List Mapping} {p : Mapping} {s : HostSection}
  {rest : List HostSection} {u : Unit}

/-- The last reference on a place is given back. -/
theorem drops_unmap (h : l.Outstanding places (s :: rest) k) (hp : p ∈ places)
    (inside : p.contains s.first = true) (last : p.touches rest = 0) {force : Bool}
    (unmapped : Returns (unmap s.first s.size force) k u k') :
    l.Outstanding places rest k' ∧ k.Drops p true k' := by
  have one : p.touches (s :: rest) = 1 := by rw [Mapping.touches_cons, Mapping.touches_one inside, last]
  have occupied := h.of_unmap h.fit hp inside one unmapped
  have given := h.fit.update_eq_released (n := fun p => p.touches (s :: rest)) hp inside
  have removed := unmapped
  rw [Returns, h.exec_unmap_last h.fit hp inside one] at removed
  refine ⟨h.strike (occupied.congr fun q hq => ?_), fades_unmap h.sound unmapped, fun x => ?_⟩
  · rw [given q hq, one]
  · obtain ⟨_, _, -, -, wrote⟩ := returns_free (returns_removeMapping.1 removed)
    rw [wrote.shadows]
    refine AddressMap.mem_eraseRange.trans (and_congr_right fun _ => ?_)
    rw [Bool.eq_false_iff, Ne, Mapping.contains_iff]
    exact ⟨fun outside _ => outside, fun outside => outside rfl⟩

/-- A section is held in its place: one of several references is given back at once, and the last one stays
until the section is unmapped. -/
theorem returns_hold_outstanding {held? : Option HeldSection} (h : l.Outstanding places (s :: rest) k)
    (hp : p ∈ places) (inside : p.contains s.first = true)
    (holding : Returns (hold s.first s.size true) k held? k') :
    held? = some ⟨p.translate s.first, decide (p.touches rest = 0)⟩ ∧
      ((p.touches rest = 0 ∧ k' = k) ∨
        (p.touches rest ≠ 0 ∧ l.Outstanding places rest k' ∧ ∃ mappings, k' = k.withMappings mappings)) := by
  have count : p.touches (s :: rest) = 1 + p.touches rest := by
    rw [Mapping.touches_cons, Mapping.touches_one inside]
  have given := h.fit.update_eq_released (n := fun p => p.touches (s :: rest)) hp inside
  by_cases last : p.touches rest = 0
  · have held := h.hold_last h.fit hp inside (by rw [count, last])
    obtain ⟨rfl, rfl⟩ := held.unique holding
    exact ⟨by rw [decide_eq_true last], .inl ⟨last, rfl⟩⟩
  · obtain ⟨k₁, held, occupied⟩ := h.hold_more h.fit hp inside (by rw [count]; omega) (h.touches_le p)
    obtain ⟨rfl, rfl⟩ := held.unique holding
    refine ⟨by rw [decide_eq_false last], .inr ⟨last, h.strike (occupied.congr given), ?_⟩⟩
    rcases returns_hold held with ⟨-, none, -⟩ | ⟨m, -, -, after⟩
    · cases none
    · split at after
      · exact ⟨_, after⟩
      · exact ⟨k.device.mappings, after⟩

/-- The bytes that are retrieved are those of the device. -/
theorem bytes_retrieve {source size : Nat} {content : List UInt8} (wf : k.accelerator.WellFormed)
    (h : Returns (retrieve source size) k content k') : content.length = size ∧
      ∀ i < size, k.byte? (source + i) = content[i]? := by
  obtain ⟨⟨rfl, rfl⟩ | ⟨m, found, read⟩, -⟩ := returns_retrieve h
  · exact ⟨rfl, fun i hi => absurd hi (Nat.not_lt_zero i)⟩
  · obtain ⟨length, bytes⟩ := (wf.memory found).read_eq_ok read
    refine ⟨length, fun i hi => ?_⟩
    rw [Link.byte?_of_memory? found, bytes i hi]

end Device

/-- Nothing on the device touches the sections: no mapping does, and no pointer in them is remembered. -/
structure Link.Clear (sections : List HostSection) (l : Link) : Prop where
  untouched : ∀ e ∈ sections, ∀ m ∈ l.device.mappings, m.Untouched e
  forgotten : ∀ e ∈ sections, ∀ x ∈ l.device.shadows, ¬ e.Holds x.hostSlot

namespace Link.Clear

variable {sections : List HostSection} {l l' : Link}

/-- A device that holds nothing is clear of all sections. -/
theorem of_empty (mappings : l.device.mappings.entries.items = []) (shadows : l.device.shadows.items = []) :
    l.Clear sections where
  untouched e _ m hm := by
    change m ∈ l.device.mappings.entries.items at hm
    rw [mappings] at hm
    cases hm
  forgotten e _ x hx := by
    change x ∈ l.device.shadows.items at hx
    rw [shadows] at hx
    cases hx

theorem prepared (h : l.Clear sections) (prepared : l.Prepared l') : l'.Clear sections := by
  obtain ⟨_, device⟩ := prepared.device
  exact ⟨by rw [device]; exact h.untouched, by rw [device]; exact h.forgotten⟩

end Link.Clear

/-- The host has the bytes that the device has of a section. -/
def Link.CopiedTo (l : Link) (host : HostMemory) (s : HostSection) : Prop :=
  0 < s.size → ∃ target, l.device.translate? s.first s.size = some target ∧
    ∀ i < s.size, l.byte? (target + i) = some (host.byte (s.first + i))

theorem Link.CopiedTo.congr {l : Link} {host host' : HostMemory} {s : HostSection} (h : l.CopiedTo host s)
    (same : ∀ addr, s.Holds addr → host'.byte addr = host.byte addr) : l.CopiedTo host' s := by
  intro pos
  obtain ⟨target, translated, bytes⟩ := h pos
  refine ⟨target, translated, fun i hi => ?_⟩
  rw [same _ ⟨Nat.le_add_right _ _, Nat.add_lt_add_left hi _⟩]
  exact bytes i hi

/-! ## Regions -/

namespace Region

open RegionM

variable {settings : Settings} {r : Argument} {t t' t₁ t₂ : RegionState} {l : Link}
  {places : List Mapping} {p : Mapping} {rest : List HostSection} {u : Unit} {source : Nat}
  {copied removed : Bool}

/-- Whether the section of a region is copied back when it is released, if its mapping is `removed` then and
the region is no member of a struct. -/
def comesBack (r : Argument) (removed : Bool) : Bool :=
  r.mapType.has .fromDevice && (removed || r.mapType.has .always)

/-- The host memory `m'` is `m` with the bytes of a region's section from the device, which are at `source`
there. The pointers in the section were put back, unless kernels translate host addresses themselves. -/
def TakesBack (settings : Settings) (r : Argument) (source : Nat) (l : Link) (m m' : HostMemory) : Prop :=
  ∃ content : List UInt8, content.length = r.size ∧
    (∀ i < r.size, l.byte? (source + i) = content[i]?) ∧
    m' = if settings.config.translatesOnDevice then m.write r.start content
      else (m.write r.start content).restored (l.device.shadows.range r.start (r.start + r.size))

namespace TakesBack

variable {settings : Settings} {r : Argument} {source i : Nat} {l : Link} {m m' : HostMemory}
  (h : TakesBack settings r source l m m')

include h

/-- If nothing is remembered in a section, then all of it is taken from the device, and nothing else. -/
theorem byte_unremembered (none : ∀ x ∈ l.device.shadows, ¬ r.hostSection.Holds x.hostSlot) :
    (∀ i < r.size, l.byte? (source + i) = some (m'.byte (r.start + i))) ∧
      ∀ addr, ¬ r.hostSection.Holds addr → m'.byte addr = m.byte addr := by
  obtain ⟨content, length, bytes, after⟩ := h
  have empty : l.device.shadows.range r.start (r.start + r.size) = [] := by
    refine List.eq_nil_iff_forall_not_mem.2 fun x hx => ?_
    obtain ⟨hx, inside⟩ := AddressMap.mem_range.1 hx
    exact none x hx inside
  rw [empty, HostMemory.restored, List.foldl_nil, ite_self] at after
  subst after
  refine ⟨fun i hi => ?_, fun addr outside => HostMemory.byte_write_outside ?_⟩
  · rw [bytes i hi]
    exact HostMemory.byte_write_inside (length ▸ hi)
  · rw [HostSection.Holds, HostSection.stop] at outside
    dsimp only [Argument.hostSection] at outside
    omega

/-- If what is remembered in a section are pointers that the host has, then each byte is the host's, or it is
taken from the device and belongs to no such pointer, unless pointers are not put back. -/
theorem byte_remembered
    (faithful : ∀ x ∈ l.device.shadows, r.hostSection.Holds x.hostSlot →
      x.hostValue = m.readPointer x.hostSlot) (hi : i < r.size) :
    m'.byte (r.start + i) = m.byte (r.start + i) ∨
      (settings.config.translatesOnDevice = true ∨ ∀ x ∈ l.device.shadows, r.hostSection.Holds x.hostSlot →
        ¬ (x.hostSlot ≤ r.start + i ∧ r.start + i < x.hostSlot + Word.bytes)) ∧
      l.byte? (source + i) = some (m'.byte (r.start + i)) := by
  obtain ⟨content, length, bytes, after⟩ := h
  have wrote : content[i]? = some ((m.write r.start content).byte (r.start + i)) :=
    HostMemory.byte_write_inside (length ▸ hi)
  rw [← bytes i hi] at wrote
  cases translates : settings.config.translatesOnDevice with
  | true =>
      rw [translates, if_pos rfl] at after
      exact .inr ⟨.inl rfl, after ▸ wrote⟩
  | false =>
      rw [translates, if_neg Bool.false_ne_true] at after
      have origin : ∀ x ∈ l.device.shadows.range r.start (r.start + r.size),
          x.hostValue = m.readPointer x.hostSlot := fun x hx => by
        obtain ⟨hx, inside⟩ := AddressMap.mem_range.1 hx
        exact faithful x hx inside
      rcases HostMemory.byte_restored_of_origin (m := m.write r.start content) m origin (r.start + i) with
        ⟨-, same⟩ | ⟨outside, same⟩
      · rw [after]
        exact .inl same
      · rw [after, same]
        exact .inr ⟨.inr fun x hx inside => outside x (AddressMap.mem_range.2 ⟨hx, inside⟩), wrote⟩

end TakesBack

/-- The section of a region was copied back, if it had to be, and its mapping is still there. -/
structure Vacates (settings : Settings) (r : Argument) (source : Nat) (removed : Bool)
    (t t' : RegionState) : Prop where
  arguments : t'.arguments = t.arguments
  still : t.activation.link.Still t'.activation.link
  memory : t'.activation.link.memory? = t.activation.link.memory?
  shadows : ∀ x, x ∈ t'.activation.link.device.shadows ↔ x ∈ t.activation.link.device.shadows ∧
    (removed = true → settings.config.translatesOnDevice = false →
      ¬ (r.start ≤ x.hostSlot ∧ x.hostSlot < r.start + r.size))
  kept : comesBack r removed = false → t'.host = t.host
  copied : comesBack r removed = true →
    TakesBack settings r source t.activation.link t.host t'.host

/-- Copying a section back writes its bytes, and otherwise nothing happens. -/
theorem returns_copyBack_cases (whole : isPlainMember r = false)
    (copying : Returns (copyBack r r.start r.size source removed) t copied t₁) :
    (copied = false ∧ comesBack r removed = false ∧ t₁ = t) ∨
      (copied = true ∧ comesBack r removed = true ∧ ∃ content k,
        Returns (Device.retrieve source r.size) t.activation.link content k ∧
        t₁ = { t.withLink k with host := t.host.write r.start content }) := by
  obtain ⟨decided, ran⟩ := returns_copyBack_plain whole copying
  change copied = comesBack r removed at decided
  cases copied with
  | false => exact .inl ⟨rfl, decided.symm, (returns_pure.1 ran).2⟩
  | true =>
      obtain ⟨content, t₂, fetched, wrote⟩ := returns_bind.1 ran
      obtain ⟨k, got, rfl⟩ := lifts_onDevice.returns.1 fetched
      obtain rfl := returns_modify.1 wrote
      exact .inr ⟨rfl, decided.symm, content, k, got, rfl⟩

theorem vacates_of_copyBack (whole : isPlainMember r = false)
    (wf : t.activation.link.accelerator.WellFormed)
    (copying : Returns (copyBack r r.start r.size source removed) t copied t₁)
    (restoring : Returns (restoreShadows settings r.start r.size copied removed) t₁ u t₂) :
    Vacates settings r source removed t t₂ := by
  have transferred := along_copyBack.returns copying
  have restored := (along_restoreShadows Device.along_visitShadows_still).returns restoring
  have shadows := transferred.link.extended.shadows
  have memory : t₁.activation.link.memory? = t.activation.link.memory? := by
    rcases returns_copyBack_cases whole copying with ⟨-, -, rfl⟩ | ⟨-, -, content, k, got, rfl⟩
    · rfl
    · exact (Device.returns_retrieve got).2.memory?
  rw [Returns, exec_restoreShadows, Prod.mk.injEq] at restoring
  obtain ⟨-, rfl⟩ := restoring
  refine ⟨restored.arguments.trans transferred.arguments,
    Lasting.trans transferred.link.still restored.link, ?_, fun x => ?_, fun stays => ?_, fun comes => ?_⟩
  · refine Eq.trans ?_ memory
    split
    · rfl
    · rfl
  · rw [← shadows]
    cases removed with
    | false => exact ⟨fun hx => ⟨hx, fun erased => by cases erased⟩, And.left⟩
    | true =>
        cases settings.config.translatesOnDevice with
        | true => exact ⟨fun hx => ⟨hx, fun _ direct => by cases direct⟩, And.left⟩
        | false =>
            refine AddressMap.mem_eraseRange.trans (and_congr_right fun _ => ?_)
            exact ⟨fun outside _ _ => outside, fun outside => outside rfl rfl⟩
  · rcases returns_copyBack_cases whole copying with ⟨rfl, -, rfl⟩ | ⟨-, comes, -⟩
    · rfl
    · rw [stays] at comes
      cases comes
  · rcases returns_copyBack_cases whole copying with ⟨-, stays, -⟩ | ⟨rfl, -, content, k, got, rfl⟩
    · rw [stays] at comes
      cases comes
    · obtain ⟨length, bytes⟩ := Device.bytes_retrieve wf got
      refine ⟨content, length, bytes, ?_⟩
      rw [← shadows]
      cases settings.config.translatesOnDevice with
      | true => rfl
      | false => rfl

/-- The section of a region was released, which gave back a reference on the place `p`. -/
structure ReleasedFrom (settings : Settings) (r : Argument) (p : Mapping) (last : Bool)
    (t t' : RegionState) : Prop extends t.activation.link.Drops p last t'.activation.link where
  arguments : t'.arguments = t.arguments
  kept : comesBack r last = false → t'.host = t.host
  copied : comesBack r last = true →
    TakesBack settings r (p.translate r.start) t.activation.link t.host t'.host

/-- The region is no member of a struct, and it is not dropped by force while one of the other sections holds
its place. -/
structure Gentle (places : List Mapping) (rest : List HostSection) (r : Argument) : Prop where
  member : r.mapType.isMember = false
  alone : r.mapType.has .delete = true → ∀ p ∈ places, p.contains r.start = true → p.touches rest = 0

theorem Gentle.isPlainMember (h : Gentle places rest r) : isPlainMember r = false := by
  rw [Region.isPlainMember, h.member, Bool.false_and]

/-- The mapping of a region goes away with the last reference. -/
theorem Gentle.isRemoved (h : Gentle places rest r) (hp : p ∈ places) (inside : p.contains r.start = true)
    {addr : Nat} : isRemoved r ⟨addr, decide (p.touches rest = 0)⟩ = decide (p.touches rest = 0) := by
  rw [Region.isRemoved, h.isPlainMember, Bool.not_false, Bool.and_true]
  cases delete : r.mapType.has .delete with
  | false => exact Bool.or_false _
  | true => rw [Bool.or_true, decide_eq_true (h.alone delete p hp inside)]

/-- The section was vacated and keeps its mapping, since other references are left. -/
theorem Vacates.releasedFrom_more {mappings : MappingTable}
    (h : Vacates settings r (p.translate r.start) false
      (t.withLink (t.activation.link.withMappings mappings)) t') : ReleasedFrom settings r p false t t' where
  fades := Link.fades_of_memory? h.memory
  shadows x := (h.shadows x).trans (and_congr_right fun _ => ⟨fun _ => (nomatch ·), fun _ => (nomatch ·)⟩)
  arguments := h.arguments
  kept := h.kept
  copied := h.copied

/-- The section was vacated and lost its mapping with the last reference. -/
theorem Vacates.releasedFrom_last {k : Link} (h : Vacates settings r (p.translate r.start) true t t')
    (within : ∀ addr, r.start ≤ addr → addr < r.start + r.size → p.contains addr = true)
    (drops : t'.activation.link.Drops p true k) : ReleasedFrom settings r p true t (t'.withLink k) where
  fades := Lasting.trans (Link.fades_of_memory? h.memory) drops.fades
  shadows x := by
    refine (drops.shadows x).trans ?_
    rw [h.shadows x, and_assoc]
    refine and_congr_right fun _ => ⟨And.right, fun outside => ⟨fun _ _ inside => ?_, outside⟩⟩
    rw [within x.hostSlot inside.1 inside.2] at outside
    cases outside rfl
  arguments := h.arguments
  kept := h.kept
  copied := h.copied

/-- A section that is outstanding was released: it gave back a reference on the place that it starts in, if
there is one, and it must be empty if there is none. -/
theorem released_of_releaseSection (gentle : Gentle places rest r)
    (h : l.Outstanding places (r.hostSection :: rest) t.activation.link)
    (ran : Returns (releaseSection settings false r) t u t') :
    l.Outstanding places rest t'.activation.link ∧
      ((r.size = 0 ∧ (∀ p ∈ places, p.contains r.start = false) ∧ t' = t) ∨
        ∃ p ∈ places, p.contains r.start = true ∧
          ReleasedFrom settings r p (decide (p.touches rest = 0)) t t') := by
  obtain ⟨held?, k, first, size, sec, holding, cases⟩ := returns_releaseSection ran
  cases sec
  rw [gentle.isPlainMember, Bool.not_false] at holding
  have wf : k.accelerator.WellFormed := (Device.along_hold.returns holding h.sound).1.accelerator
  by_cases placed : ∃ p ∈ places, p.contains r.start = true
  · obtain ⟨p, hp, inside⟩ := placed
    obtain ⟨rfl, given⟩ := Device.returns_hold_outstanding h hp inside holding
    rcases cases with ⟨none, -⟩ | ⟨held, copied, t₁, t₂, same, copying, restoring, finish⟩
    · cases none
    cases same
    rw [gentle.isRemoved hp inside] at copying restoring finish
    have vacates := vacates_of_copyBack (t := t.withLink k) gentle.isPlainMember wf copying restoring
    rcases given with ⟨last, rfl⟩ | ⟨more, outstanding, mappings, rfl⟩
    · rw [decide_eq_true last] at finish vacates
      rcases finish with ⟨stays, -⟩ | ⟨-, k, unmapped, rfl⟩
      · cases stays
      have stop := h.fit.stop_le h.lodged_head hp inside
      obtain ⟨outstanding, drops⟩ := Device.drops_unmap (h.still vacates.still) hp inside last unmapped
      refine ⟨outstanding, .inr ⟨p, hp, inside, ?_⟩⟩
      rw [decide_eq_true last]
      refine vacates.releasedFrom_last (fun addr lower upper => ?_) drops
      have begins := (Mapping.contains_iff.1 inside).1
      exact Mapping.contains_iff.2 ⟨Nat.le_trans begins lower, Nat.lt_of_lt_of_le upper stop⟩
    · rw [decide_eq_false more] at finish vacates
      rcases finish with ⟨-, rfl⟩ | ⟨removed, -⟩
      · refine ⟨outstanding.still vacates.still, .inr ⟨p, hp, inside, ?_⟩⟩
        rw [decide_eq_false more]
        exact vacates.releasedFrom_more
      · cases removed
  · have outside : ∀ p ∈ places, p.contains r.start = false := fun p hp =>
      Bool.eq_false_iff.2 fun inside => placed ⟨p, hp, inside⟩
    rcases Device.returns_hold holding with ⟨-, rfl, rfl⟩ | ⟨m, found, -⟩
    · rcases cases with ⟨-, empty, rfl⟩ | ⟨held, _, _, _, some, -⟩
      · exact ⟨h.strike_outside outside, .inl ⟨empty, outside, rfl⟩⟩
      · cases some
    · cases found.symm.trans (h.lookup_none outside)

/-- A pointer slot that is outstanding was released. -/
theorem released_of_releasePointer {slot : Nat}
    (h : l.Outstanding places (⟨slot, Word.bytes⟩ :: rest) t.activation.link)
    (ran : Returns (releasePointer slot) t u t') :
    l.Outstanding places rest t'.activation.link ∧ t'.arguments = t.arguments ∧ t'.host = t.host ∧
      ∃ p ∈ places, p.contains slot = true ∧
        t.activation.link.Drops p (decide (p.touches rest = 0)) t'.activation.link := by
  obtain ⟨held, k, holding, finish⟩ := returns_releasePointer ran
  obtain ⟨p, hp, inside⟩ := h.exists_place (show 0 < Word.bytes by decide)
  obtain ⟨same, given⟩ :=
    Device.returns_hold_outstanding (s := ⟨slot, Word.bytes⟩) h hp inside holding
  cases same
  rcases given with ⟨last, rfl⟩ | ⟨more, outstanding, mappings, rfl⟩
  · rw [decide_eq_true last] at finish
    rcases finish with ⟨stays, -⟩ | ⟨-, k, unmapped, rfl⟩
    · cases stays
    · obtain ⟨outstanding, drops⟩ :=
        Device.drops_unmap (s := ⟨slot, Word.bytes⟩) h hp inside last unmapped
      exact ⟨outstanding, rfl, rfl, p, hp, inside, by rw [decide_eq_true last]; exact drops⟩
  · rw [decide_eq_false more] at finish
    rcases finish with ⟨-, rfl⟩ | ⟨removed, -⟩
    · exact ⟨outstanding, rfl, rfl, p, hp, inside, by
        rw [decide_eq_false more]; exact Link.drops_withMappings⟩
    · cases removed

/-- After the release of one section, fewer sections remain. -/
theorem remains_of_releaseSection {k : Link} (gentle : Gentle places rest r)
    (h : l.Remains places (r.hostSection :: rest) k t.activation.link)
    (ran : Returns (releaseSection settings false r) t u t') :
    l.Remains places rest k t'.activation.link ∧
      ((r.size = 0 ∧ t' = t) ∨ ∃ p ∈ places, p.contains r.start = true ∧
        ReleasedFrom settings r p (decide (p.touches rest = 0)) t t') := by
  obtain ⟨outstanding, ⟨empty, outside, rfl⟩ | ⟨p, hp, inside, released⟩⟩ :=
    released_of_releaseSection gentle h.outstanding ran
  · exact ⟨h.skip outside outstanding, .inl ⟨empty, rfl⟩⟩
  · exact ⟨h.drop hp inside outstanding released.toDrops, .inr ⟨p, hp, inside, released⟩⟩

/-- After the release of a pointer slot, fewer sections remain. -/
theorem remains_of_releasePointer {k : Link} {slot : Nat}
    (h : l.Remains places (⟨slot, Word.bytes⟩ :: rest) k t.activation.link)
    (ran : Returns (releasePointer slot) t u t') :
    l.Remains places rest k t'.activation.link ∧ t'.arguments = t.arguments ∧ t'.host = t.host := by
  obtain ⟨outstanding, arguments, host, p, hp, inside, drops⟩ :=
    released_of_releasePointer h.outstanding ran
  exact ⟨h.drop hp inside outstanding drops, arguments, host⟩

section reliable

variable (space : ∀ p ∈ places, p.InSpace) (reliable : t.activation.link.accelerator.Reliable)

include space reliable

/-- A section that is outstanding can be released. -/
theorem exists_releaseSection (gentle : Gentle places rest r)
    (h : l.Outstanding places (r.hostSection :: rest) t.activation.link) :
    ∃ t', Returns (releaseSection settings false r) t () t' := by
  have held : l.Held places (fun p => p.touches (r.hostSection :: rest)) t.activation.link :=
    ⟨h.toOccupied, h.fit, space, fun p _ => h.touches_le p, reliable⟩
  have alone : r.mapType.has .delete = true → ∀ p ∈ places, p.contains r.start = true →
      p.touches (r.hostSection :: rest) = 1 := fun delete p hp inside => by
    rw [Mapping.touches_cons, Mapping.touches_one inside, gentle.alone delete p hp inside]
  obtain ⟨t', ran, -⟩ := attains_releaseSection_lodged gentle.member alone held h.lodged_head fun pos => by
    obtain ⟨p, hp, inside⟩ := h.exists_place pos
    refine ⟨p, hp, ?_, inside⟩
    rw [Mapping.touches_cons, Mapping.touches_one inside]
    omega
  exact ⟨t', ran⟩

omit space in
/-- A pointer slot that is outstanding can be released. -/
theorem exists_releasePointer {slot : Nat}
    (h : l.Outstanding places (⟨slot, Word.bytes⟩ :: rest) t.activation.link) :
    ∃ t', Returns (releasePointer slot) t () t' := by
  obtain ⟨p, hp, inside⟩ := h.exists_place (show 0 < Word.bytes by decide)
  have count : p.touches (⟨slot, Word.bytes⟩ :: rest) = 1 + p.touches rest := by
    rw [Mapping.touches_cons, Mapping.touches_one inside]
  unfold releasePointer
  by_cases last : p.touches rest = 0
  · have one : p.touches (⟨slot, Word.bytes⟩ :: rest) = 1 := by rw [count, last]
    have holding := h.hold_last h.fit hp inside one
    obtain ⟨k, unmapped, -⟩ := h.unmap_last h.fit hp inside one reliable false
    exact ⟨t.withLink k, returns_bind.2 ⟨_, t.withLink t.activation.link,
      lifts_onDevice.returns.2 ⟨_, holding, rfl⟩, lifts_onDevice.returns.2 ⟨k, unmapped, rfl⟩⟩⟩
  · obtain ⟨k, holding, -⟩ := h.hold_more h.fit hp inside (by rw [count]; omega) (h.touches_le p)
    exact ⟨t.withLink k, returns_bind.2 ⟨_, t.withLink k, lifts_onDevice.returns.2 ⟨_, holding, rfl⟩,
      returns_pure.2 ⟨rfl, rfl⟩⟩⟩

end reliable

end Region

end Offloading
