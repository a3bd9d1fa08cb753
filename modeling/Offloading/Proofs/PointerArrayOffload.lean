import Offloading.Proofs.PointerArrayRoundTrip
import Offloading.Proofs.StructOffload
/-!
# Offloading pointer arrays

A call that offloads an array of pointers and its rows, where pointers are patched. When it has succeeded, the
host has the rows as the kernel has left them. The array itself comes back only if it has no rows at all: as
long as an element holds it, it is not released for good when it would be copied, and when the last element
gives it up, it is dropped without being copied. So an element that is null stays null, whatever the kernel has
written there.
-/

namespace Offloading

/-! ## Releasing what is not mapped -/

theorem Mapping.Untouched.of_samePlace {m n : Mapping} {s : HostSection} (h : m.Untouched s)
    (same : m.SamePlace n) : n.Untouched s := by
  obtain ⟨misses, outside⟩ := h
  rw [Misses, same.hostBegin, same.hostEnd] at misses
  rw [same.contains] at outside
  exact ⟨misses, outside⟩

namespace Device

variable {l l' : Link} {first size : Nat} {updateRef force : Bool} {u : Unit}

theorem extends_hold {held? : Option HeldSection} (h : Returns (hold first size updateRef) l held? l') :
    l'.device.mappings.Extends l.device.mappings := by
  rcases returns_hold h with ⟨-, -, rfl⟩ | ⟨m, found, -, rfl⟩
  · exact .refl _
  · split
    · exact MappingTable.extends_setCount (MappingTable.mem_of_lookup found) _
    · exact .refl _

theorem extends_unmap (h : Returns (unmap first size force) l u l') :
    l'.device.mappings.Extends l.device.mappings := by
  obtain ⟨m, found, ⟨-, rfl⟩ | ⟨-, ⟨c, -, -, rfl⟩ | ⟨-, removed⟩⟩⟩ := returns_unmap h
  · exact .refl _
  · exact MappingTable.extends_setCount (MappingTable.mem_of_lookup found) c
  · obtain ⟨_, _, -, -, wrote⟩ := returns_free (returns_removeMapping.1 removed)
    rw [wrote.mappings]
    exact fun e he => ⟨e, ((MappingTable.mem_remove (MappingTable.mem_of_lookup found)).1 he).1, .refl e⟩

end Device

namespace Region

open RegionM

variable {settings : Settings} {padded : Bool} {r a : Argument} {t t' : RegionState} {u : Unit} {size slot : Nat}
  {l k : Link} {places : List Mapping}

/-- Releasing a section maps nothing. -/
theorem extends_releaseSection (ran : Returns (releaseSection settings padded r) t u t') :
    t'.activation.link.device.mappings.Extends t.activation.link.device.mappings := by
  obtain ⟨held?, k, first, size, -, holding, ⟨-, -, rfl⟩ | ⟨held, copied, t₁, t₂, -, copying, restoring, last⟩⟩ :=
    returns_releaseSection ran
  · exact Device.extends_hold holding
  · have moved := (along_copyBack.returns copying).link.still.mappings
    have visited := ((along_restoreShadows Device.along_visitShadows_still).returns restoring).link.mappings
    have still : t₂.activation.link.device.mappings = k.device.mappings := visited.trans moved
    rcases last with ⟨-, rfl⟩ | ⟨-, l', unmapped, rfl⟩
    · rw [still]
      exact Device.extends_hold holding
    · have dropped := Device.extends_unmap unmapped
      rw [still] at dropped
      exact dropped.trans (Device.extends_hold holding)

/-- Elements of an array that is not mapped can only be released if they are null, which does nothing. -/
theorem null_of_released {slots : List Nat} (sound : t.activation.link.Sound)
    (free : ∀ slot ∈ slots, ∀ m ∈ t.activation.link.device.mappings, m.Untouched ⟨slot, Word.bytes⟩)
    (ran : Returns (forRegions (unmapRegion settings false)
      (slots.map fun slot => .pointee slot size a.rowType)) t u t') :
    t' = t ∧ ∀ slot ∈ slots, t.host.readPointer slot = 0 := by
  induction slots with
  | nil => exact ⟨(returns_pure.1 ran).2, List.forall_mem_nil _⟩
  | cons slot others ih =>
      obtain ⟨here, later⟩ := List.forall_mem_cons.1 free
      rw [List.map_cons, forRegions, returns_get_bind] at ran
      by_cases live : t.host.readPointer slot = 0
      · rw [RegionPlan.resolve, live] at ran
        obtain ⟨same, null⟩ := ih later ran
        exact ⟨same, List.forall_mem_cons.2 ⟨live, null⟩⟩
      · rw [Argument.resolve_pointee live] at ran
        obtain ⟨_, t₁, first, -⟩ := returns_bind.1 ran
        obtain ⟨t₂, released, ⟨pointer, -⟩ | ⟨-, slotReleased⟩⟩ :=
          returns_unmapRegion first Argument.isMapped_rowRegion
        · rw [show (a.rowRegion size slot (t.host.readPointer slot)).mapType = a.rowType from rfl,
            Argument.pointer_rowType, Argument.isMember_rowType] at pointer
          cases pointer
        · obtain ⟨held, k, holding, -⟩ := returns_releasePointer slotReleased
          rcases Device.returns_hold holding with ⟨-, none, -⟩ | ⟨m, found, -⟩
          · cases none
          · have sound' := (along_releaseSection.returns released).link.sound sound
            have untouched : ∀ n ∈ t₂.activation.link.device.mappings, n.Untouched ⟨slot, Word.bytes⟩ := by
              intro n hn
              obtain ⟨e, he, same⟩ := extends_releaseSection released n hn
              exact (here e he).of_samePlace same
            cases found.symm.trans (MappingTable.lookup_untouched sound'.mappings untouched)

end Region

/-! ## Taking an array back -/

/-- What does not touch an array does not touch its elements. -/
theorem Argument.untouched_slot {a : Argument} {m : Mapping} {slot : Nat} (h : m.Untouched a.hostSection)
    (mem : slot ∈ a.slots) : m.Untouched ⟨slot, Word.bytes⟩ := by
  obtain ⟨lower, upper⟩ := mem_slots mem
  have word : 0 < Word.bytes := by decide
  rcases h.1 with before | after
  · change m.hostEnd ≤ a.start at before
    refine ⟨.inl (Nat.le_trans before lower), Bool.eq_false_iff.2 fun inside => ?_⟩
    have below : slot < m.hostEnd := (Mapping.contains_iff.1 inside).2
    omega
  · change a.start + a.size ≤ m.hostBegin at after
    refine ⟨.inr (Nat.le_trans upper after), Bool.eq_false_iff.2 fun inside => ?_⟩
    have above : m.hostBegin ≤ slot := (Mapping.contains_iff.1 inside).1
    omega

/-- The host has the rows of an array from the device. The pointers are as they were before, and if there are no
rows at all, then the host has the array from the device, too. -/
structure ArrayReturned (a : Argument) (size : Nat) (before after : HostMemory) (l : Link) : Prop where
  rows : ∀ slot ∈ a.slots, before.readPointer slot ≠ 0 → l.CopiedTo after (before.row size slot)
  pointers : ∀ slot ∈ a.slots, after.readPointer slot = before.readPointer slot
  array : a.AllNull before → l.CopiedTo after a.hostSection

/-- A kernel may change bytes. -/
theorem ArrayHeld.transferred {settings : Settings} {a : Argument} {host : HostMemory} {size : Nat}
    {l k k' : Link} {places : List Mapping} (held : ArrayHeld settings a size host l places k)
    (ran : k.Transferred k') : ArrayHeld settings a size host l places k' := by
  have shadows : k'.device.shadows = k.device.shadows := ran.extended.shadows
  refine ⟨held.outstanding.still ran.still, held.own, fun direct slot mem live => ?_, ?_⟩
  · obtain ⟨x, hx, same⟩ := held.remembers direct slot mem live
    exact ⟨x, shadows ▸ hx, same⟩
  · rw [shadows]
    exact held.faithful

namespace Region

open RegionM

variable {settings : Settings} {a : Argument} {t t' : RegionState} {u : Unit} {size : Nat}
  {l : Link} {places : List Mapping}

section leave

variable (held : ArrayHeld settings a size t.host l places t.activation.link)
  (list : t.arguments.IsPointerArray a size) (apart : a.RowsApart t.host size)
  (comes : a.mapType.has .fromDevice = true) (sometimes : a.mapType.has .always = false)
  (keeps : a.mapType.has .delete = false) (left : Returns (leave settings) t u t')

include held list apart comes sometimes keeps left

omit apart sometimes keeps in
/-- An array without rows comes back as a whole, and there are no rows in it then. -/
theorem array_of_leave_null (null : a.AllNull t.host) :
    ArrayReturned a size t.host t'.host t.activation.link ∧
      l.Remains places [] t.activation.link t'.activation.link := by
  obtain ⟨t₁, first, rest⟩ := (returns_leave_array list).1 left
  obtain ⟨remains, array⟩ := released_array held list.array (fun _ => null) first
  rw [null.elements] at remains
  have free : ∀ slot ∈ a.slots, ∀ m ∈ t₁.activation.link.device.mappings, m.Untouched ⟨slot, Word.bytes⟩ := by
    intro slot mem
    refine remains.untouched fun m hm => ?_
    exact Argument.untouched_slot (held.lodged_array.untouched m hm) mem
  obtain ⟨rfl, still⟩ := null_of_released remains.outstanding.sound free rest
  refine ⟨⟨fun slot mem live => absurd (null slot mem) live, fun slot mem => ?_, fun _ pos => ?_⟩, remains⟩
  · rw [still slot mem, null slot mem]
  · rcases array with ⟨empty, -⟩ | ⟨p, hp, inside, -, copied⟩
    · exact absurd pos (Nat.not_lt.2 (Nat.le_of_eq empty))
    · have back : arrayComesBack a t.host = true := by
        rw [arrayComesBack, comesBack, comes, decide_eq_true null]
        rfl
      have forgotten : ∀ x ∈ t.activation.link.device.shadows,
          ¬ a.unnested.hostSection.Holds x.hostSlot := by
        intro x hx inside
        obtain ⟨mem, live, -⟩ := held.faithful_array hx inside
        exact live (null _ mem)
      have outstanding := held.outstanding
      have place := outstanding.lookup_place (s := a.hostSection) outstanding.fit hp inside
        (held.touches_pos hp)
      refine ⟨p.translate a.start, ?_, ((copied back).byte_unremembered forgotten).1⟩
      rw [Device.translate?, place]
      rfl

/-- As long as there are rows, the array stays as it is. -/
theorem array_of_leave_live (live : ¬ a.AllNull t.host) :
    ArrayReturned a size t.host t'.host t.activation.link ∧
      l.Remains places [] t.activation.link t'.activation.link := by
  obtain ⟨t₁, first, rest⟩ := (returns_leave_array list).1 left
  have mild : a.mapType.has .delete = true → a.AllNull t.host := fun delete => by
    rw [keeps] at delete
    cases delete
  obtain ⟨remains, array⟩ := released_array held list.array mild first
  have stays : arrayComesBack a t.host = false := by
    rw [arrayComesBack, comesBack, decide_eq_false live, sometimes, Bool.or_self, Bool.and_false]
  have host : t₁.host = t.host := by
    rcases array with ⟨-, same⟩ | ⟨p, -, -, kept, -⟩
    · exact same
    · exact kept stays
  obtain ⟨remains', kept, copied⟩ := released_rows held apart mild (fun _ mem => mem) a.nodup_slots
    (fun addr _ => by rw [host]) remains rest
  refine ⟨⟨fun slot mem some => copied comes slot mem some, fun slot mem => ?_, fun null => absurd null live⟩,
    remains'⟩
  refine HostMemory.readPointer_congr fun i hi => ?_
  have holds := Argument.holds_slot mem (Nat.le_add_right slot i) (Nat.add_lt_add_left hi slot)
  rw [kept _ fun other there some => apart.not_holds_row there some holds, host]

/-- Leaving a region takes an array back as far as it can be taken back. -/
theorem array_of_leave : ArrayReturned a size t.host t'.host t.activation.link ∧
    l.Remains places [] t.activation.link t'.activation.link := by
  by_cases null : a.AllNull t.host
  · exact array_of_leave_null held list comes left null
  · exact array_of_leave_live held list apart comes sometimes keeps left null

end leave

/-! ## Running -/

section run

variable {start s s' r : RegionState} {entry : Nat} {kind : LaunchKind} {plan : LaunchPlan}
  (list : start.arguments.IsPointerArray a size) (apart : a.RowsApart start.host size)
  (comes : a.mapType.has .fromDevice = true) (sometimes : a.mapType.has .always = false)
  (keeps : a.mapType.has .delete = false) (direct : settings.config.translatesOnDevice = false)
  (idle : start.activation.queue = {}) (sound : start.activation.link.Sound)
  (clear : start.activation.link.Clear (a.arraySections start.host size))

include list apart comes sometimes keeps direct idle sound clear

/-- The host takes back what the kernel has left of the rows, and nothing of them and of the array stays on the
device. -/
theorem arrayReturned_of_run (fresh : start.scratch = []) (ran : Returns (run settings entry kind) start u s') :
    ∃ s r plan k, Returns (enter settings) start () s ∧ Returns (stage settings) s plan r ∧
      Returns (Device.launch entry plan.arguments plan.offsets kind) r.activation.link () k ∧
      ArrayReturned a size start.host s'.host k ∧
      s'.activation.link.footprint = start.activation.link.footprint ∧
      s'.activation.link.Clear (a.arraySections start.host size) := by
  obtain ⟨s, r, plan, k, metrics, r', entered, staged, launched, freed, left⟩ := returns_run ran
  obtain ⟨arguments, places, held⟩ := arrayHeld_enter sound idle list entered apart clear
  have host : s.host = start.host := ((along_enter settings).returns entered).host
  have mapped : ∀ x ∈ s.arguments.arguments, x.isMapped = true := by
    rw [arguments, list.arguments]
    exact List.forall_mem_singleton.2 list.array.isMapped
  obtain rfl := stage_direct direct mapped staged
  have empty : r.scratch = [] := (allows_sameScratch.enter.returns entered).trans fresh
  obtain rfl := freeScratch_none (s := { r.withLink k with metrics }) empty freed
  have held' := held.transferred (Device.along_launch.returns launched)
  rw [← host] at held' apart ⊢
  obtain ⟨returned, remains⟩ := array_of_leave (t := { r.withLink k with metrics }) held' (arguments ▸ list)
    apart comes sometimes keeps left
  exact ⟨r, r, plan, k, entered, staged, launched, returned, remains.outstanding.footprint,
    held'.clear_of_remains remains⟩

end run

end Region

namespace Platform

open CallM

variable {pl pl' : Platform} {dev hostAddr : Nat} {id : Int} {arguments : ArgumentList} {a : Argument}
  {size : Nat} {kind : LaunchKind} {l : Link}

/-- Offloading an array of pointers with its rows, with either strategy, on a device that is ready and on which
nothing touches their sections. When the call has succeeded, the host has the rows as the kernel has left them,
whatever that has done to device memory, and all pointers of the array are as they were, those that are null
included. The array itself comes back only if it has no rows. Nothing of the sections stays on the device. -/
theorem target_pointerArray (hostAddr : Nat) (kind : LaunchKind) (reachable : pl.Reachable)
    (list : arguments.IsPointerArray a size) (apart : a.RowsApart pl.host size)
    (comes : a.mapType.has .fromDevice = true) (sometimes : a.mapType.has .always = false)
    (keeps : a.mapType.has .delete = false) (direct : pl.settings.config.translatesOnDevice = false)
    (readied : Returns (ready id) pl dev pl') (hl : pl'.link? dev = some l)
    (clear : l.Clear (a.arraySections pl.host size)) {s : CallState}
    (ran : Returns (target id hostAddr kind) { platform := pl, arguments } () s) :
    ∃ entry plan r after l', pl'.Starts dev arguments hostAddr entry plan r ∧
      Returns (Device.launch entry plan.arguments plan.offsets kind) r.activation.link () after ∧
      ArrayReturned a size pl.host s.platform.host after ∧ s.platform.link? dev = some l' ∧
      l'.footprint = l.footprint ∧ l'.Clear (a.arraySections pl.host size) := by
  have sound := ((orderly_ready id).returns readied).sound reachable.sound
  have same := (surroundings_ready id).returns readied
  obtain ⟨dev', pl₁, k, entry, pl₂, l₂, r, readied', hk, resolved, hl₂, within, links, host⟩ :=
    returns_target ran
  obtain ⟨rfl, rfl⟩ := readied.unique readied'
  -- resolving the kernel leaves devices, settings and host memory alone
  have kept := (along_resolveEntry (R := Fixed core) fun _ _ => rfl).returns resolved
  simp only [Fixed, core, Prod.mk.injEq] at kept
  obtain ⟨links₂, settings, host₂⟩ := kept
  simp only [Fixed, surroundings, Prod.mk.injEq] at same
  have here : l₂ = l := by
    rw [link?_congr links₂, hl, Option.some.injEq] at hl₂
    exact hl₂.symm
  subst here
  have before : (CallState.region { platform := pl₂, arguments } l₂).host = pl.host := host₂.trans same.2
  have config : pl₂.settings = pl.settings := settings.trans same.1
  rw [← before] at apart clear ⊢
  rw [← config] at direct
  obtain ⟨s₁, r₁, plan, after, entered, staged, launched, returned, restored, clear'⟩ :=
    Region.arrayReturned_of_run list apart comes sometimes keeps direct rfl (sound.link hl) clear rfl within
  refine ⟨entry, plan, r₁, after, r.activation.link, ⟨k, pl₂, l₂, s₁, hk, resolved, hl₂, entered, staged⟩,
    launched, ?_, ?_, restored, clear'⟩
  · rw [host]
    exact returned
  · rw [link?_congr links, link?_setLink hl₂]

/-- A library with one kernel, which adds one to each byte of the first row and lets the second element point at
it, too. -/
def linkLibrary : LibraryDescription where
  hostSymbols := [⟨"link", 0x500, 0⟩]
  images := [some [⟨"link", 0, 0⟩]]

/-- The library is registered, and the array and its row are in host memory. -/
def linking : Platform :=
  withRow.performAll [.addKernel 0 (.ofProgram "link"
      [.argument 0 0, .load 1 0 0, .increment 1 0 8 1, .store 0 8 1]), .register linkLibrary]

/-- The array is copied to the device and back, and the kernel gets its copy. -/
def passedFlags : List MapFlag := [.toDevice, .fromDevice, .targetParam, .nested, .hasNested]

/-- The kernel has written a pointer into the second element on the device, which is still null on the host. -/
theorem target_pointerArray_linking :
    ∃ pl l s, Returns (ready 0) linking 0 pl ∧ pl.link? 0 = some l ∧
      Returns (target 0 0x500 .single) { platform := linking, arguments := twoElementsList passedFlags } () s ∧
      s.platform.host.read 64 16 = Word.toBytes 128 ++ Word.toBytes 0 ∧
      s.platform.host.read 128 8 = [2, 3, 4, 5, 6, 7, 8, 9] ∧
      ∃ after, ArrayReturned (twoElements passedFlags) 8 linking.host s.platform.host after := by
  have readied : Returns (ready 0) linking 0 _ := returns_of_ok (by cbv)
  have empty : ((exec (ready 0) linking).2.link? 0).map (fun l =>
      (l.device.mappings.entries.items, l.device.shadows.items)) = some ([], []) := by cbv
  obtain ⟨l, hl, view⟩ := Option.map_eq_some_iff.1 empty
  obtain ⟨mappings, shadows⟩ := Prod.mk.inj view
  have clear : l.Clear ((twoElements passedFlags).arraySections linking.host 8) := .of_empty mappings shadows
  have first : linking.host.readPointer 64 = 128 := by cbv
  have second : linking.host.readPointer 72 = 0 := by cbv
  have list : (twoElementsList passedFlags).IsPointerArray (twoElements passedFlags) 8 :=
    ⟨rfl, rfl, ⟨rfl, by decide, by decide, by decide, by decide, by decide⟩⟩
  have ran : Returns (target 0 0x500 .single)
    { platform := linking, arguments := twoElementsList passedFlags } () _ := returns_of_ok (by cbv)
  obtain ⟨entry, plan, r, after, l', -, -, returned, -⟩ := target_pointerArray 0x500 .single
    (.performAll (.performAll (.fresh fresh_oneDevice))) list (rowsApart_twoElements first second) (by decide)
    (by decide) (by decide) (by cbv) readied hl clear ran
  exact ⟨_, l, _, readied, hl, ran, by cbv, by cbv, after, returned⟩

end Platform

end Offloading
