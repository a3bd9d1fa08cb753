import Offloading.Proofs.Lookups
import Offloading.Proofs.Ownership
/-!
# The history of a device

Whatever is done to a device, its mapping table goes through changes of a table one after the other. So
all that holds after any changes of a table holds of every device, whether its operations succeeded or
not.
-/

namespace Offloading

namespace Link

variable {l l' : Link} {t : MappingTable} {m : Mapping}

/-- The mapping table went through changes that add sections of the address space only. -/
def Rewrites (l l' : Link) : Prop :=
  ∃ changes : List TableChange, (∀ m, TableChange.insert m ∈ changes → m.IsSection) ∧
    l'.device.mappings = changes.foldl MappingTable.change l.device.mappings

instance : Lasting Rewrites where
  refl _ := ⟨[], fun _ hm => absurd hm List.not_mem_nil, rfl⟩
  trans := by
    rintro l l' l'' ⟨changes, sections, same⟩ ⟨changes', sections', same'⟩
    refine ⟨changes ++ changes', fun m hm => ?_, ?_⟩
    · rcases List.mem_append.1 hm with hm | hm
      · exact sections m hm
      · exact sections' m hm
    · rw [same', same, List.foldl_append]

theorem rewrites_of_mappings (h : l'.device.mappings = l.device.mappings) : l.Rewrites l' :=
  ⟨[], fun _ hm => absurd hm List.not_mem_nil, h⟩

theorem Moved.rewrites (h : l.Moved l') : l.Rewrites l' := by
  obtain ⟨_, _, device⟩ := h.device
  apply rewrites_of_mappings
  rw [device]

theorem rewrites_change (c : TableChange) (sections : ∀ m, c = .insert m → m.IsSection)
    (h : l'.device.mappings = l.device.mappings.change c) : l.Rewrites l' := by
  refine ⟨[c], fun m hm => ?_, h⟩
  exact sections m (List.mem_singleton.1 hm).symm

theorem rewrites_setCount (hm : m ∈ l.device.mappings) (count : ReferenceCount) :
    l.Rewrites (l.withMappings (l.device.mappings.setCount m count)) := by
  apply rewrites_change (.setCount m.hostBegin count) (fun _ h => nomatch h)
  have found : l.device.mappings.get? m.hostBegin = some m :=
    AddressMap.get?_eq_some_iff.2 ⟨hm, rfl⟩
  rw [MappingTable.change, found]
  rfl

theorem rewrites_remove (h : l'.device.mappings = (l.device.mappings.remove m.hostBegin).2) :
    l.Rewrites l' :=
  rewrites_change (.remove m.hostBegin) (fun _ h => nomatch h) h

end Link

namespace Device

open DeviceM

variable {first base size target : Nat} {implicit updateRef force : Bool}

theorem rewrites_insertMapping {m : Mapping} (hm : m.IsSection) :
    Along Link.Rewrites (insertMapping m) := by
  refine along_device_bind fun l => ?_
  refine Along.bind_at (x := modifyMappings _) ?_ fun _ => ?_
  · apply Link.rewrites_change (.insert m) _ rfl
    rintro n ⟨⟩
    exact hm
  · split
    · exact Along.pure
    · exact Along.throw

theorem isSection_block (fits : first + size ≤ Word.greatest) (count : ReferenceCount) :
    Mapping.IsSection ⟨base, first, first + size, target, count⟩ :=
  ⟨Nat.le_add_right first size, fits⟩

theorem rewrites_map (fits : first + size ≤ Word.greatest) :
    Along Link.Rewrites (map first base size implicit updateRef) := by
  refine along_device_bind fun l => ?_
  dsimp only
  cases hm : (l.device.mappings.lookup first size).mapping? with
  | some m =>
      have held := MappingTable.mem_of_lookup hm
      dsimp only
      split
      · refine Along.bind_at (x := modifyMappings _) ?_ fun _ => Along.throw
        exact Link.rewrites_change .recordOverlap (fun _ h => nomatch h) rfl
      · refine Along.bind_at (x := modifyMappings _) ?_ fun _ => Along.pure
        have counted := Link.rewrites_setCount held
          (if updateRef then m.refCount.increment else m.refCount)
        refine Lasting.trans counted ?_
        exact Link.rewrites_change .recordReuse (fun _ h => nomatch h) rfl
  | none =>
      refine Along.ite Along.pure (Along.bind ?_ fun addr => Along.bind ?_ fun _ => Along.pure) l
      · exact along_allocate.mono Link.Moved.rewrites
      · exact rewrites_insertMapping (isSection_block fits .one)

theorem rewrites_hold : Along Link.Rewrites (hold first size updateRef) :=
  along_hold_of fun hm _ => Link.rewrites_setCount hm _

theorem rewrites_unmap : Along Link.Rewrites (unmap first size force) := by
  refine along_unmap_of (fun hm _ => Link.rewrites_setCount hm _) fun _ => ?_
  refine Along.bind_at (x := modifyDevice _) (Link.rewrites_remove rfl) fun _ => ?_
  exact along_free.mono Link.Moved.rewrites

theorem rewrites_associate (fits : first + size ≤ Word.greatest) :
    Along Link.Rewrites (associate first target size) := by
  refine along_device_bind fun l => ?_
  dsimp only
  split
  · exact Along.ite Along.pure Along.throw l
  · exact rewrites_insertMapping (isSection_block fits .infinite) l

theorem rewrites_disassociate : Along Link.Rewrites (disassociate first) := by
  refine along_device_bind fun l => ?_
  cases hm : (l.device.mappings.lookup first 0).mapping? with
  | none => exact Lasting.refl l
  | some m =>
      dsimp only
      split
      · exact Link.rewrites_remove rfl
      · exact Lasting.refl l

theorem rewrites_mapGlobal (fits : first + size ≤ Word.greatest) :
    Along Link.Rewrites (mapGlobal first target size) := by
  refine Along.get.bind fun _ => Along.ite Along.pure (Along.bind ?_ fun _ => Along.pure)
  exact rewrites_insertMapping (isSection_block fits .infinite)

end Device

namespace DeviceCall

/-- A section that the call maps does not wrap around the address space. -/
def Fits : DeviceCall → Prop
  | .map first _ size _ _ => first + size ≤ Word.greatest
  | .associate first _ size => first + size ≤ Word.greatest
  | .mapGlobal first _ size => first + size ≤ Word.greatest
  | _ => True

end DeviceCall

theorem Tenancy.rewrites_perform {u : Tenancy} {c : DeviceCall} (fits : c.Fits) :
    u.link.Rewrites (u.perform c).link := by
  cases c with
  | map => exact Device.rewrites_map fits u.link
  | hold => exact Device.rewrites_hold u.link
  | unmap => exact Device.rewrites_unmap u.link
  | associate => exact Device.rewrites_associate fits u.link
  | disassociate => exact Device.rewrites_disassociate u.link
  | mapGlobal => exact Device.rewrites_mapGlobal fits u.link
  | allocate size =>
      have moved : u.link.Moved (exec (Device.allocate size) u.link).2 := Device.along_allocate _
      rw [perform]
      rcases ran : exec (Device.allocate size) u.link with ⟨e | addr, l⟩
      all_goals
        rw [ran] at moved
        exact moved.rewrites
  | free addr =>
      have moved : u.link.Moved (exec (Device.free addr) u.link).2 := Device.along_free _
      rw [perform]
      rcases ran : exec (Device.free addr) u.link with ⟨e | _, l⟩
      all_goals
        rw [ran] at moved
        exact moved.rewrites

namespace Link

/-- A device as its operations can leave it, in any order and whether they succeed or fail. Nothing is
mapped at first. Copies, patches, launches and whatever else is done to the device or its accelerator
leave the mapping table alone. -/
inductive Reachable : Link → Prop where
  | fresh {l : Link} (empty : l.device.mappings = {}) : Reachable l
  | called {u : Tenancy} (c : DeviceCall) (before : Reachable u.link) (fits : c.Fits) :
      Reachable (u.perform c).link
  | other {l l' : Link} (before : Reachable l) (same : l'.device.mappings = l.device.mappings) :
      Reachable l'

namespace Reachable

variable {l : Link}

/-- The table of a device has a history. -/
theorem history (h : l.Reachable) :
    ∃ changes : List TableChange, (∀ m, TableChange.insert m ∈ changes → m.IsSection) ∧
      l.device.mappings = MappingTable.after changes := by
  induction h with
  | fresh empty => exact ⟨[], fun _ hm => absurd hm List.not_mem_nil, empty⟩
  | @called u c _ fits ih =>
      obtain ⟨changes, sections, same⟩ := ih
      have start : Link.Rewrites ⟨{ u.link.device with mappings := {} }, u.link.accelerator⟩ u.link :=
        ⟨changes, sections, same⟩
      exact Lasting.trans start (Tenancy.rewrites_perform fits)
  | other _ same ih =>
      obtain ⟨changes, sections, before⟩ := ih
      exact ⟨changes, sections, same.trans before⟩

theorem spaced (h : l.Reachable) : l.device.mappings.Spaced := by
  obtain ⟨changes, sections, same⟩ := h.history
  rw [same]
  exact (MappingTable.accounted changes sections).spaced

end Reachable

end Link

end Offloading
