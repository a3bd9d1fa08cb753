import Mathlib
import Offloading.Proofs.Arrival
import Offloading.Proofs.KernelFree
/-!
# Regions that fail to begin

With the bulk strategy nothing reaches a device before all arguments are mapped. So a region that fails
to begin while its arguments are mapped leaves all bytes as they were, and blocks of zeros at most. What
waited in its queue is dropped with it, and no later region sends any of it.
-/

namespace Offloading

/-! ## Nothing but new blocks -/

namespace DeviceMemory

variable {m m' : DeviceMemory}

/-- All blocks stay as they are, and all new ones are zero. -/
structure Zeros (m m' : DeviceMemory) : Prop where
  kept : ∀ b ∈ m.blocks, b ∈ m'.blocks
  added : ∀ b ∈ m'.blocks, b ∈ m.blocks ∨ ∀ v ∈ b.bytes, v = 0

instance : Lasting Zeros where
  refl _ := ⟨fun _ hb => hb, fun _ hb => .inl hb⟩
  trans h h' := by
    refine ⟨fun b hb => h'.kept b (h.kept b hb), fun b hb => ?_⟩
    rcases h'.added b hb with old | zero
    · exact h.added b old
    · exact .inr zero

theorem WellFormed.zeros_allocate (h : m.WellFormed) (size : Nat) : m.Zeros (m.allocate size).2 := by
  cases placed : m.allocate size with
  | mk addr? m' =>
      cases addr? with
      | none =>
          rw [allocate_eq_none placed]
          exact Lasting.refl m
      | some addr =>
          obtain ⟨-, rfl⟩ := allocate_eq_some placed
          constructor
          · intro b hb
            exact AddressMap.mem_insert.2 (.inr ⟨hb, Nat.ne_of_lt (h.start_lt hb)⟩)
          · intro b hb
            rcases AddressMap.mem_insert.1 hb with rfl | ⟨old, -⟩
            · exact .inr fun v hv => List.eq_of_mem_replicate hv
            · exact .inl old

end DeviceMemory

namespace Accelerator

variable {a a' : Accelerator} {unit : Int} {m m' : DeviceMemory}

/-- Nothing was sent to a device and none of its bytes changed. -/
structure Withheld (a a' : Accelerator) : Prop where
  wellFormed : a.WellFormed → a'.WellFormed
  memories : a.WellFormed → ∀ (i : Nat) (m : DeviceMemory), a.memories[i]? = some m →
    ∃ m', a'.memories[i]? = some m' ∧ m.Zeros m'
  submissions : a'.calls.submit = a.calls.submit
  batches : a'.calls.batch = a.calls.batch ∧ a'.batches = a.batches
  services : a'.services = a.services

theorem withheld_of_memories (memories : a'.memories = a.memories)
    (submissions : a'.calls.submit = a.calls.submit)
    (batches : a'.calls.batch = a.calls.batch ∧ a'.batches = a.batches)
    (services : a'.services = a.services) : a.Withheld a' := by
  refine ⟨fun wf m hm => wf m (memories ▸ hm), fun _ i m found => ?_, submissions, batches, services⟩
  exact ⟨m, memories ▸ found, Lasting.refl m⟩

instance : Lasting Withheld where
  refl _ := withheld_of_memories rfl rfl ⟨rfl, rfl⟩ rfl
  trans h h' := by
    refine ⟨fun wf => h'.wellFormed (h.wellFormed wf), fun wf i m found => ?_,
      h'.submissions.trans h.submissions,
      ⟨h'.batches.1.trans h.batches.1, h'.batches.2.trans h.batches.2⟩, h'.services.trans h.services⟩
    obtain ⟨m', found', zeros⟩ := h.memories wf i m found
    obtain ⟨m'', found'', zeros'⟩ := h'.memories (h.wellFormed wf) i m' found'
    exact ⟨m'', found'', Lasting.trans zeros zeros'⟩

/-- A memory in which a block was allocated takes its place. -/
theorem withheld_allocated (found : a.memory? unit = some m) (size : Nat) :
    a.Withheld (a.withMemory unit (m.allocate size).2) := by
  obtain ⟨k, rfl, here⟩ := memory?_eq_some_iff.1 found
  refine ⟨fun wf => wf.withMemory ((wf.memory found).allocate size), fun wf i n there => ?_, rfl,
    ⟨rfl, rfl⟩, rfl⟩
  change ∃ n', (a.memories.set k (m.allocate size).2)[i]? = some n' ∧ n.Zeros n'
  by_cases same : k = i
  · subst same
    obtain ⟨lt, -⟩ := List.getElem?_eq_some_iff.1 there
    rw [here, Option.some.injEq] at there
    subst there
    exact ⟨_, List.getElem?_set_self lt, (wf.memory found).zeros_allocate size⟩
  · exact ⟨n, (List.getElem?_set_ne same).trans there, Lasting.refl n⟩

theorem withheld_attempt {call : CallKind} (other : call ≠ .submit) (other' : call ≠ .batch) :
    Along Withheld (attempt call) := by
  have counted : ∀ a : Accelerator, a.Withheld { a with calls := a.calls.add call } := by
    intro a
    refine withheld_of_memories rfl ?_ ⟨?_, rfl⟩ rfl
    · cases call <;> first | rfl | contradiction
    · cases call <;> first | rfl | contradiction
  exact Along.bind_get fun a => Along.bind_at (x := set _) (counted a) fun _ =>
    Along.ite Along.throw Along.pure

theorem withheld_initialise : Along Withheld (initialise unit) := by
  refine (withheld_attempt (by decide) (by decide)).bind fun _ => along_memory_bind fun a m found => ?_
  exact withheld_of_memories rfl rfl ⟨rfl, rfl⟩ rfl

theorem withheld_allocate {size : Nat} : Along Withheld (allocate unit size) := by
  refine (withheld_attempt (by decide) (by decide)).bind fun _ => along_memory_bind fun a m found => ?_
  refine Along.bind_at (x := setMemory _ _) ?_ fun _ => ?_
  · exact withheld_allocated found size
  · split
    · exact Along.pure
    · exact Along.throw

end Accelerator

/-- Of what is kept about a device, only the mappings changed, how preparing it ended, and how many blocks
were allocated. -/
def Device.Withheld (d d' : Device) : Prop :=
  ∃ mappings prepared allocations,
    d' = { d with mappings, prepared, transfers := { d.transfers with allocations } }

instance : Lasting Device.Withheld where
  refl _ := ⟨_, _, _, rfl⟩
  trans := by
    rintro d _ _ ⟨_, _, _, rfl⟩ ⟨mappings, prepared, allocations, rfl⟩
    exact ⟨mappings, prepared, allocations, rfl⟩

namespace Link

variable {l l' : Link}

/-- Nothing was sent to a device. -/
structure Withheld (l l' : Link) : Prop where
  device : l.device.Withheld l'.device
  accelerator : l.accelerator.Withheld l'.accelerator

instance : Lasting Withheld where
  refl l := ⟨Lasting.refl l.device, Lasting.refl l.accelerator⟩
  trans h h' := ⟨Lasting.trans h.device h'.device, Lasting.trans h.accelerator h'.accelerator⟩

theorem withheld_withMappings (t : MappingTable) : l.Withheld (l.withMappings t) :=
  ⟨⟨_, _, _, rfl⟩, Lasting.refl l.accelerator⟩

end Link

namespace Device

open DeviceM

variable {first base size : Nat} {implicit updateRef : Bool}

theorem withheld_prepare : Along Link.Withheld prepare := by
  refine along_device_bind fun l => ?_
  cases hp : l.device.prepared with
  | some outcome =>
      cases outcome with
      | ok _ => exact Lasting.refl l
      | error e => exact Lasting.refl l
  | none =>
      have withheld : l.accelerator.Withheld (exec (Accelerator.initialise l.device.unit) l.accelerator).2 :=
        Accelerator.withheld_initialise l.accelerator
      rcases hr : exec (Accelerator.initialise l.device.unit) l.accelerator with ⟨outcome, a⟩
      rw [hr] at withheld
      have run : (Accelerator.initialise l.device.unit).run.run l.accelerator = (outcome, a) := hr
      dsimp only
      rw [exec_get_bind, run]
      cases outcome with
      | ok _ => exact ⟨⟨_, _, _, rfl⟩, withheld⟩
      | error e => exact ⟨⟨_, _, _, rfl⟩, withheld⟩

theorem withheld_allocate : Along Link.Withheld (allocate size) := by
  refine Along.get.bind fun _ => Along.bind ?_ fun _ => Along.bind ?_ fun _ => Along.pure
  · exact lifts_call.along Accelerator.withheld_allocate fun _ _ h => ⟨⟨_, _, _, rfl⟩, h⟩
  · exact Along.modify fun l => ⟨⟨_, _, _, rfl⟩, Lasting.refl l.accelerator⟩

theorem withheld_insertMapping {e : Mapping} : Along Link.Withheld (insertMapping e) := by
  refine along_device_bind fun l => ?_
  refine Along.bind_at (x := modifyMappings _) (Link.withheld_withMappings _) fun _ => ?_
  split
  · exact Along.pure
  · exact Along.throw

theorem withheld_map : Along Link.Withheld (map first base size implicit updateRef) := by
  have recount : ∀ f : MappingTable → MappingTable, Along Link.Withheld (modifyMappings f) :=
    fun f => Along.modify fun l => Link.withheld_withMappings _
  refine Along.get.bind fun l => ?_
  dsimp only
  split
  · refine Along.ite ?_ ?_
    · exact (recount _).bind fun _ => Along.throw
    · exact (recount _).bind fun _ => Along.pure
  · refine Along.ite Along.pure (withheld_allocate.bind fun addr => ?_)
    exact withheld_insertMapping.bind fun _ => Along.pure

end Device

/-! ## Mapping the arguments -/

namespace Region

open RegionM

variable {settings : Settings} {padded : Bool} {region : Argument}

/-- Nothing was sent, and host memory is as it was. -/
structure Withheld (s s' : RegionState) : Prop where
  link : s.activation.link.Withheld s'.activation.link
  host : s'.host = s.host

instance : Lasting Withheld where
  refl _ := ⟨Lasting.refl _, rfl⟩
  trans h h' := ⟨Lasting.trans h.link h'.link, h'.host.trans h.host⟩

theorem withheld_of_step {s s' : RegionState} (h : Step Link.Withheld Eq s s') : Withheld s s' :=
  ⟨h.link, h.host.symm⟩

private theorem withheld_queue {f : TransferQueue → TransferQueue} :
    Along Withheld (transfer (TransferM.onQueue f)) :=
  lifts_transfer.along (R := fun a a' => a.link.Withheld a'.link) (Along.modify fun _ => Lasting.refl _)
    fun _ _ h => ⟨h, rfl⟩

theorem withheld_mapPointer : Along Withheld (mapPointer region) := by
  refine Along.mono (R := Step Link.Withheld Eq) ?_ withheld_of_step
  refine Along.ite ((along_onDevice Device.withheld_map).bind fun mapped => ?_) Along.pure
  split
  · exact Along.pure
  · exact along_unmapped

section bulk

variable (bulk : settings.strategy = .bulk)

include bulk

theorem withheld_copyIn {first size : Nat} {mapped? : Option MappedSection} :
    Along Withheld (copyIn settings region first size mapped?) := by
  unfold copyIn
  split
  · exact Along.pure
  · refine Along.ite ((along_copiesIn.mono withheld_of_step).bind fun copies => ?_) Along.pure
    refine Along.ite (Along.bind (along_readHost.mono withheld_of_step) fun content => ?_) Along.pure
    rw [bulk]
    exact withheld_queue (f := (·.stage _ content))

theorem withheld_patchPointer {first base : Nat} {target? : Option Nat}
    {pointer? : Option MappedPointer} :
    Along Withheld (patchPointer settings first base target? pointer?) := by
  unfold patchPointer
  split
  · exact Along.pure
  · refine Along.ite Along.pure (Along.bind ?_ fun _ => along_record.mono withheld_of_step)
    rw [bulk]
    exact withheld_queue (f := (·.suspend _))

theorem withheld_mapRegion : Along Withheld (mapRegion settings padded region) := by
  refine Along.ite Along.pure (withheld_mapPointer.bind fun pointer? => Along.get.bind fun s => ?_)
  refine Along.bind ((along_onDevice Device.withheld_map).mono withheld_of_step) fun mapped? => ?_
  exact (withheld_copyIn bulk).bind fun _ => (withheld_patchPointer bulk).bind fun _ => Along.pure

theorem withheld_mapPlans (plans : List RegionPlan) (returned : Option Nat) :
    Along Withheld (mapPlans settings padded plans returned) := by
  induction plans generalizing returned with
  | nil => exact Along.pure
  | cons plan rest ih =>
      rw [mapPlans]
      refine Along.get.bind fun s => ?_
      split
      · exact ih returned
      · exact (withheld_mapRegion bulk).bind fun base => ih _

theorem withheld_mapArgument {index : Nat} : Along Withheld (mapArgument settings index) := by
  refine (along_arguments.mono withheld_of_step).bind fun a => Along.ite Along.pure ?_
  refine Along.get.bind fun s => (along_arguments.mono withheld_of_step).bind fun plans => ?_
  refine (withheld_mapPlans bulk plans none).bind fun base? => ?_
  split
  · exact Along.pure
  · refine (along_arguments.mono withheld_of_step).bind fun changed => ?_
    exact Along.modify fun s => ⟨Lasting.refl s.activation.link, rfl⟩

theorem withheld_mapArguments (indices : List Nat) :
    Along Withheld (indices.forM (mapArgument settings)) :=
  Along.forM (fun _ => withheld_mapArgument bulk) indices

end bulk

end Region

/-! ## Calls that fail before they flush -/

namespace Platform

open CallM

variable {pl pl' pl'' : Platform} {dev : Nat} {l l' : Link} {id : Int} {list : ArgumentList}

/-- Nothing was sent to any device, no byte of a device changed, and host memory is as it was. -/
structure Withheld (pl pl' : Platform) : Prop where
  host : pl'.host = pl.host
  devices : ∀ (dev : Nat) (d : Device), pl.device? dev = some d →
    ∃ d', pl'.device? dev = some d' ∧ d.Withheld d'
  accelerators : ∀ (k : Nat) (a : Accelerator), pl.accelerators[k]? = some a →
    ∃ a', pl'.accelerators[k]? = some a' ∧ a.Withheld a'

instance : Lasting Withheld where
  refl _ := ⟨rfl, fun _ d found => ⟨d, found, Lasting.refl d⟩, fun _ a found => ⟨a, found, Lasting.refl a⟩⟩
  trans h h' := by
    refine ⟨h'.host.trans h.host, fun dev d found => ?_, fun k a found => ?_⟩
    · obtain ⟨d₁, found₁, first⟩ := h.devices dev d found
      obtain ⟨d₂, found₂, second⟩ := h'.devices dev d₁ found₁
      exact ⟨d₂, found₂, Lasting.trans first second⟩
    · obtain ⟨a₁, found₁, first⟩ := h.accelerators k a found
      obtain ⟨a₂, found₂, second⟩ := h'.accelerators k a₁ found₁
      exact ⟨a₂, found₂, Lasting.trans first second⟩

theorem withheld_setLink (hl : pl.link? dev = some l) (h : l.Withheld l') :
    pl.Withheld (pl.setLink dev l') := by
  obtain ⟨slot, hs, device, accelerator⟩ := link?_eq_some_iff.1 hl
  refine ⟨host_setLink, fun d device' found => ?_, fun k a found => ?_⟩
  · by_cases here : dev = d
    · subst here
      rw [device?_of_link? hl, Option.some.injEq] at found
      subst found
      exact ⟨l'.device, device?_setLink hl, h.device⟩
    · exact ⟨device', (device?_setLink_ne here).trans found, Lasting.refl device'⟩
  · have changed : (pl.setLink dev l').accelerators = pl.accelerators.set slot.accelerator l'.accelerator := by
      rw [setLink, hs]
    rw [changed]
    by_cases here : slot.accelerator = k
    · subst here
      obtain ⟨lt, -⟩ := List.getElem?_eq_some_iff.1 accelerator
      rw [accelerator, Option.some.injEq] at found
      subst found
      exact ⟨l'.accelerator, List.getElem?_set_self lt, h.accelerator⟩
    · exact ⟨a, (List.getElem?_set_ne here).trans found, Lasting.refl a⟩

/-- Blocks keep their bytes on every device, and new blocks are zero. -/
theorem Withheld.zeros (h : pl.Withheld pl') (sound : pl.Sound) {k i : Nat} {a : Accelerator}
    {m : DeviceMemory} (ha : pl.accelerators[k]? = some a) (hm : a.memories[i]? = some m) :
    ∃ a' m', pl'.accelerators[k]? = some a' ∧ a'.memories[i]? = some m' ∧ m.Zeros m' := by
  obtain ⟨a', found, withheld⟩ := h.accelerators k a ha
  obtain ⟨m', found', zeros⟩ :=
    withheld.memories (sound.accelerators a (List.mem_of_getElem? ha)) i m hm
  exact ⟨a', m', found, found', zeros⟩

theorem withheld_ready (id : Int) (loaded : pl.Loaded) : pl.Withheld (exec (ready id) pl).2 := by
  rcases exec_ready id loaded with same | ⟨dev, l, hl, same⟩
  · rw [same]
    exact Lasting.refl pl
  · rw [same]
    exact withheld_setLink hl (Device.withheld_prepare l)

/-- The call maps all its arguments, so that it goes on to flush. -/
def ReachesFlush (pl : Platform) (id : Int) (list : ArgumentList) : Prop :=
  ∃ dev pl' l r, Returns (ready id) pl dev pl' ∧ pl'.link? dev = some l ∧
    Returns ((List.range list.size).forM (Region.mapArgument pl'.settings))
      (CallState.region { platform := pl', arguments := list } l) () r

/-- A region whose arguments cannot all be mapped is not entered. -/
private theorem enter_failed {settings : Settings} {s : RegionState}
    (early : ¬ ∃ r, Returns ((List.range s.arguments.size).forM (Region.mapArgument settings)) s () r) :
    ∃ e, exec (Region.enter settings) s =
      (.error e, (exec ((List.range s.arguments.size).forM (Region.mapArgument settings)) s).2) := by
  rcases mapped : exec ((List.range s.arguments.size).forM (Region.mapArgument settings)) s with ⟨e | _, r⟩
  · refine ⟨e, ?_⟩
    rw [Region.enter, exec_get_bind]
    exact exec_bind_error mapped
  · exact absurd ⟨r, mapped⟩ early

/-- With the bulk strategy a call that fails before it flushes sends nothing. -/
theorem dataBegin_failed (bulk : pl.settings.strategy = .bulk) (loaded : pl.Loaded)
    (early : ¬ pl.ReachesFlush id list) :
    (∃ e, (exec (dataBegin id) { platform := pl, arguments := list }).1 = .error e) ∧
      pl.Withheld (exec (dataBegin id) { platform := pl, arguments := list }).2.platform := by
  have withheld := withheld_ready id loaded
  have settings := (readied_ready id loaded).spares.settings
  have readying := lifts_onPlatform (x := ready id) { platform := pl, arguments := list }
  rcases readied : exec (ready id) pl with ⟨e | dev, pl₁⟩
  · rw [readied] at readying withheld
    rw [dataBegin, exec_bind_error readying]
    exact ⟨⟨e, rfl⟩, withheld⟩
  · rw [readied] at readying withheld settings
    rw [dataBegin, exec_bind_ok readying]
    let s : CallState := { platform := pl₁, arguments := list }
    change (∃ e, (exec (inRegion dev Region.enter >>= fun _ => onPlatform (record .dataBegin)) s).1 =
        .error e) ∧ pl.Withheld
      (exec (inRegion dev Region.enter >>= fun _ => onPlatform (record .dataBegin)) s).2.platform
    cases hl : pl₁.link? dev with
    | none =>
        rw [exec_bind_error (exec_inRegion_none hl)]
        exact ⟨⟨_, rfl⟩, withheld⟩
    | some l =>
        have unmapped : ¬ ∃ r, Returns ((List.range (s.region l).arguments.size).forM
            (Region.mapArgument pl₁.settings)) (s.region l) () r := by
          rintro ⟨r, mapped⟩
          exact early ⟨dev, pl₁, l, r, readied, hl, mapped⟩
        obtain ⟨e, failed⟩ := enter_failed unmapped
        have mapping := Region.withheld_mapArguments (settings.symm ▸ bulk)
          (List.range list.size) (s.region l)
        have entered := exec_inRegion (x := Region.enter) (s := s) hl
        rw [failed] at entered
        rw [exec_bind_error entered]
        refine ⟨⟨e, rfl⟩, Lasting.trans withheld (Lasting.trans (withheld_setLink hl mapping.link) ?_)⟩
        exact ⟨mapping.host.trans host_setLink.symm, fun _ d found => ⟨d, found, Lasting.refl d⟩,
          fun _ a found => ⟨a, found, Lasting.refl a⟩⟩

/-- What a call that begins regions sends are the sections and patches of its own list. -/
theorem dataBegin_arrived (reachable : pl.Reachable) {s' : CallState}
    (begun : Returns (dataBegin id) { platform := pl, arguments := list } () s') :
    ∃ dev pl' l l' parcels, Returns (ready id) pl dev pl' ∧ pl'.link? dev = some l ∧
      s'.platform.link? dev = some l' ∧ l.Arrived parcels l' ∧
      Region.Sequence pl'.settings l'.device
        (Region.placements pl'.settings (CallState.region { platform := pl', arguments := list } l))
        parcels := by
  obtain ⟨dev, pl', l, r, metrics, readied, hl, entered, -, after⟩ := returns_phase begun
  have sound := ((orderly_ready id).returns readied).sound reachable.sound
  obtain ⟨parcels, arrived, sequence⟩ :=
    Region.arrived_enter (sound.link hl) rfl entered
  refine ⟨dev, pl', l, r.activation.link, parcels, readied, hl, ?_, arrived, sequence⟩
  rw [after]
  exact link?_setLink hl

/-- With the bulk strategy and no library waiting, a call that fails to map its arguments sends nothing:
blocks keep their bytes, new blocks are zero, the patched pointers and the counters of what was sent are
as before, no batch was submitted, and host memory is unchanged. Whatever is called afterwards, a call
that succeeds sends the sections and patches of its own list only. -/
theorem dataBegin_withheld (reachable : pl.Reachable) (bulk : pl.settings.strategy = .bulk)
    (loaded : pl.Loaded) (early : ¬ pl.ReachesFlush id list) :
    (∃ e, (exec (dataBegin id) { platform := pl, arguments := list }).1 = .error e) ∧
      pl.Withheld (pl.perform (.dataBegin id list)) ∧
      (∀ (k i : Nat) (a : Accelerator) (m : DeviceMemory), pl.accelerators[k]? = some a →
        a.memories[i]? = some m → ∃ a' m', (pl.perform (.dataBegin id list)).accelerators[k]? = some a' ∧
          a'.memories[i]? = some m' ∧ m.Zeros m') ∧
      ∀ calls id' list' s', Returns (dataBegin id')
          { platform := (pl.perform (.dataBegin id list)).performAll calls, arguments := list' } () s' →
        ∃ dev pl' l l' parcels,
          Returns (ready id') ((pl.perform (.dataBegin id list)).performAll calls) dev pl' ∧
          pl'.link? dev = some l ∧ s'.platform.link? dev = some l' ∧ l.Arrived parcels l' ∧
          Region.Sequence pl'.settings l'.device
            (Region.placements pl'.settings
              (CallState.region { platform := pl', arguments := list' } l)) parcels := by
  obtain ⟨failed, withheld⟩ := dataBegin_failed bulk loaded early
  refine ⟨failed, withheld, fun k i a m ha hm => withheld.zeros reachable.sound ha hm, ?_⟩
  intro calls id' list' s' begun
  exact dataBegin_arrived (reachable.perform (.dataBegin id list)).performAll begun

/-- A platform over one empty device that sends everything in batches. -/
private def batchingDevice : Platform :=
  { oneDevice with settings := ⟨{ transferMode := "bulk" }, .bulk⟩ }

/-- Sixteen bytes that would be copied, and a section that overlaps them. -/
private def overlappingList : ArgumentList :=
  { arguments := [⟨64, 64, 16, .ofFlags [.toDevice]⟩, ⟨72, 72, 16, .ofFlags [.toDevice]⟩] }

private theorem early_overlappingList : ¬ batchingDevice.ReachesFlush 0 overlappingList := by
  rintro ⟨dev, pl', l, r, readied, hl, mapped⟩
  have ready : (exec (ready 0) batchingDevice).1 = .ok 0 := by cbv
  obtain ⟨rfl, rfl⟩ := (returns_of_ok ready).unique readied
  have failing : ((exec (Platform.ready 0) batchingDevice).2.link? 0).map (fun l =>
      (exec ((List.range 2).forM (Region.mapArgument ⟨{ transferMode := "bulk" }, .bulk⟩))
        (CallState.region { platform := (exec (Platform.ready 0) batchingDevice).2
                            arguments := overlappingList } l)).1.toBool) = some false := by cbv
  have succeeded : exec ((List.range 2).forM (Region.mapArgument ⟨{ transferMode := "bulk" }, .bulk⟩))
      (CallState.region { platform := (exec (Platform.ready 0) batchingDevice).2
                          arguments := overlappingList } l) = (.ok (), r) := mapped
  rw [hl, Option.map_some, succeeded] at failing
  cases failing

theorem dataBegin_withheld_overlappingList :
    (∃ e, (exec (dataBegin 0) { platform := batchingDevice, arguments := overlappingList }).1 = .error e) ∧
      batchingDevice.Withheld (batchingDevice.perform (.dataBegin 0 overlappingList)) := by
  have fresh : batchingDevice.Fresh := by
    refine ⟨{ transferMode := "bulk" }, [.ofDevices 1 1024], rfl, fun a ha => ⟨1, 1024, ?_⟩⟩
    rw [List.mem_singleton.1 ha]
  have loaded : batchingDevice.Loaded := by
    intro slot hs
    rw [List.mem_singleton.1 hs]
  obtain ⟨failed, withheld, -⟩ :=
    dataBegin_withheld (.fresh fresh) rfl loaded early_overlappingList
  exact ⟨failed, withheld⟩

end Platform

end Offloading
