import Mathlib
import Offloading.Kernel.Program
import Offloading.Proofs.KernelFree
import Offloading.Proofs.Reclamation
import Offloading.Proofs.StructReturn
/-!
# Offloading structs

A call that offloads structs with pointers, from the platform that it finds to the one that it leaves. The
device must be ready, nothing on it may touch the sections of the structs, and there must be room for their
blocks. When the kernel starts, the device presents the sections as the host has them; when the call has
succeeded, the host has them as the kernel has left them, and the device has forgotten them.

This holds for both strategies and for all kernels, since nothing is used of a launch but that it leaves the
mappings and shadows of the device and the places of its blocks alone.
-/

namespace Offloading

/-! ## Devices without the sections -/

/-- No mapping and no shadow of the device touches the sections. -/
structure Link.Vacant (sections : List HostSection) (l : Link) : Prop where
  unmapped : ∀ m ∈ l.device.mappings, ∀ s ∈ sections, m.Misses s
  forgotten : ∀ x ∈ l.device.shadows, ∀ s ∈ sections, ¬ s.Has x.hostSlot

namespace Link

variable {l : Link} {args : ArgumentList} {alignment : Nat}

theorem Vacant.accommodates (h : l.Vacant args.sections) (structs : args.PointerStructs alignment)
    (sound : l.Sound) (room : l.HasRoom args.sections) :
    l.Accommodates structs.family [] args.sections := by
  have none : ∀ m ∈ l.device.mappings, m ∉ l.device.mappings.ofFamily structs.family := by
    intro m hm mem
    obtain ⟨s, hs, own⟩ := MappingTable.isOf_of_mem_ofFamily mem
    have pos := SectionFamily.size_pos hs
    have first := own.first
    have stop := own.stop
    rw [HostSection.stop] at stop
    rcases h.unmapped m hm s hs with before | after
    · omega
    · rw [HostSection.stop] at after
      omega
  have empty : ∀ m, m ∉ l.device.mappings.ofFamily structs.family := fun m mem =>
    none m (MappingTable.mem_ofFamily.1 mem).1 mem
  refine ⟨⟨sound, fun s hs => ⟨fun _ m hm => h.unmapped m hm s hs, fun some => ?_⟩⟩,
    ⟨fun e he => absurd he (empty e), fun e he => absurd he (empty e)⟩, room⟩
  exact absurd some (Nat.not_lt_zero _)

end Link

namespace Region

open RegionM

variable {settings : Settings} {start s s' r : RegionState} {u : Unit} {entry alignment : Nat}
  {kind : LaunchKind} {plan : LaunchPlan}

/-! ## Launching -/

/-- A region that succeeds enters, stages the arguments, launches the kernel, frees its blocks and leaves. -/
theorem returns_run (h : Returns (run settings entry kind) start u s') :
    ∃ s r plan l metrics r', Returns (enter settings) start () s ∧ Returns (stage settings) s plan r ∧
      Returns (Device.launch entry plan.arguments plan.offsets kind) r.activation.link () l ∧
      Returns freeScratch { r.withLink l with metrics } none r' ∧ Returns (leave settings) r' () s' := by
  rw [run, returns_bind] at h
  obtain ⟨_, s, entered, h⟩ := h
  obtain ⟨_, s₁, tried, h⟩ := returns_bind.1 h
  obtain ⟨failure, r', freed, left⟩ := returns_bind.1 h
  -- a launch that fails is not caught for good
  have launched : Returns (stageAndLaunch settings entry kind) s () s₁ := by
    change exec (tryCatch (stageAndLaunch settings entry kind) _) s = _ at tried
    rw [exec_tryCatch] at tried
    rcases ran : exec (stageAndLaunch settings entry kind) s with ⟨e | _, s₂⟩
    · rw [ran] at tried
      obtain ⟨_, _, -, thrown⟩ := returns_bind.1 tried
      exact absurd thrown not_returns_throw
    · rw [ran] at tried
      exact ran.trans tried
  obtain ⟨plan, r, staged, launched⟩ := returns_bind.1 launched
  obtain ⟨_, s₂, onDevice, counted⟩ := returns_bind.1 launched
  obtain ⟨l, ran, rfl⟩ := lifts_onDevice.returns.1 onDevice
  obtain ⟨_, s₃, recorded, last⟩ := returns_bind.1 counted
  obtain rfl := returns_modify.1 last
  obtain ⟨metrics, rfl⟩ : ∃ metrics, s₃ = { r.withLink l with metrics } := by
    rw [record] at recorded
    split at recorded
    · exact ⟨_, returns_modify.1 recorded⟩
    · exact ⟨_, (returns_pure.1 recorded).2⟩
  cases failure with
  | some e => exact absurd left not_returns_throw
  | none => exact ⟨s, r, plan, l, _, r', entered, staged, ran, freed, left⟩

theorem freeScratch_none {failure : Option OffloadError} (none : s.scratch = [])
    (h : Returns freeScratch s failure s') : s' = s := by
  rw [freeScratch, returns_get_bind, returns_modify_bind, none] at h
  rw [(returns_pure.1 h).2, ← none]

section stage

variable {staged : Staged} {index : Nat} {a : Argument}

/-- The kernel argument for a mapped argument is looked up. -/
theorem kernelArgument_mapped (mapped : a.isMapped = true) : Along Eq (kernelArgument a) := by
  unfold kernelArgument
  rw [Argument.isMapped] at mapped
  split
  · exact Along.pure
  · rename_i kind
    rw [kind] at mapped
    cases mapped
  · exact Allows.translate.bind fun _ => Along.pure
  all_goals
    refine Along.get.bind fun s => ?_
    split
    · exact Along.pure
    · exact Along.ite Along.pure Allows.unmapped

/-- Staging mapped arguments changes nothing. -/
theorem stageArguments_mapped (arguments : List Argument) (mapped : ∀ a ∈ arguments, a.isMapped = true) :
    Along Eq (stageArguments staged index arguments) := by
  induction arguments generalizing staged index with
  | nil => exact Along.pure
  | cons a rest ih =>
      obtain ⟨here, others⟩ := List.forall_mem_cons.1 mapped
      refine Along.bind ?_ fun _ => ih others
      refine Along.ite ((kernelArgument_mapped here).bind fun _ => Along.pure) ?_
      rw [Argument.isMapped] at here
      split
      · rename_i kind
        rw [kind] at here
        cases here
      · exact Along.pure

/-- Without tables, nothing but the arguments is staged. -/
theorem stage_direct (direct : settings.config.translatesOnDevice = false)
    (mapped : ∀ a ∈ s.arguments.arguments, a.isMapped = true)
    (h : Returns (stage settings) s plan r) : r = s := by
  rw [Config.translatesOnDevice, Bool.or_eq_false_iff] at direct
  obtain ⟨noTable, noList⟩ := direct
  unfold stage at h
  obtain ⟨table?, s₁, table, afterTable⟩ := returns_bind.1 h
  rw [stageAddressTable, noTable, if_neg Bool.false_ne_true] at table
  obtain ⟨-, rfl⟩ := returns_pure.1 table
  obtain ⟨list?, s₂, list, afterList⟩ := returns_bind.1 afterTable
  unfold stageOffsetList at list
  rw [Option.not_isSome_iff_eq_none.1 (Bool.eq_false_iff.1 noList)] at list
  obtain ⟨-, rfl⟩ := returns_pure.1 list
  rw [returns_get_bind] at afterList
  obtain ⟨staged, s₃, same, done⟩ := returns_bind.1 afterList
  obtain rfl := (stageArguments_mapped _ mapped).returns same
  exact (returns_pure.1 done).2

end stage

/-! ## Running -/

section structs

variable (structs : start.arguments.PointerStructs alignment)
  (aligned : settings.config.structAlignment = alignment)
  (direct : settings.config.translatesOnDevice = false) (idle : start.activation.queue = {})
  (sound : start.activation.link.Sound) (vacant : start.activation.link.Vacant start.arguments.sections)
  (room : start.activation.link.HasRoom start.arguments.sections)

include structs aligned direct idle sound vacant room

/-- Staging changes nothing, so that the kernel finds what the host has offered. -/
theorem offered_staged (entered : Returns (enter settings) start () s)
    (staged : Returns (stage settings) s plan r) : Offered structs r ∧ r = s := by
  have offered := offered_enter structs aligned direct idle (vacant.accommodates structs sound room)
    entered
  have mapped : ∀ a ∈ s.arguments.arguments, a.isMapped = true := by
    rw [offered.arguments]
    exact fun a ha => (structs.exchanged ha).isMapped
  obtain rfl := stage_direct direct mapped staged
  exact ⟨offered, rfl⟩

omit aligned direct idle sound room in
/-- When a kernel has run on what the host has offered, the host can take it back. -/
theorem Offered.lent {l : Link} (metrics : Metrics) (h : Offered structs r)
    (ran : r.activation.link.Transferred l) : Lent structs { r.withLink l with metrics } := by
  have shadows : l.device.shadows = r.activation.link.device.shadows := ran.extended.shadows
  refine ⟨h.arguments, h.device.still ran.still, fun a ha pointer => ?_, fun x hx => ?_⟩
  · obtain ⟨x, hx, slot⟩ := h.remembers a ha pointer
    exact ⟨x, shadows ▸ hx, slot⟩
  · change x ∈ l.device.shadows at hx
    change _ ∨ ∃ a ∈ start.arguments.arguments, _ ∧ _ ∧ x.hostValue = r.host.readPointer a.base
    rw [shadows] at hx
    rw [h.host]
    exact (h.faithful x hx).imp_left fun old => vacant.forgotten x old

/-- The host takes back what the kernel has left on the device, and nothing of the sections stays there. -/
theorem taken_of_run (fresh : start.scratch = []) (ran : Returns (run settings entry kind) start u s') :
    ∃ s r plan l, Returns (enter settings) start () s ∧ Returns (stage settings) s plan r ∧
      Returns (Device.launch entry plan.arguments plan.offsets kind) r.activation.link () l ∧
      (∀ t ∈ start.arguments.sections, l.Yields start.arguments start.host s'.host t) ∧
      s'.activation.link.Vacant start.arguments.sections := by
  obtain ⟨s, r, plan, l, metrics, r', entered, staged, launched, freed, left⟩ := returns_run ran
  obtain ⟨offered, rfl⟩ := offered_staged structs aligned direct idle sound vacant room entered staged
  have lent := offered.lent structs vacant metrics (Device.along_launch.returns launched)
  have empty : r.scratch = [] := (allows_sameScratch.enter.returns entered).trans fresh
  obtain rfl := freeScratch_none (s := { r.withLink l with metrics }) empty freed
  have taken := leaving_leave lent aligned direct left
  refine ⟨r, r, plan, l, entered, staged, launched, fun t ht => ?_, ⟨fun m hm t ht => ?_, ?_⟩⟩
  · rw [← offered.host]
    exact taken.yields t (by rwa [List.drop_zero])
  · exact (taken.device.shares.hosts t ht).free rfl m hm
  · intro x hx t ht
    exact ((taken.shadows x).1 hx).2 t (by rwa [List.drop_zero])

end structs

end Region

namespace Platform

open CallM

variable {pl pl' : Platform} {dev hostAddr : Nat} {id : Int} {arguments : ArgumentList}
  {kind : LaunchKind} {l : Link}

/-- A call with these arguments on a device that is ready has its region entered and the arguments staged,
and launches the kernel at `entry` then. -/
def Starts (pl : Platform) (dev : Nat) (arguments : ArgumentList) (hostAddr entry : Nat)
    (plan : Region.LaunchPlan) (r : RegionState) : Prop :=
  ∃ l pl' l' s, pl.link? dev = some l ∧ Returns (resolveEntry l.device.id hostAddr) pl entry pl' ∧
    pl'.link? dev = some l' ∧
    Returns (Region.enter pl'.settings) (CallState.region { platform := pl', arguments } l') () s ∧
    Returns (Region.stage pl'.settings) s plan r

/-- A call that succeeds makes the device ready, launches its kernel there and leaves the region. -/
theorem returns_target {s s' : CallState} {u : Unit} (h : Returns (target id hostAddr kind) s u s') :
    ∃ dev pl l entry pl' l' r, Returns (ready id) s.platform dev pl ∧ pl.link? dev = some l ∧
      Returns (resolveEntry l.device.id hostAddr) pl entry pl' ∧ pl'.link? dev = some l' ∧
      Returns (Region.run pl'.settings entry kind)
        (CallState.region { platform := pl', arguments := s.arguments } l') () r ∧
      s'.platform.links = (pl'.setLink dev r.activation.link).links ∧ s'.platform.host = r.host := by
  obtain ⟨dev, s₁, hr, rest⟩ := returns_bind.1 h
  obtain ⟨pl, readied, rfl⟩ := lifts_onPlatform.returns.1 hr
  obtain ⟨_, s₂, hx, last⟩ := returns_bind.1 rest
  obtain ⟨pl₂, recorded, rfl⟩ := lifts_onPlatform.returns.1 last
  obtain ⟨metrics, rfl⟩ := returns_record recorded
  rw [runRegion] at hx
  obtain ⟨l, s₃, found, hx⟩ := returns_bind.1 hx
  obtain ⟨hl, rfl⟩ := returns_link found
  obtain ⟨entry, s₄, resolving, within⟩ := returns_bind.1 hx
  obtain ⟨pl', resolved, rfl⟩ := lifts_onPlatform.returns.1 resolving
  obtain ⟨l', r, hl', ran, rfl⟩ := returns_inRegion.1 within
  exact ⟨dev, pl, l, entry, pl', l', r, readied, hl, resolved, hl', ran, rfl, rfl⟩

/-- Offloading structs with pointers, with either strategy, on a device that is ready and on which nothing
touches the sections. When the kernel starts, it finds the bytes of the host there, and each pointer points
at the copy of its section as the host's pointer points at the section. When the call has succeeded, the
host has all bytes as the kernel has left them, whatever that has done to device memory, except that the
pointers are as they were, and nothing of the sections stays on the device. -/
theorem target_pointerStructs (hostAddr : Nat) (kind : LaunchKind) (reachable : pl.Reachable)
    (structs : arguments.PointerStructs pl.settings.config.structAlignment)
    (direct : pl.settings.config.translatesOnDevice = false)
    (readied : Returns (ready id) pl dev pl') (hl : pl'.link? dev = some l)
    (vacant : l.Vacant arguments.sections) (room : l.HasRoom arguments.sections) :
    (∀ entry plan r, pl'.Starts dev arguments hostAddr entry plan r →
      r.activation.link.Presents pl.host arguments) ∧
    ∀ s, Returns (target id hostAddr kind) { platform := pl, arguments } () s →
      ∃ entry plan r after l', pl'.Starts dev arguments hostAddr entry plan r ∧
        Returns (Device.launch entry plan.arguments plan.offsets kind) r.activation.link () after ∧
        (∀ t ∈ arguments.sections, after.Yields arguments pl.host s.platform.host t) ∧
        s.platform.link? dev = some l' ∧ l'.Vacant arguments.sections := by
  have sound := ((orderly_ready id).returns readied).sound reachable.sound
  have same := (surroundings_ready id).returns readied
  -- resolving the kernel leaves devices, settings and host memory alone
  have resolving : ∀ {k entry pl₂ l₂}, pl'.link? dev = some k →
      Returns (resolveEntry k.device.id hostAddr) pl' entry pl₂ → pl₂.link? dev = some l₂ →
      l₂ = l ∧ pl₂.settings = pl.settings ∧ pl₂.host = pl.host := by
    intro k entry pl₂ l₂ hk resolved hl₂
    have kept : pl₂.core = pl'.core :=
      (along_resolveEntry (R := Fixed core) fun _ _ => rfl).returns resolved
    simp only [core, Prod.mk.injEq] at kept
    obtain ⟨links, settings, host⟩ := kept
    simp only [Fixed, surroundings, Prod.mk.injEq] at same
    rw [link?_congr links, hl, Option.some.injEq] at hl₂
    exact ⟨hl₂.symm, settings.trans same.1, host.trans same.2⟩
  constructor
  · rintro entry plan r ⟨k, pl₂, l₂, s, hk, resolved, hl₂, entered, staged⟩
    obtain ⟨rfl, settings, host⟩ := resolving hk resolved hl₂
    rw [settings] at entered staged
    have here : (CallState.region { platform := pl₂, arguments } l₂).arguments.PointerStructs _ := structs
    obtain ⟨offered, -⟩ := Region.offered_staged here rfl direct rfl (sound.link hl) vacant room entered
      staged
    rw [← host]
    exact offered.presents
  · intro s ran
    obtain ⟨dev', pl₁, k, entry, pl₂, l₂, r, readied', hk, resolved, hl₂, ran, links, host⟩ :=
      returns_target ran
    obtain ⟨rfl, rfl⟩ := readied.unique readied'
    obtain ⟨rfl, settings, host'⟩ := resolving hk resolved hl₂
    rw [settings] at ran
    have here : (CallState.region { platform := pl₂, arguments } l₂).arguments.PointerStructs _ := structs
    obtain ⟨s₁, r₁, plan, after, entered, staged, launched, yields, vacant'⟩ :=
      Region.taken_of_run here rfl direct rfl (sound.link hl) vacant room rfl ran
    refine ⟨entry, plan, r₁, after, r.activation.link, ⟨k, pl₂, l₂, s₁, hk, resolved, hl₂, ?_, ?_⟩,
      launched, fun t ht => ?_, ?_, vacant'⟩
    · rw [settings]
      exact entered
    · rw [settings]
      exact staged
    · rw [host, ← host']
      exact yields t ht
    · rw [link?_congr links, link?_setLink hl₂]

/-- A library with one kernel, which adds one to each byte of a struct. -/
def incrementLibrary : LibraryDescription where
  hostSymbols := [⟨"increment", 0x500, 0⟩]
  images := [some [⟨"increment", 0, 0⟩]]

/-- A struct of sixteen bytes and the pointer in its second half, which points one byte into its section. -/
def pointerStruct : ArgumentList where
  arguments := [⟨64, 64, 16, .ofFlags [.toDevice, .fromDevice, .targetParam]⟩,
    ⟨72, 128, 4, (MapType.ofFlags [.toDevice, .fromDevice, .pointerAndObject]).withMemberOf 0⟩]

/-- The library is registered, and the pointer is in host memory. -/
def incrementing : Platform :=
  oneDevice.performAll [.addKernel 0 (.ofProgram "increment" [.argument 0 0, .increment 0 0 16 1]),
    .register incrementLibrary, .write 72 (Word.toBytes 129)]

theorem pointerStructs_pointerStruct : pointerStruct.PointerStructs 8 where
  short := by decide
  shape i a ha := by
    rcases i with _ | _ | i
    · cases ha
      exact .inl ⟨rfl, rfl, rfl⟩
    · cases ha
      exact .inr ⟨0, _, by decide, rfl, ⟨rfl, rfl, rfl⟩, ⟨rfl, by decide, by decide⟩⟩
    · cases ha
  nonempty := by decide
  bounded := by decide
  apart := by decide
  slots := by decide

/-- The kernel has overwritten the pointer on the device, and the host still has its own. -/
theorem target_pointerStructs_incrementing :
    ∃ pl l s, Returns (ready 0) incrementing 0 pl ∧ pl.link? 0 = some l ∧
      l.Vacant pointerStruct.sections ∧ l.HasRoom pointerStruct.sections ∧
      Returns (target 0 0x500 .single) { platform := incrementing, arguments := pointerStruct } () s ∧
      s.platform.host.read 64 16 = List.replicate 8 1 ++ Word.toBytes 129 ∧
      ∃ entry plan r, ∃ after : Link, pl.Starts 0 pointerStruct 0x500 entry plan r ∧
        r.activation.link.Presents incrementing.host pointerStruct ∧
        ∀ t ∈ pointerStruct.sections, after.Yields pointerStruct incrementing.host s.platform.host t := by
  have readied : Returns (ready 0) incrementing 0 _ := returns_of_ok (by cbv)
  have empty : ((exec (ready 0) incrementing).2.link? 0).map (fun l =>
      (l.device.mappings.entries.items, l.device.shadows.items, l.memory?.map (·.next))) =
      some ([], [], some 0xd00000000000) := by cbv
  obtain ⟨l, hl, view⟩ := Option.map_eq_some_iff.1 empty
  simp only [Prod.mk.injEq] at view
  obtain ⟨mappings, shadows, next⟩ := view
  have vacant : l.Vacant pointerStruct.sections := by
    refine ⟨fun m hm => ?_, fun x hx => ?_⟩
    · change m ∈ l.device.mappings.entries.items at hm
      rw [mappings] at hm
      cases hm
    · change x ∈ l.device.shadows.items at hx
      rw [shadows] at hx
      cases hx
  have room : l.HasRoom pointerStruct.sections := by
    intro m hm
    rw [hm, Option.map_some, Option.some.injEq] at next
    rw [next]
    decide
  have alignment : incrementing.settings.config.structAlignment = 8 := by cbv
  have ran : Returns (target 0 0x500 .single)
    { platform := incrementing, arguments := pointerStruct } () _ := returns_of_ok (by cbv)
  obtain ⟨starts, takes⟩ := target_pointerStructs 0x500 .single (.performAll (.fresh fresh_oneDevice))
    (alignment ▸ pointerStructs_pointerStruct) (by cbv) readied hl vacant room
  obtain ⟨entry, plan, r, after, l', started, -, yields, -⟩ := takes _ ran
  exact ⟨_, l, _, readied, hl, vacant, room, ran, by cbv, entry, plan, r, after, started,
    starts entry plan r started, yields⟩

end Platform

end Offloading
