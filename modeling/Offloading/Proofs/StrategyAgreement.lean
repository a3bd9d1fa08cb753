import Mathlib
import Offloading.Proofs.Agreement
import Offloading.Proofs.Reachable
/-!
# Strategies of a platform

Preparing a device for a call does not depend on the strategy, not even if constructors have to be run.
So beginning a region leaves the same mappings, blocks and arguments under both strategies, and the same
bytes and shadows if nothing gets in the way of anything else.
-/

namespace Offloading

namespace Region

variable {settings : Settings} {strategy : Strategy} {s : RegionState}

/-- Entering a region without arguments does nothing. -/
theorem exec_enter_nil (none : s.arguments = {}) (idle : s.activation.queue = {}) :
    exec (enter settings) s = (.ok (), s) := by
  obtain ⟨⟨link, queue⟩, host, arguments, scratch, metrics⟩ := s
  dsimp only at none idle
  subst none idle
  obtain ⟨config, strategy⟩ := settings
  cases strategy with
  | immediate => rfl
  | bulk => rfl

/-- A region without arguments runs in the same way under all strategies. -/
theorem exec_run_withStrategy {entry : Nat} {kind : LaunchKind} (none : s.arguments = {})
    (idle : s.activation.queue = {}) :
    exec (run (settings.withStrategy strategy) entry kind) s = exec (run settings entry kind) s := by
  rw [run, run, exec_bind, exec_bind, exec_enter_nil none idle, exec_enter_nil none idle]
  rfl

end Region

namespace Platform

/-- The platform with another strategy. -/
def withStrategy (pl : Platform) (strategy : Strategy) : Platform :=
  { pl with settings := pl.settings.withStrategy strategy }

variable {pl pl' : Platform} {strategy : Strategy} {dev : Nat} {id : Int} {l : Link}

theorem setLink_withStrategy :
    (pl.withStrategy strategy).setLink dev l = (pl.setLink dev l).withStrategy strategy := by
  rw [setLink, setLink]
  dsimp only [withStrategy]
  cases pl.devices[dev]? with
  | none => rfl
  | some slot => rfl

/-! ## What does not depend on the strategy -/

section Blind

variable {α : Type} {x : DeviceM α}

theorem blind_link : Blind (·.withStrategy strategy) (link dev) := by
  refine Blind.bind_get (fun _ => rfl) fun pl => ?_
  split
  · exact Blind.pure
  · exact Blind.throw

theorem blind_onDevice : Blind (·.withStrategy strategy) (onDevice dev x) := by
  refine blind_link.bind fun l => Blind.bind (Blind.modify fun _ => setLink_withStrategy) fun _ => ?_
  split
  · exact Blind.pure
  · exact Blind.throw

theorem blind_onAccelerator {wrap : AcceleratorError → OffloadError} {x : AcceleratorM α} :
    Blind (·.withStrategy strategy) (onAccelerator dev wrap x) := by
  refine blind_link.bind fun l => Blind.bind (Blind.modify fun _ => setLink_withStrategy) fun _ => ?_
  split
  · exact Blind.pure
  · exact Blind.throw

theorem blind_deviceIndex : Blind (·.withStrategy strategy) (deviceIndex id) := by
  refine Blind.bind_get (fun _ => rfl) fun pl => ?_
  have known : ∀ index : Nat, Blind (·.withStrategy strategy) (do
      if index < pl.listed then return index
      throw (.deviceNotReady index (.onlyDevices pl.listed)) : PlatformM Nat) :=
    fun index => Blind.ite Blind.pure Blind.throw
  dsimp only
  refine Blind.ite (Blind.pure.bind known) ?_
  split
  · exact Blind.pure.bind known
  · exact Blind.throw.bind known

theorem blind_mapGlobals (symbols : List (Symbol × Symbol)) :
    Blind (·.withStrategy strategy) (mapGlobals dev symbols) := by
  induction symbols with
  | nil => exact Blind.pure
  | cons pair rest ih =>
      obtain ⟨host, target⟩ := pair
      exact Blind.ite (blind_onDevice.bind fun _ => ih) ih

theorem blind_loadLibrary {position : Nat} :
    Blind (·.withStrategy strategy) (loadLibrary dev position) := by
  refine blind_link.bind fun l => Blind.bind_get (fun _ => rfl) fun pl => ?_
  split
  · exact Blind.pure
  · refine Blind.ite Blind.pure ?_
    split
    · exact Blind.pure
    · refine blind_onAccelerator.bind fun symbols => ?_
      refine Blind.ite (Blind.throw.bind fun _ => ?_) ?_
      all_goals
        refine (blind_mapGlobals _).bind fun _ => Blind.bind ?_ fun _ => Blind.pure
        exact Blind.modify fun _ => rfl

theorem blind_loadLibraries (positions : List Nat) :
    Blind (·.withStrategy strategy) (loadLibraries dev positions) := by
  induction positions with
  | nil => exact Blind.pure
  | cons position rest ih =>
      exact blind_loadLibrary.bind fun _ => ih.bind fun _ => Blind.pure

theorem blind_runConstructors {run : Nat → PlatformM Unit}
    (h : ∀ c, Blind (·.withStrategy strategy) (run c)) (constructors : List Nat) :
    Blind (·.withStrategy strategy) (runConstructors run constructors) := by
  induction constructors with
  | nil => exact Blind.pure
  | cons c rest ih =>
      exact Blind.bind (x := modify _) (Blind.modify fun _ => rfl) fun _ => (h c).bind fun _ => ih

theorem blind_checkReady {run : Nat → PlatformM Unit}
    (h : ∀ c, Blind (·.withStrategy strategy) (run c)) :
    Blind (·.withStrategy strategy) (checkReady dev run) := by
  refine blind_onDevice.bind fun _ => blind_link.bind fun l => Blind.ite ?_ Blind.pure
  refine Blind.bind_get (fun _ => rfl) fun pl => (blind_loadLibraries _).bind fun constructors => ?_
  exact (blind_runConstructors h constructors).bind fun _ => blind_onDevice

theorem blind_resolveEntry {device hostAddr : Nat} :
    Blind (·.withStrategy strategy) (resolveEntry device hostAddr) := by
  have slot : Blind (·.withStrategy strategy) (entrySlot hostAddr) := by
    intro pl
    rw [entrySlot, exec_get_bind, exec_get_bind]
    dsimp only [withStrategy]
    cases pl.entryCache.lookup hostAddr with
    | some slot => rfl
    | none =>
        cases findEntry? hostAddr pl.libraries with
        | none => rfl
        | some slot => rfl
  refine slot.bind fun slot => Blind.bind_get (fun _ => rfl) fun pl => ?_
  dsimp only
  split
  · exact Blind.pure
  · exact Blind.throw

/-- A call whose platform has another strategy. -/
private def restrategise (strategy : Strategy) (s : CallState) : CallState :=
  { s with platform := s.platform.withStrategy strategy }

private theorem blind_onPlatform {x : PlatformM α} (hx : Blind (·.withStrategy strategy) x) :
    Blind (restrategise strategy) (CallM.onPlatform x) := by
  intro s
  have run : ∀ s : CallState, exec (CallM.onPlatform x) s =
      ((exec x s.platform).1, { s with platform := (exec x s.platform).2 }) := fun _ => rfl
  rw [run, run]
  change ((exec x (s.platform.withStrategy strategy)).1,
    { s with platform := (exec x (s.platform.withStrategy strategy)).2 }) = _
  rw [hx s.platform]
  rfl

/-- A region without arguments sends nothing. -/
private theorem exec_inRegion_withStrategy {s : CallState} {entry : Nat} {kind : LaunchKind}
    (none : s.arguments = {}) :
    exec (CallM.inRegion dev fun settings => Region.run settings entry kind) (restrategise strategy s) =
      ((exec (CallM.inRegion dev fun settings => Region.run settings entry kind) s).1,
        restrategise strategy
          (exec (CallM.inRegion dev fun settings => Region.run settings entry kind) s).2) := by
  cases hl : s.platform.link? dev with
  | none =>
      rw [CallM.exec_inRegion_none hl, CallM.exec_inRegion_none (s := restrategise strategy s) hl]
      rfl
  | some l =>
      rw [CallM.exec_inRegion hl, CallM.exec_inRegion (s := restrategise strategy s) hl]
      have same : exec (Region.run (s.platform.settings.withStrategy strategy) entry kind) (s.region l) =
          exec (Region.run s.platform.settings entry kind) (s.region l) :=
        Region.exec_run_withStrategy none rfl
      change ((exec (Region.run (s.platform.settings.withStrategy strategy) entry kind)
        (s.region l)).1, (restrategise strategy s).resume dev
          (exec (Region.run (s.platform.settings.withStrategy strategy) entry kind) (s.region l)).2) = _
      rw [same]
      refine Prod.ext rfl ?_
      rw [CallState.resume, CallState.resume, restrategise, restrategise]
      dsimp only
      rw [setLink_withStrategy]
      rfl

/-- Constructors run as regions without arguments. -/
theorem blind_runConstructor {hostAddr : Nat} :
    Blind (·.withStrategy strategy) (runConstructor dev hostAddr) := by
  have region : ∀ s : CallState, s.arguments = {} →
      exec (CallM.runRegion dev hostAddr .single) (restrategise strategy s) =
        ((exec (CallM.runRegion dev hostAddr .single) s).1,
          restrategise strategy (exec (CallM.runRegion dev hostAddr .single) s).2) := by
    intro s none
    refine Blind.bind_returns (blind_onPlatform blind_link) fun l s₁ h₁ => ?_
    refine Blind.bind_returns (blind_onPlatform blind_resolveEntry) fun entry s₂ h₂ => ?_
    obtain ⟨pl₁, -, rfl⟩ := CallM.lifts_onPlatform.returns.1 h₁
    obtain ⟨pl₂, -, rfl⟩ := CallM.lifts_onPlatform.returns.1 h₂
    exact exec_inRegion_withStrategy none
  intro pl
  have run : ∀ pl : Platform, exec (runConstructor dev hostAddr) pl =
      ((exec (CallM.runRegion dev hostAddr .single) { platform := pl }).1,
        (exec (CallM.runRegion dev hostAddr .single) { platform := pl }).2.platform) := fun _ => rfl
  rw [run, run]
  change ((exec (CallM.runRegion dev hostAddr .single)
    (restrategise strategy { platform := pl })).1, (exec (CallM.runRegion dev hostAddr .single)
    (restrategise strategy { platform := pl })).2.platform) = _
  rw [region { platform := pl } rfl]
  rfl

theorem blind_ready : Blind (·.withStrategy strategy) (ready id) :=
  blind_deviceIndex.bind fun _ =>
    (blind_checkReady fun _ => blind_runConstructor).bind fun _ => Blind.pure

end Blind

/-! ## Beginning a region -/

/-- The mapping tables of all devices, statistics included. -/
def tables (pl : Platform) : List MappingTable := pl.devices.map fun slot => slot.device.mappings

/-- The patched pointers of all devices. -/
def shadowTables (pl : Platform) : List ShadowTable := pl.devices.map fun slot => slot.device.shadows

/-- Where the blocks of all accelerators lie. -/
def layouts (pl : Platform) : List (List (Nat × Nat × Nat × List (Nat × Nat))) :=
  pl.accelerators.map Accelerator.layouts

/-- The memories of all accelerators. -/
def memories (pl : Platform) : List (List DeviceMemory) := pl.accelerators.map Accelerator.memories

/-- Nothing that a region maps when it begins gets in the way of anything else. The platform `after` is
the one on which it has begun. -/
def BeginsUndisturbed (pl : Platform) (id : Int) (arguments : ArgumentList) (after : Platform) : Prop :=
  ∀ dev pl' l l', Returns (ready id) pl dev pl' → pl'.link? dev = some l →
    after.link? dev = some l' →
    Undisturbed pl'.settings l'.device.mappings
      (Region.placements pl'.settings (CallState.region { platform := pl', arguments } l))

theorem devices_map_setLink {β : Type} {view : Device → β} (hl : pl.link? dev = some l)
    (k : Link) :
    (pl.setLink dev k).devices.map (fun slot => view slot.device) =
      (pl.devices.map fun slot => view slot.device).set dev (view k.device) := by
  obtain ⟨slot, hs, -, -⟩ := link?_eq_some_iff.1 hl
  rw [setLink, hs]
  exact List.map_set

private theorem accelerators_map_setLink {β : Type} {view : Accelerator → β}
    (hl : pl.link? dev = some l) :
    ∃ i, ∀ k : Link, (pl.setLink dev k).accelerators.map view =
      (pl.accelerators.map view).set i (view k.accelerator) := by
  obtain ⟨slot, hs, -, -⟩ := link?_eq_some_iff.1 hl
  refine ⟨slot.accelerator, fun k => ?_⟩
  rw [setLink, hs]
  exact List.map_set

/-- Beginning a region leaves the same mappings with the same statistics, the same blocks and the same
arguments under both strategies; and if nothing gets in the way of anything else, it leaves the same
bytes and the same patched pointers. -/
theorem dataBegin_agree {arguments : ArgumentList} {s t : CallState} {u v : Unit}
    (reachable : pl.Reachable)
    (immediate : Returns (dataBegin id) { platform := pl.withStrategy .immediate, arguments } u s)
    (bulk : Returns (dataBegin id) { platform := pl.withStrategy .bulk, arguments } v t) :
    (t.platform.tables = s.platform.tables ∧ t.platform.layouts = s.platform.layouts ∧
      t.arguments = s.arguments) ∧
    ((pl.withStrategy .immediate).BeginsUndisturbed id arguments s.platform →
      t.platform.memories = s.platform.memories ∧
        t.platform.shadowTables = s.platform.shadowTables) := by
  obtain ⟨dev, pl₁, l, r, metrics, ready₁, hl, entered, args, after⟩ := returns_phase immediate
  obtain ⟨dev', pl₂, l', r', metrics', ready₂, hl', entered', args', after'⟩ := returns_phase bulk
  -- both calls find the same device in the same state
  obtain ⟨p, ready₀, rfl⟩ := blind_ready.returns_iff.1 ready₁
  obtain ⟨p', ready₀', rfl⟩ := blind_ready.returns_iff.1 ready₂
  obtain ⟨rfl, rfl⟩ := ready₀.unique ready₀'
  change p'.link? dev' = some l at hl
  change p'.link? dev' = some l' at hl'
  rw [hl, Option.some.injEq] at hl'
  subst hl'
  have sound := ((orderly_ready id).returns ready₀).sound reachable.sound
  have hs := sound.link hl
  obtain ⟨alike, -⟩ := Region.enter_alike ⟨.refl hs, rfl, rfl⟩ entered entered'
  have devices : ∀ {β : Type} {view : Device → β},
      view r'.activation.link.device = view r.activation.link.device →
      t.platform.devices.map (fun slot => view slot.device) =
        s.platform.devices.map fun slot => view slot.device := by
    intro β view same
    rw [after, after', setLink_withStrategy, setLink_withStrategy]
    change (p'.setLink dev' _).devices.map _ = (p'.setLink dev' _).devices.map _
    rw [devices_map_setLink hl, devices_map_setLink hl, same]
  have accelerators : ∀ {β : Type} {view : Accelerator → β},
      view r'.activation.link.accelerator = view r.activation.link.accelerator →
      t.platform.accelerators.map view = s.platform.accelerators.map view := by
    intro β view same
    obtain ⟨i, set⟩ := accelerators_map_setLink hl
    rw [after, after', setLink_withStrategy, setLink_withStrategy]
    change (p'.setLink dev' _).accelerators.map _ = (p'.setLink dev' _).accelerators.map _
    rw [set, set, same]
  refine ⟨⟨devices alike.link.mappings, accelerators alike.link.layouts, ?_⟩, fun undisturbed => ?_⟩
  · rw [args, args', alike.arguments]
  · have hr : s.platform.link? dev' = some r.activation.link := by
      rw [after, setLink_withStrategy]
      exact link?_setLink hl
    have here := undisturbed dev' _ l _ ready₁ hl hr
    obtain ⟨bytes, shadows⟩ := Region.enter_memories hs rfl entered entered' here
    exact ⟨accelerators bytes, devices shadows⟩

/-- A struct and what a member of it points at do not get in each other's way. -/
private theorem beginsUndisturbed_holderList {s : CallState}
    (begun : Returns (dataBegin 0) { platform := oneDevice, arguments := holderList } () s) :
    oneDevice.BeginsUndisturbed 0 holderList s.platform := by
  intro dev pl' l l' prepared hl hl'
  have first : Returns (ready 0) oneDevice 0 _ := returns_of_ok (by cbv)
  obtain ⟨rfl, rfl⟩ := first.unique prepared
  have settings : (exec (ready 0) oneDevice).2.settings = oneDevice.settings := by cbv
  have placed : ((exec (ready 0) oneDevice).2.link? 0).map (fun l =>
      Region.placements oneDevice.settings
        (CallState.region { platform := (exec (ready 0) oneDevice).2, arguments := holderList } l)) =
      some [⟨64, 32, 64, none, some 0xd00000000000, List.replicate 32 0⟩,
        ⟨128, 16, 0, some ⟨64, 0xd00000000000⟩, some 0xd00000000080, List.replicate 16 0⟩] := by
    cbv
  have mapped : ((exec (dataBegin 0)
      { platform := oneDevice, arguments := holderList }).2.platform.link? 0).map
        (fun l => l.device.mappings.entries.items) =
      some [⟨0, 128, 144, 0xd00000000080, .one⟩, ⟨64, 64, 96, 0xd00000000000, .one⟩] := by
    cbv
  rw [begun] at mapped
  rw [hl, Option.map_some, Option.some.injEq] at placed
  rw [hl', Option.map_some, Option.some.injEq] at mapped
  have mem : ∀ m, m ∈ l'.device.mappings ↔
      m = ⟨0, 128, 144, 0xd00000000080, .one⟩ ∨ m = ⟨64, 64, 96, 0xd00000000000, .one⟩ := by
    intro m
    change m ∈ l'.device.mappings.entries.items ↔ _
    rw [mapped]
    simp
  rw [settings, placed]
  constructor
  · intro m hm
    rcases (mem m).1 hm with rfl | rfl
    · exact ⟨by decide, by decide⟩
    · exact ⟨by decide, by decide⟩
  · intro p hp _
    rcases (List.mem_cons.1 hp).imp_right List.mem_singleton.1 with rfl | rfl
    · exact ⟨_, (mem _).2 (.inr rfl), by decide, by decide⟩
    · exact ⟨_, (mem _).2 (.inl rfl), by decide, by decide⟩
  · intro p hp q hq
    rcases (List.mem_cons.1 hp).imp_right List.mem_singleton.1 with rfl | rfl
    · cases hq
    · cases hq
      exact ⟨_, (mem _).2 (.inr rfl), by decide, by decide⟩
  · intro p hp _
    rcases (List.mem_cons.1 hp).imp_right List.mem_singleton.1 with rfl | rfl
    · rfl
    · rfl
  · refine List.pairwise_pair.2 fun x hx => ?_
    cases hx
  · intro m hm n hn ne
    rcases (mem m).1 hm with rfl | rfl
    · rcases (mem n).1 hn with rfl | rfl
      · exact absurd rfl ne
      · exact .inr (by decide)
    · rcases (mem n).1 hn with rfl | rfl
      · exact .inl (by decide)
      · exact absurd rfl ne

theorem dataBegin_agree_holderList :
    ∃ s t, Returns (dataBegin 0)
        { platform := oneDevice.withStrategy .immediate, arguments := holderList } () s ∧
      Returns (dataBegin 0) { platform := oneDevice.withStrategy .bulk, arguments := holderList } () t ∧
      (t.platform.tables = s.platform.tables ∧ t.platform.layouts = s.platform.layouts ∧
        t.arguments = s.arguments) ∧
      t.platform.memories = s.platform.memories ∧ t.platform.shadowTables = s.platform.shadowTables := by
  have same : oneDevice.withStrategy .immediate = oneDevice := rfl
  have immediate : Returns (dataBegin 0) { platform := oneDevice, arguments := holderList } () _ :=
    returns_of_ok (by cbv)
  have bulk : Returns (dataBegin 0)
      { platform := oneDevice.withStrategy .bulk, arguments := holderList } () _ :=
    returns_of_ok (by cbv)
  have undisturbed := beginsUndisturbed_holderList immediate
  rw [← same] at immediate undisturbed
  have agree := dataBegin_agree (.fresh fresh_oneDevice) immediate bulk
  exact ⟨_, _, immediate, bulk, agree.1, agree.2 undisturbed⟩

end Platform

end Offloading
