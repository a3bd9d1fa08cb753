import Mathlib
import Offloading.Proofs.Leave
import Offloading.Proofs.MapType
import Offloading.Proofs.Reachable
/-!
# Bases that are written back

Beginning a region overwrites the bases of the arguments that ask for their device base. Ending a region
reads the base of an argument only if the argument holds a pointer slot of its own there. All other bases
may be overwritten, and ending the region does the same.
-/

namespace Offloading

namespace ArgumentList

variable {l l' : ArgumentList} {index : Nat} {a : Argument} {bases : Nat → Nat}

/-- Whether the argument at a position only names the regions that its descriptor lists, and is none of
them. -/
def isListed (l : ArgumentList) (index : Nat) (a : Argument) : Bool :=
  a.mapType.has .nested &&
    match l.descriptors[l.descriptorIndex index]? with
    | some (.regions _) => true
    | _ => false

/-- Whether releasing the argument at a position gives back the pointer slot at its own base. -/
def releasesSlot (l : ArgumentList) (index : Nat) (a : Argument) : Bool :=
  a.ownsSlot && !l.isListed index a

/-- Whether the argument at a position asks for its device base in place of the address of a pointer slot
that releasing it gives back. -/
def losesSlot (l : ArgumentList) (index : Nat) : Bool :=
  l.arguments[index]?.any fun a => l.releasesSlot index a && a.mapType.has .returnParam

theorem releasesSlot_congr (h : l.SameFrames l') :
    l'.releasesSlot index a = l.releasesSlot index a := by
  rw [releasesSlot, releasesSlot, isListed, isListed, h.descriptors, descriptorIndex_congr h]

theorem releasesSlot_frame {b : Argument} (h : b.frame = a.frame) :
    l.releasesSlot index b = l.releasesSlot index a := by
  obtain ⟨base, start, size, mapType⟩ := b
  simp only [Argument.frame, Prod.mk.injEq] at h
  obtain ⟨rfl, rfl, rfl⟩ := h
  rfl

/-! ## Other bases -/

/-- The list with other bases wherever ending a region does not read them. -/
def rebase (bases : Nat → Nat) (l : ArgumentList) : ArgumentList :=
  { l with
    arguments := l.arguments.mapIdx fun i a =>
      if l.releasesSlot i a then a else { a with base := bases i } }

theorem getElem?_rebase :
    (l.rebase bases).arguments[index]? = l.arguments[index]?.map fun a =>
      if l.releasesSlot index a then a else { a with base := bases index } :=
  List.getElem?_mapIdx

theorem rebase_sameFrames : l.SameFrames (l.rebase bases) := by
  refine ⟨rfl, List.ext_getElem? fun i => ?_⟩
  rw [List.getElem?_map, List.getElem?_map, getElem?_rebase, Option.map_map]
  congr 1
  funext a
  rw [Function.comp_apply]
  split
  · rfl
  · rfl

/-- Two lists that differ only in bases that ending a region does not read. -/
theorem eq_rebase (frames : l.SameFrames l')
    (slots : ∀ i a, l.arguments[i]? = some a → l.releasesSlot i a = true →
      l'.arguments[i]? = some a) : ∃ bases, l' = l.rebase bases := by
  refine ⟨fun i => l'.arguments[i]?.elim 0 (·.base), ?_⟩
  have arguments : l'.arguments =
      (l.rebase fun i => l'.arguments[i]?.elim 0 (·.base)).arguments := by
    apply List.ext_getElem? fun i => ?_
    rw [getElem?_rebase]
    have frame := frames.map i
    cases ha : l.arguments[i]? with
    | none =>
        rw [ha] at frame
        simpa using frame
    | some a =>
        rw [ha, Option.map_some] at frame
        obtain ⟨a', ha', same⟩ := Option.map_eq_some_iff.1 frame
        rw [ha', Option.map_some, Option.some.injEq]
        split
        · rename_i releases
          have kept := slots i a ha releases
          rw [ha', Option.some.injEq] at kept
          exact kept
        · obtain ⟨base, start, size, mapType⟩ := a'
          simp only [Argument.frame, Prod.mk.injEq] at same
          obtain ⟨rfl, rfl, rfl⟩ := same
          rfl
  exact (ArgumentList.mk.injEq ..).mpr ⟨arguments, frames.descriptors⟩

/-- An argument is the same in both lists, or only its base differs and is not read. -/
theorem rebase_cases (l : ArgumentList) (bases : Nat → Nat) (index : Nat) :
    (l.rebase bases).arguments[index]? = l.arguments[index]? ∨
      ∃ a, l.arguments[index]? = some a ∧ l.releasesSlot index a = false ∧
        (l.rebase bases).arguments[index]? = some { a with base := bases index } := by
  rw [getElem?_rebase]
  cases l.arguments[index]? with
  | none => exact .inl rfl
  | some a =>
      cases releases : l.releasesSlot index a with
      | true => exact .inl (by rw [Option.map_some, releases, if_pos rfl])
      | false => exact .inr ⟨a, rfl, releases, by rw [Option.map_some, releases]; rfl⟩

/-- What is asked of an argument, other than its base, is answered alike. -/
theorem map_get_rebase {γ : Type} {k : Argument → γ} (h : ∀ a b, k { a with base := b } = k a) :
    ((l.rebase bases).get index).map k = (l.get index).map k := by
  rcases rebase_cases l bases index with same | ⟨a, ha, -, there⟩
  · rw [get, get, same, rebase_sameFrames.size]
  · rw [get_eq_ok.2 ha, get_eq_ok.2 there]
    exact congrArg Except.ok (h a _)

end ArgumentList

theorem Argument.ownsSlot_unnested {a : Argument} :
    Argument.ownsSlot { a with mapType := a.mapType.clear [.nested, .hasNested] } = a.ownsSlot := by
  rw [ownsSlot, ownsSlot, isMapped_unnested, MapType.isMember_clear,
    MapType.has_unnested (by decide) (by decide)]

/-! ## Plans that ask for no base -/

/-- How the region of a plan is mapped. -/
def RegionPlan.mapType : RegionPlan → MapType
  | known region => region.mapType
  | pointee _ _ mapType => mapType

theorem RegionPlan.mapType_of_resolve {plan : RegionPlan} {host : HostMemory} {region : Argument}
    (h : plan.resolve host = some region) : region.mapType = plan.mapType := by
  cases plan with
  | known a =>
      cases h
      rfl
  | pointee slot size mapType =>
      rw [resolve] at h
      split at h
      · cases h
      · cases h
        rfl

theorem RegionPlan.returnParam_unnested {plan : RegionPlan} :
    plan.unnested.mapType.has .returnParam = plan.mapType.has .returnParam := by
  cases plan with
  | known region =>
      rw [unnested, mapType, mapType, MapType.has_clear]
      simp
  | pointee slot size mapType =>
      rw [unnested, RegionPlan.mapType, RegionPlan.mapType, MapType.has_clear]
      simp

/-- Neither the argument at a position nor a region that its descriptor lists asks for its device base. -/
structure ArgumentList.SilentAt (l : ArgumentList) (index : Nat) (a : Argument) : Prop where
  argument : a.mapType.has .returnParam = false
  listed : a.mapType.has .nested = true → ∀ list,
    l.descriptors[l.descriptorIndex index]? = some (.regions list) →
      ∀ region ∈ list, region.mapType.has .returnParam = false

theorem ArgumentList.SilentAt.congr {l l' : ArgumentList} {index : Nat} {a : Argument}
    (h : l.SilentAt index a) (frames : l.SameFrames l') : l'.SilentAt index a := by
  refine ⟨h.argument, fun nested list hd => h.listed nested list ?_⟩
  rwa [frames.descriptors, descriptorIndex_congr frames] at hd

/-- An argument that releases its own slot is not one that only names listed regions. -/
theorem ArgumentList.silentAt_of_releasesSlot {l : ArgumentList} {index : Nat} {a : Argument}
    (releases : l.releasesSlot index a = true) (silent : a.mapType.has .returnParam = false) :
    l.SilentAt index a := by
  refine ⟨silent, fun nested list hd => ?_⟩
  rw [releasesSlot, isListed, nested, hd] at releases
  simp at releases

/-- The elements of a pointer array never ask for their device base. -/
theorem ArgumentList.SilentAt.plans {l : ArgumentList} {index : Nat} {a : Argument}
    {plans : List RegionPlan} (silent : l.SilentAt index a) (ha : l.arguments[index]? = some a)
    (found : l.plans index = .ok plans) :
    ∀ plan ∈ plans, plan.mapType.has .returnParam = false := by
  cases nested : a.mapType.has .nested with
  | false =>
      rw [Region.plans_of_get ha nested, Except.ok.injEq] at found
      subst found
      exact List.forall_mem_singleton.2 silent.argument
  | true =>
      rw [plans_of_nested ha nested] at found
      rcases hd : l.descriptors[l.descriptorIndex index]? with _ | ⟨list | elementSize | detail⟩
      · rw [hd] at found
        cases found
      · rw [hd] at found
        cases found
        intro plan hp
        obtain ⟨original, ho, rfl⟩ := List.mem_map.1 hp
        obtain ⟨region, hr, rfl⟩ := List.mem_map.1 ho
        rw [RegionPlan.returnParam_unnested]
        exact silent.listed nested list hd region hr
      · rw [hd] at found
        dsimp only [Descriptor.expand] at found
        by_cases part : a.size % Word.bytes ≠ 0
        · rw [if_pos part] at found
          cases found
        · rw [if_neg part] at found
          cases found
          intro plan hp
          obtain ⟨original, ho, rfl⟩ := List.mem_map.1 hp
          rw [RegionPlan.returnParam_unnested]
          rcases List.mem_cons.1 ho with rfl | ho
          · exact silent.argument
          · obtain ⟨slot, -, rfl⟩ := List.mem_map.1 ho
            rw [RegionPlan.mapType, MapType.has_set, MapType.has_keep]
            simp [Descriptor.inherited]
      · rw [hd] at found
        cases found

/-! ## States -/

/-- The state with other bases wherever ending a region does not read them. -/
def RegionState.rebase (bases : Nat → Nat) (s : RegionState) : RegionState :=
  { s with arguments := s.arguments.rebase bases }

/-- The call with other bases wherever ending a region does not read them. -/
def CallState.rebase (bases : Nat → Nat) (s : CallState) : CallState :=
  { s with arguments := s.arguments.rebase bases }

namespace Region

open RegionM

variable {settings : Settings} {padded : Bool} {region : Argument} {index : Nat} {bases : Nat → Nat}

/-! ## Leaving reads no other base -/

theorem exec_arguments_bind {α β : Type} {ask : ArgumentList → Except ArgumentError α}
    {k : α → RegionM β} {s : RegionState} :
    exec (arguments ask >>= k) s =
      match (ask s.arguments).map k with
      | .ok next => exec next s
      | .error e => (.error (.invalidArguments e), s) := by
  unfold arguments
  rw [bind_assoc, exec_get_bind]
  cases ask s.arguments with
  | ok a => rfl
  | error e => rfl

/-- A question may be asked of either list if its answers lead on in the same way. -/
theorem blind_arguments_bind {α β : Type} {ask : ArgumentList → Except ArgumentError α}
    {k : α → RegionM β}
    (same : ∀ l : ArgumentList, (ask (l.rebase bases)).map k = (ask l).map k)
    (hk : ∀ a, Blind (RegionState.rebase bases) (k a)) :
    Blind (RegionState.rebase bases) (arguments ask >>= k) := by
  intro s
  rw [exec_arguments_bind, exec_arguments_bind, RegionState.rebase, same]
  cases ask s.arguments with
  | ok a => exact hk a s
  | error e => rfl

theorem blind_onDevice {α : Type} {x : DeviceM α} :
    Blind (RegionState.rebase bases) (onDevice x) :=
  fun _ => rfl

theorem blind_writeHost {first : Nat} {content : List UInt8} :
    Blind (RegionState.rebase bases) (writeHost first content) :=
  Blind.modify fun _ => rfl

theorem blind_unmapped {α : Type} {first size : Nat} :
    Blind (RegionState.rebase bases) (unmapped first size : RegionM α) :=
  Blind.bind_get (fun _ => rfl) fun _ => Blind.throw

theorem blind_parentIsSoleOwner : Blind (RegionState.rebase bases) (parentIsSoleOwner region) := by
  unfold parentIsSoleOwner
  split
  · exact Blind.pure
  · refine blind_arguments_bind (fun _ => ArgumentList.map_get_rebase fun _ _ => rfl) fun parent => ?_
    refine Blind.bind_get (fun _ => rfl) fun s => ?_
    split
    · exact Blind.pure
    · exact Blind.pure

theorem blind_copyBack {first size source : Nat} {removed : Bool} :
    Blind (RegionState.rebase bases) (copyBack region first size source removed) := by
  have copy : Blind (RegionState.rebase bases) (do
      writeHost first (← onDevice (Device.retrieve source size))
      return true) :=
    blind_onDevice.bind fun _ => blind_writeHost.bind fun _ => Blind.pure
  refine Blind.ite ?_ Blind.pure
  refine Blind.ite (blind_parentIsSoleOwner.bind fun _ => ?_) (Blind.pure.bind fun _ => ?_)
  · exact Blind.ite copy Blind.pure
  · exact Blind.ite copy Blind.pure

theorem blind_restoreShadows {first size : Nat} {copied removed : Bool} :
    Blind (RegionState.rebase bases) (restoreShadows settings first size copied removed) := by
  refine Blind.ite (blind_onDevice.bind fun shadows => ?_) Blind.pure
  exact Blind.ite (Blind.forM (fun _ => blind_writeHost) shadows) Blind.pure

theorem blind_releasePointer {slot : Nat} :
    Blind (RegionState.rebase bases) (releasePointer slot) := by
  refine blind_onDevice.bind fun held => ?_
  split
  · exact blind_unmapped
  · exact Blind.ite blind_onDevice Blind.pure

theorem blind_releaseSection :
    Blind (RegionState.rebase bases) (releaseSection settings padded region) := by
  unfold releaseSection
  refine blind_onDevice.bind fun held => ?_
  split
  · exact Blind.ite Blind.pure blind_unmapped
  · refine blind_copyBack.bind fun copied => blind_restoreShadows.bind fun _ => ?_
    exact Blind.ite blind_onDevice Blind.pure

theorem blind_unmapRegion :
    Blind (RegionState.rebase bases) (unmapRegion settings padded region) := by
  refine Blind.ite Blind.pure (blind_releaseSection.bind fun _ => ?_)
  exact Blind.ite blind_releasePointer Blind.pure

theorem blind_forRegions {step : Argument → RegionM Unit}
    (h : ∀ region, Blind (RegionState.rebase bases) (step region)) (plans : List RegionPlan) :
    Blind (RegionState.rebase bases) (forRegions step plans) := by
  induction plans with
  | nil => exact Blind.pure
  | cons plan rest ih =>
      rw [forRegions]
      refine Blind.bind_get (fun _ => rfl) fun s => ?_
      split
      · exact (h _).bind fun _ => ih
      · exact ih

theorem forRegions_known_rebase (region : Argument) {rest : List RegionPlan} {b : Nat}
    (h : region.ownsSlot = false) :
    forRegions (unmapRegion settings padded) (.known { region with base := b } :: rest) =
      forRegions (unmapRegion settings padded) (.known region :: rest) := by
  rw [forRegions, forRegions]
  simp only [RegionPlan.resolve]
  rw [unmapRegion_rebase fun owns => ?_]
  rw [h] at owns
  cases owns

/-- What a descriptor makes of an argument is released alike if the argument is not among it or owns no
slot. -/
theorem map_expand_rebase {a : Argument} {d : Descriptor} {b : Nat}
    (h : (∀ list, d ≠ .regions list) → a.ownsSlot = false) :
    ((d.expand { a with base := b }).map fun plans =>
        forRegions (unmapRegion settings padded) (plans.map .unnested)) =
      (d.expand a).map fun plans =>
        forRegions (unmapRegion settings padded) (plans.map .unnested) := by
  cases d with
  | regions list => rfl
  | refused detail => rfl
  | pointerArray elementSize =>
      have owns := Argument.ownsSlot_unnested.trans (h fun _ => Descriptor.noConfusion)
      rw [Descriptor.expand, Descriptor.expand]
      by_cases part : a.size % Word.bytes ≠ 0
      · rw [if_pos part, if_pos part]
      · rw [if_neg part, if_neg part]
        exact congrArg Except.ok (forRegions_known_rebase
          { a with mapType := a.mapType.clear [.nested, .hasNested] } owns)

/-- The regions of an argument are released alike in both lists. -/
theorem map_plans_rebase {l : ArgumentList} :
    ((l.rebase bases).plans index).map (forRegions (unmapRegion settings padded)) =
      (l.plans index).map (forRegions (unmapRegion settings padded)) := by
  have frames : l.SameFrames (l.rebase bases) := ArgumentList.rebase_sameFrames
  rcases l.rebase_cases bases index with same | ⟨a, ha, releases, there⟩
  · rw [ArgumentList.plans_congr frames same]
  · rw [ArgumentList.releasesSlot, ArgumentList.isListed] at releases
    cases nested : a.mapType.has .nested with
    | false =>
        have owns : a.ownsSlot = false := by simpa [nested] using releases
        rw [plans_of_get ha nested, plans_of_get there nested]
        exact congrArg Except.ok (forRegions_known_rebase a owns)
    | true =>
        rw [ArgumentList.map_plans_of_nested _ ha nested, ArgumentList.map_plans_of_nested _ there nested,
          frames.descriptors, ArgumentList.descriptorIndex_congr frames]
        rw [nested] at releases
        rcases hd : l.descriptors[l.descriptorIndex index]? with _ | d
        · rfl
        · have listed : (∀ list, d ≠ .regions list) → a.ownsSlot = false := by
            intro other
            rw [hd] at releases
            cases d with
            | regions list => exact absurd rfl (other list)
            | pointerArray _ => simpa using releases
            | refused _ => simpa using releases
          dsimp only
          rw [map_expand_rebase listed]

theorem blind_unmapArgument : Blind (RegionState.rebase bases) (unmapArgument settings index) := by
  refine blind_arguments_bind (fun _ => ArgumentList.map_get_rebase fun _ _ => rfl) fun a => ?_
  refine Blind.ite Blind.pure (Blind.bind_get (fun s => ?_) fun s => ?_)
  · have frames : s.arguments.SameFrames (s.arguments.rebase bases) := ArgumentList.rebase_sameFrames
    rw [isPadded, isPadded, RegionState.rebase, ArgumentList.headsStruct_congr frames]
  · exact blind_arguments_bind (fun _ => map_plans_rebase) fun plans =>
      blind_forRegions (fun _ => blind_unmapRegion) plans

theorem blind_leave : Blind (RegionState.rebase bases) (leave settings) := by
  refine Blind.bind_get (fun s => ?_) fun s => Blind.forM (fun _ => blind_unmapArgument) _
  rw [RegionState.rebase, s.arguments.rebase_sameFrames.size]

/-! ## Entering keeps the bases that are read -/

section Returns

variable {s s' : RegionState} {u : Unit}

theorem none_of_mapRegion {base? : Option Nat} (silent : region.mapType.has .returnParam = false)
    (h : Returns (mapRegion settings padded region) s base? s') : base? = none := by
  cases hm : region.isMapped with
  | false =>
      rw [mapRegion, hm] at h
      exact (returns_pure.1 h).1
  | true =>
      obtain ⟨_, _, _, _, _, _, _, _, -, -, -, -, -, -, returned⟩ := returns_mapRegion h hm
      rw [returned, silent, if_neg Bool.false_ne_true]

/-- If no region asks for its device base, none is written back. -/
theorem returned_of_silent {plans : List RegionPlan} {returned base? : Option Nat}
    (silent : ∀ plan ∈ plans, plan.mapType.has .returnParam = false)
    (h : Returns (mapPlans settings padded plans returned) s base? s') : base? = returned := by
  induction plans generalizing s returned with
  | nil => exact (returns_pure.1 h).1
  | cons plan rest ih =>
      obtain ⟨here, later⟩ := List.forall_mem_cons.1 silent
      rw [mapPlans, returns_get_bind] at h
      cases hr : plan.resolve s.host with
      | none =>
          rw [hr] at h
          exact ih later h
      | some region =>
          rw [hr] at h
          obtain ⟨own?, s₁, mapped, h⟩ := returns_bind.1 h
          rw [ih later h, none_of_mapRegion (RegionPlan.mapType_of_resolve hr ▸ here) mapped]
          rfl

/-- An argument that asks for no device base stays as it is. -/
theorem base_mapArgument {i : Nat} {a : Argument} (h : Returns (mapArgument settings index) s u s')
    (ha : s.arguments.arguments[i]? = some a) (silent : s.arguments.SilentAt i a) :
    s'.arguments.arguments[i]? = some a := by
  by_cases same : i = index
  · subst same
    unfold mapArgument at h
    obtain ⟨a', s₁, hg, h⟩ := returns_bind.1 h
    obtain ⟨got, rfl⟩ := returns_arguments.1 hg
    rw [ArgumentList.get_eq_ok, ha, Option.some.injEq] at got
    subst got
    cases hm : a.isMapped with
    | false =>
        rw [hm] at h
        rw [(returns_pure.1 h).2]
        exact ha
    | true =>
        rw [hm, Bool.not_true, if_neg Bool.false_ne_true, returns_get_bind] at h
        obtain ⟨plans, s₂, hp, h⟩ := returns_bind.1 h
        obtain ⟨found, rfl⟩ := returns_arguments.1 hp
        obtain ⟨base?, s₃, hb, h⟩ := returns_bind.1 h
        obtain rfl := returned_of_silent (silent.plans ha found) hb
        rw [(returns_pure.1 h).2, ((along_mapPlans plans none).returns hb).arguments]
        exact ha
  · exact ((along_mapArgument.returns h).others i same).trans ha

theorem base_mapArguments {indices : List Nat} {i : Nat} {a : Argument}
    (h : Returns (indices.forM (mapArgument settings)) s u s')
    (ha : s.arguments.arguments[i]? = some a) (silent : s.arguments.SilentAt i a) :
    s'.arguments.arguments[i]? = some a := by
  induction indices generalizing s with
  | nil =>
      rw [(returns_pure.1 h).2]
      exact ha
  | cons index rest ih =>
      obtain ⟨s₁, first, later⟩ := returns_forM_cons.1 h
      have frames := (along_mapArgument.returns first).arguments
      exact ih later (base_mapArgument first ha silent) (silent.congr frames)

theorem base_enter {i : Nat} {a : Argument} (h : Returns (enter settings) s u s')
    (ha : s.arguments.arguments[i]? = some a) (silent : s.arguments.SilentAt i a) :
    s'.arguments.arguments[i]? = some a := by
  rw [enter, returns_get_bind, returns_bind] at h
  obtain ⟨_, s₁, mapped, flushed⟩ := h
  rw [(along_flush.returns flushed).arguments]
  exact base_mapArguments mapped ha silent

end Returns

end Region

namespace CallM

variable {bases : Nat → Nat}

theorem blind_onPlatform {α : Type} {x : PlatformM α} :
    Blind (CallState.rebase bases) (onPlatform x) :=
  fun _ => rfl

theorem blind_inRegion {dev : Nat} {x : Settings → RegionM Unit}
    (hx : ∀ settings, Blind (RegionState.rebase bases) (x settings)) :
    Blind (CallState.rebase bases) (inRegion dev x) := by
  intro s
  cases hl : s.platform.link? dev with
  | none =>
      have hl' : (s.rebase bases).platform.link? dev = none := hl
      rw [exec_inRegion_none hl, exec_inRegion_none hl']
      rfl
  | some l =>
      have hl' : (s.rebase bases).platform.link? dev = some l := hl
      rw [exec_inRegion hl, exec_inRegion hl']
      have ran := hx s.platform.settings (s.region l)
      exact congrArg (fun p => (p.1, (s.rebase bases).resume dev p.2)) ran

end CallM

namespace Platform

open CallM

theorem blind_dataEnd {bases : Nat → Nat} {id : Int} :
    Blind (CallState.rebase bases) (dataEnd id) :=
  CallM.blind_onPlatform.bind fun _ =>
    (CallM.blind_inRegion fun _ => Region.blind_leave).bind fun _ => CallM.blind_onPlatform

/-- In the list that beginning a region leaves, any bases may be put back to those of the caller, all of
them if no argument loses its slot: ending the region has the same result and the same effect on the
platform. Only the base of an argument that asked for its device base and releases the pointer slot at
its own base has to stay overwritten. -/
theorem dataEnd_writtenBack {id : Int} {s s' : CallState} {l : ArgumentList} {u : Unit}
    (begun : Returns (dataBegin id) s u s') (descriptors : l.descriptors = s.arguments.descriptors)
    (restored : ∀ i, l.arguments[i]? = s'.arguments.arguments[i]? ∨
      s.arguments.losesSlot i = false ∧ l.arguments[i]? = s.arguments.arguments[i]?)
    (pl : Platform) (id' : Int) :
    (exec (dataEnd id') { platform := pl, arguments := s'.arguments }).1 =
        (exec (dataEnd id') { platform := pl, arguments := l }).1 ∧
      (exec (dataEnd id') { platform := pl, arguments := s'.arguments }).2.platform =
        (exec (dataEnd id') { platform := pl, arguments := l }).2.platform := by
  obtain ⟨dev, pl₁, link, r, metrics, -, -, entered, args, -⟩ := returns_phase begun
  have frames : s.arguments.SameFrames s'.arguments :=
    args ▸ ((Region.along_enter _).returns entered).arguments
  have frames' : s'.arguments.SameFrames l := by
    refine ⟨descriptors.trans frames.descriptors.symm, List.ext_getElem? fun i => ?_⟩
    rw [List.getElem?_map, List.getElem?_map]
    rcases restored i with same | ⟨-, same⟩
    · rw [same]
    · rw [same, frames.map i]
  have slots : ∀ i a, s'.arguments.arguments[i]? = some a → s'.arguments.releasesSlot i a = true →
      l.arguments[i]? = some a := by
    intro i a ha releases
    rcases restored i with same | ⟨keeps, same⟩
    · rw [same, ha]
    · have framed := frames.map i
      rw [ha] at framed
      obtain ⟨own, ho, alike⟩ := Option.map_eq_some_iff.1 framed.symm
      rw [ArgumentList.releasesSlot_congr frames, ← ArgumentList.releasesSlot_frame alike] at releases
      rw [ArgumentList.losesSlot, ho, Option.any_some, releases, Bool.true_and] at keeps
      have kept := Region.base_enter entered ho (ArgumentList.silentAt_of_releasesSlot releases keeps)
      rw [← args, ha] at kept
      rw [same, ho, kept]
  obtain ⟨bases, rfl⟩ := ArgumentList.eq_rebase frames' slots
  have blind : Blind (CallState.rebase bases) (dataEnd id') := blind_dataEnd
  have ran := blind { platform := pl, arguments := s'.arguments }
  rw [CallState.rebase] at ran
  rw [ran]
  exact ⟨rfl, rfl⟩

/-- A struct and a pointer in it, both of which ask for their device bases. -/
def returningHolder : ArgumentList :=
  { arguments := [⟨64, 64, 32, .ofFlags [.toDevice, .fromDevice, .returnParam]⟩,
      ⟨64, 128, 16,
        (MapType.ofFlags [.fromDevice, .pointerAndObject, .returnParam]).withMemberOf 0⟩] }

theorem dataEnd_writtenBack_returningHolder :
    ∃ s, Returns (dataBegin 0) { platform := oneDevice, arguments := returningHolder } () s ∧
      s.arguments.arguments.map (·.base) = [0xd00000000000, 0xd00000000000] ∧
      (exec (dataEnd 0) s).1 =
        (exec (dataEnd 0) { s with arguments := returningHolder }).1 ∧
      (exec (dataEnd 0) s).2.platform =
        (exec (dataEnd 0) { s with arguments := returningHolder }).2.platform := by
  have begun : Returns (dataBegin 0) { platform := oneDevice, arguments := returningHolder } () _ :=
    returns_of_ok (by cbv)
  have keeps : ∀ i, returningHolder.losesSlot i = false := by
    intro i
    rcases i with _ | _ | i
    · decide
    · decide
    · rfl
  have restored : ∀ s : CallState,
      Returns (dataBegin 0) { platform := oneDevice, arguments := returningHolder } () s →
        (exec (dataEnd 0) s).1 = (exec (dataEnd 0) { s with arguments := returningHolder }).1 ∧
        (exec (dataEnd 0) s).2.platform =
          (exec (dataEnd 0) { s with arguments := returningHolder }).2.platform :=
    fun s begun => dataEnd_writtenBack begun rfl (fun i => .inr ⟨keeps i, rfl⟩) s.platform 0
  exact ⟨_, begun, by cbv, restored _ begun⟩

/-- A pointer that no struct contains loses its slot, and then ending the region fails. -/
example : (exec (dataEnd 0) (exec (dataBegin 0)
    { platform := oneDevice, arguments := { arguments := [⟨64, 128, 16,
      .ofFlags [.pointerAndObject, .returnParam]⟩] } }).2).1.isOk = false := by cbv

end Platform

end Offloading
