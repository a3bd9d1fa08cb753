import Offloading.Proofs.PatchedPointers
import Offloading.Proofs.Phases
import Offloading.Proofs.Settlement
/-!
# Recording

Entering a region forgets no pointer. Whether it succeeds or not, each shadow that it adds records what
the host held in the slot of a pointer that the region maps; and if it succeeds, all pointers that the
region maps are recorded.
-/

namespace Offloading

/-! ## Mapping that may fail -/

namespace Region

open RegionM

private theorem error_arguments {α : Type} {ask : ArgumentList → Except ArgumentError α}
    {s s' : RegionState} {e : OffloadError} (h : exec (arguments ask) s = (.error e, s')) :
    s' = s := by
  have same : s = (exec (arguments ask) s).2 := Allows.arguments (R := Eq) s
  rw [h] at same
  exact same.symm

section run

variable {settings : Settings} {P : RegionState → Prop} {ok : Placement → Prop} {padded : Bool}
  {region : Argument} {s : RegionState} {plans : List RegionPlan} {returned : Option Nat}
  (step : ∀ {padded region s}, P s → (∀ p, placement? settings padded region s = some p → ok p) →
    P (exec (mapRegion settings padded region) s).2)
  (rebase : ∀ {s l}, P s → P { s with arguments := l })

include step

theorem mapPlans_kept (h : P s) (all : ∀ p ∈ placementsOf settings padded plans s, ok p) :
    P (exec (mapPlans settings padded plans returned) s).2 := by
  induction plans generalizing s returned with
  | nil => exact h
  | cons plan rest ih =>
      rw [placementsOf] at all
      rw [mapPlans, exec_get_bind]
      cases hp : plan.resolve s.host with
      | none =>
          rw [hp] at all
          exact ih h all
      | some region =>
          rw [hp] at all
          obtain ⟨here, others⟩ := List.forall_mem_append.1 all
          have first : P (exec (mapRegion settings padded region) s).2 :=
            step h fun p found => here p (Option.mem_toList.2 found)
          dsimp only
          refine exec_bind_ind (fun e s' hr => ?_) fun base s' hr => ?_
          · rwa [hr] at first
          · rw [Returns] at hr
            rw [hr] at first others
            exact ih first others

include rebase

theorem mapArgument_kept {index : Nat} (h : P s)
    (all : ∀ p ∈ placementsAt settings index s, ok p) :
    P (exec (mapArgument settings index) s).2 := by
  rw [mapArgument]
  refine exec_bind_ind (fun e s' hr => error_arguments hr ▸ h) fun a s₁ hr => ?_
  obtain ⟨got, rfl⟩ := returns_arguments.1 hr
  rw [placementsAt, got] at all
  cases hm : a.isMapped with
  | false => exact h
  | true =>
      rw [Bool.not_true, if_neg Bool.false_ne_true, exec_get_bind]
      refine exec_bind_ind (fun e s' hr => error_arguments hr ▸ h) fun plans s₂ hr => ?_
      obtain ⟨found, rfl⟩ := returns_arguments.1 hr
      rw [found] at all
      dsimp only at all
      rw [hm, if_pos rfl] at all
      have mapped : P (exec (mapPlans settings (isPadded s₂.arguments index a) plans none) s₂).2 :=
        mapPlans_kept step h all
      refine exec_bind_ind (fun e s' hr => ?_) fun base? s₃ hr => ?_
      · rwa [hr] at mapped
      · rw [Returns] at hr
        rw [hr] at mapped
        cases base? with
        | none => exact mapped
        | some base =>
            refine exec_bind_ind (fun e s' hr => error_arguments hr ▸ mapped) fun l s₄ hr => ?_
            obtain ⟨-, rfl⟩ := returns_arguments.1 hr
            exact rebase mapped

/-- What mapping one region keeps is kept by mapping arguments, whether that succeeds or not. -/
theorem mapArguments_kept {indices : List Nat} (h : P s)
    (all : ∀ p ∈ placementsOn settings indices s, ok p) :
    P (exec (indices.forM (mapArgument settings)) s).2 := by
  induction indices generalizing s with
  | nil => exact h
  | cons index rest ih =>
      rw [placementsOn] at all
      obtain ⟨here, others⟩ := List.forall_mem_append.1 all
      have first := mapArgument_kept step rebase h here
      change P (exec (mapArgument settings index >>= fun _ => rest.forM _) s).2
      refine exec_bind_ind (fun e s' hr => ?_) fun _ s' hr => ?_
      · rwa [hr] at first
      · rw [Returns] at hr
        rw [hr] at first others
        exact ih first others

end run

end Region

/-! ## What was recorded -/

/-- Every pointer that was in `old` is still remembered, and each shadow that is not from there, and
each patch that waits, records a slot and a value that `W` allows. -/
structure Activation.Records (old : ShadowTable) (W : Nat → Nat → Prop) (a : Activation) : Prop where
  kept : ∀ x ∈ old, a.link.device.Remembers x.hostSlot
  shadows : ∀ s ∈ a.link.device.shadows, s ∈ old ∨ W s.hostSlot s.hostValue
  patches : ∀ p ∈ a.queue.patches, W p.hostSlot p.hostValue

/-- No slot is forgotten when shadows are added. -/
theorem Device.Remembers.withShadows {d : Device} {slot : Nat} (h : d.Remembers slot)
    (shadows : List ShadowPointer) : (d.withShadows shadows).Remembers slot := by
  induction shadows generalizing d with
  | nil => exact h
  | cons s rest ih =>
      refine ih (d := d.withShadows [s]) ?_
      obtain ⟨x, hx, rfl⟩ := h
      by_cases same : x.hostSlot = s.hostSlot
      · exact ⟨s, AddressMap.mem_insert_self, same.symm⟩
      · exact ⟨x, AddressMap.mem_insert.2 (.inr ⟨hx, same⟩), rfl⟩

namespace Activation

variable {a : Activation} {old : ShadowTable} {W : Nat → Nat → Prop}

theorem Records.of_shadows {a' : Activation} (h : a.Records old W)
    (shadows : a'.link.device.shadows = a.link.device.shadows)
    (patches : ∀ p ∈ a'.queue.patches, p ∈ a.queue.patches) : a'.Records old W := by
  refine ⟨fun x hx => (h.kept x hx).of_eq shadows, fun s hs => h.shadows s ?_, fun p hp =>
    h.patches p (patches p hp)⟩
  rwa [shadows] at hs

/-- Shadows were added on a device that only moved bytes meanwhile. -/
theorem Records.withShadows {link : Link} {shadows : List ShadowPointer} (h : a.Records old W)
    (moved : a.link.Transferred link) (allowed : ∀ s ∈ shadows, W s.hostSlot s.hostValue) :
    Records old W { a with link := { link with device := link.device.withShadows shadows } } := by
  have same := moved.extended.shadows
  refine ⟨fun x hx => ((h.kept x hx).of_eq same).withShadows shadows, fun s hs => ?_, h.patches⟩
  rcases mem_foldl_insert hs with hs | hs
  · rw [same] at hs
    exact h.shadows s hs
  · exact .inr (allowed s hs)

theorem Records.submit {target : Nat} {content : List UInt8} (h : a.Records old W)
    (strategy : Strategy) : (exec (strategy.submit target content) a).2.Records old W := by
  cases strategy with
  | immediate => exact h.of_shadows (Device.along_submit a.link).extended.shadows fun p hp => hp
  | bulk =>
      refine h.of_shadows rfl fun p hp => ?_
      change p ∈ (a.queue.stage target content).patches at hp
      rw [TransferQueue.stage] at hp
      split at hp
      · exact hp
      · exact hp

theorem Records.patch {p : PointerPatch} (h : a.Records old W) (allowed : W p.hostSlot p.hostValue)
    (strategy : Strategy) : (exec (strategy.patch p) a).2.Records old W := by
  cases strategy with
  | immediate =>
      change Records old W { a with link := (exec (Device.patch p.shadow) a.link).2 }
      obtain ⟨link, sent, hl | hl⟩ := Device.exec_patch_cases p.shadow a.link
      · rw [hl]
        exact h.of_shadows sent.extended.shadows fun p hp => hp
      · rw [hl]
        refine h.withShadows sent fun s hs => ?_
        rw [List.mem_singleton.1 hs]
        exact allowed
  | bulk =>
      refine ⟨h.kept, h.shadows, fun q hq => ?_⟩
      rcases List.mem_append.1 hq with hq | hq
      · exact h.patches q hq
      · rw [List.mem_singleton.1 hq]
        exact allowed

theorem Records.flush (h : a.Records old W) (strategy : Strategy) :
    (exec strategy.flush a).2.Records old W := by
  have patches : ∀ {a : Activation}, a.Records old W → (exec TransferM.sendPatches a).2.Records old W := by
    intro a h
    change Records old W
      ⟨(exec (Device.sendPatches a.queue.patches) a.link).2, a.queue.withoutPatches⟩
    have emptied : Records old W { a with queue := a.queue.withoutPatches } :=
      ⟨h.kept, h.shadows, fun _ hp => nomatch hp⟩
    obtain ⟨link, sent, hl | ⟨shadows, resolved, hl⟩⟩ :=
      Device.exec_sendPatches_cases a.queue.patches a.link
    · rw [hl]
      exact emptied.of_shadows sent.extended.shadows fun p hp => hp
    · rw [hl]
      refine emptied.withShadows sent fun s hs => ?_
      obtain ⟨p, hp, hr⟩ := Device.mem_of_resolved resolved hs
      rw [Device.hostSlot_of_resolve? hr, Device.hostValue_of_resolve? hr]
      exact h.patches p hp
  cases strategy with
  | immediate => exact h
  | bulk =>
      have copied : (exec TransferM.sendCopies a).2.Records old W :=
        h.of_shadows (Device.along_sendCopies a.link).extended.shadows fun _ hp => hp
      refine exec_bind_ind (P := Records old W) (fun e s' hs => ?_) fun _ s' hs => patches ?_
      · rwa [hs] at copied
      · rw [Returns] at hs
        rwa [hs] at copied

end Activation

namespace Region

open RegionM

variable {settings : Settings} {padded : Bool} {region : Argument} {s s' : RegionState}
  {old : ShadowTable} {W : Nat → Nat → Prop} {u : Unit}

/-- The region records what `W` allows. -/
def Records (old : ShadowTable) (W : Nat → Nat → Prop) (s : RegionState) : Prop :=
  s.activation.Records old W

theorem Step.records (h : Step Link.Extended Eq s s') : Kept (Records old W) s s' := by
  refine fun hs => hs.of_shadows h.link.shadows ?_
  rw [h.queue]
  exact fun p hp => hp

theorem records_copyIn {first size : Nat} {mapped? : Option MappedSection} :
    Along (Kept (Records old W)) (copyIn settings region first size mapped?) := by
  unfold copyIn
  split
  · exact Along.pure
  · refine Along.ite ((along_copiesIn.mono Step.records).bind fun copies => ?_) Along.pure
    refine Along.ite ((along_readHost.mono Step.records).bind fun content => ?_) Along.pure
    exact lifts_transfer.along (R := Kept (Activation.Records old W))
      (fun a h => h.submit settings.strategy) fun _ _ h => h

theorem records_patchPointer {first base : Nat} {target? : Option Nat}
    {pointer? : Option MappedPointer} (h : Records old W s)
    (allowed : ∀ pointer, pointer? = some pointer → W pointer.hostSlot base) :
    Records old W (exec (patchPointer settings first base target? pointer?) s).2 := by
  cases pointer? with
  | none => exact h
  | some pointer =>
      rw [patchPointer]
      by_cases translated : settings.config.translatesOnDevice = true
      · rw [if_pos translated]
        exact h
      · rw [if_neg translated]
        have sent : Kept (Records old W) s (exec (transfer (settings.strategy.patch
            ⟨pointer.hostSlot, base, pointer.deviceSlot, first, Word.sub first base, target?⟩)) s).2 := by
          rw [lifts_transfer s]
          exact fun h => Activation.Records.patch h (allowed pointer rfl) settings.strategy
        exact Along.bind_at sent (fun _ => along_record.mono Step.records) h

/-- Whether mapping a region succeeds or not, it records no more than its pointer. -/
theorem records_mapRegion (h : Records old W s)
    (allowed : ∀ p, placement? settings padded region s = some p →
      ∀ q, p.pointer? = some q → W q.hostSlot p.base) :
    Records old W (exec (mapRegion settings padded region) s).2 := by
  rw [placement?] at allowed
  rw [mapRegion]
  cases hm : region.isMapped with
  | false => exact h
  | true =>
      rw [hm, if_pos rfl] at allowed
      rw [Bool.not_true, if_neg Bool.false_ne_true]
      rcases sec : mappedSection settings padded region with ⟨first, size⟩
      refine Kept.bind h (along_mapPointer.mono Step.records) fun pointer? s₁ h₁ hr₁ => ?_
      rw [exec_get_bind]
      refine Kept.bind h₁ ((along_onDevice Device.along_map).mono Step.records)
        fun mapped? s₂ h₂ hr₂ => ?_
      refine Kept.bind h₂ records_copyIn fun _ s₃ h₃ hr₃ => ?_
      refine Along.bind_at (R := Kept (Records old W)) (fun h => ?_) (fun _ => Along.pure) h₃
      obtain ⟨l, mapped, rfl⟩ := lifts_onDevice.returns.1 hr₂
      obtain ⟨content, decided, -⟩ := returns_copyIn hr₃
      -- the region was placed, so its pointer is one of those that are allowed
      have placed := returns_place.2 ⟨pointer?, s₁, mapped?, l, content, first, size, _, sec, hr₁, rfl,
        mapped, decided, rfl⟩
      rw [placed] at allowed
      exact records_patchPointer h fun q hq => allowed _ rfl q hq

/-- One of the regions that are mapped has a pointer at the slot that holds the value. -/
def Points (settings : Settings) (s : RegionState) (slot value : Nat) : Prop :=
  ∃ p ∈ placements settings s, ∃ q, p.pointer? = some q ∧ q.hostSlot = slot ∧ p.base = value

/-- Entering a region records nothing but what the regions point at. -/
theorem records_enter (settings : Settings) (idle : s.activation.queue = {}) :
    Records s.activation.link.device.shadows (Points settings s) (exec (enter settings) s).2 := by
  rw [enter, exec_get_bind]
  have start : Records s.activation.link.device.shadows (Points settings s) s := by
    refine ⟨fun x hx => ⟨x, hx, rfl⟩, fun _ hs => .inl hs, fun p hp => ?_⟩
    rw [idle] at hp
    cases hp
  have mapped : Records s.activation.link.device.shadows (Points settings s)
      (exec ((List.range s.arguments.size).forM (mapArgument settings)) s).2 := by
    refine mapArguments_kept (P := Records _ _) (fun h all => ?_) (fun h => h) start fun p hp => hp
    exact records_mapRegion h fun p hp q hq => ⟨p, all p hp, q, hq, rfl, rfl⟩
  refine exec_bind_ind (P := Records _ _) (fun e s₁ h₁ => ?_) fun _ s₁ h₁ => ?_
  · rwa [h₁] at mapped
  · rw [Returns] at h₁
    rw [h₁] at mapped
    refine Kept.bind mapped ?_ fun patched s₂ h₂ _ => ?_
    · exact lifts_transfer.along (R := Kept (Activation.Records _ _))
        (fun a h => h.flush settings.strategy) fun _ _ h => h
    · exact Along.ite (R := Kept (Records _ _)) (along_record.mono Step.records) Along.pure s₂ h₂

/-! ## What pointers hold -/

private theorem base_of_mem_placementsOf {host : HostMemory} {plans : List RegionPlan} {p : Placement}
    {q : MappedPointer} (same : s.host = host) (hp : p ∈ placementsOf settings padded plans s)
    (hq : p.pointer? = some q) : p.base = host.readPointer q.hostSlot := by
  induction plans generalizing s with
  | nil => cases hp
  | cons plan rest ih =>
      rw [placementsOf] at hp
      split at hp
      · exact ih same hp
      · rename_i region _
        rcases List.mem_append.1 hp with hp | hp
        · rw [Option.mem_toList, placement?] at hp
          split at hp
          · rcases placed : exec (place settings padded region) s with ⟨e | p', s'⟩
            · rw [placed] at hp
              cases hp
            · rw [placed] at hp
              cases hp
              obtain ⟨pointer?, s₁, mapped?, l, content, first, size, base, -, mapped, rfl, -, -, rfl⟩ :=
                returns_place.1 placed
              dsimp only at hq
              subst hq
              change s₁.host.readPointer q.hostSlot = _
              rw [← same, ((along_mapPointer.mono Step.entered).returns mapped).host]
          · cases hp
        · exact ih ((along_mapRegion s).host.trans same) hp

/-- Of a pointer that is mapped, its host value is taken. -/
theorem Points.value {slot value : Nat} (h : Points settings s slot value) :
    value = s.host.readPointer slot := by
  have all : ∀ (indices : List Nat) (r : RegionState), r.host = s.host →
      ∀ p ∈ placementsOn settings indices r, ∀ q, p.pointer? = some q →
        p.base = s.host.readPointer q.hostSlot := by
    intro indices
    induction indices with
    | nil => exact fun _ _ _ hp => nomatch hp
    | cons index rest ih =>
        intro r same p hp q hq
        rw [placementsOn] at hp
        rcases List.mem_append.1 hp with hp | hp
        · rw [placementsAt] at hp
          split at hp
          · split at hp
            · exact base_of_mem_placementsOf same hp hq
            · cases hp
          · cases hp
        · exact ih _ ((along_mapArgument r).host.trans same) p hp q hq
  obtain ⟨p, hp, q, hq, rfl, rfl⟩ := h
  exact all _ s rfl p hp q hq

/-! ## Entering that succeeds -/

/-- The patches of a region that is entered are recorded, and so is each pointer. -/
private theorem recorded_of_patches {shadows : List ShadowPointer} {t : ShadowTable} {slot : Nat}
    {value : Nat} (direct : settings.config.translatesOnDevice = false)
    (each : ∀ x ∈ shadows, ∃ y ∈ Parcel.patches ((placements settings s).flatMap
      (Placement.parcels settings)), x.hostSlot = y.hostSlot ∧ x.hostValue = y.hostValue)
    (all : ∀ y ∈ Parcel.patches ((placements settings s).flatMap (Placement.parcels settings)),
      ∃ x ∈ shadows, x.hostSlot = y.hostSlot)
    (h : Points settings s slot value) :
    ∃ x ∈ shadows.foldl AddressMap.insert t, x.hostSlot = slot ∧ x.hostValue = value := by
  obtain ⟨p, hp, q, hq, rfl, hv⟩ := h
  have patched := Placement.patch?_of_pointer? direct hq
  obtain ⟨x, hx, slot⟩ := all _ (Parcel.mem_patches.2 (List.mem_flatMap.2 ⟨p, hp, List.mem_append_right _
    (Option.mem_toList.2 (by rw [patched]; rfl))⟩))
  obtain ⟨x, hx, added, slot⟩ := exists_mem_foldl_insert (t := t) ⟨x, hx, slot⟩
  refine ⟨x, hx, slot, ?_⟩
  obtain ⟨y, hy, same, value⟩ := each x added
  obtain ⟨p', hp', sent⟩ := List.mem_flatMap.1 (Parcel.mem_patches.1 hy)
  obtain ⟨q', hq', rfl⟩ := Placement.patch?_eq_some (Placement.mem_parcels_patch sent)
  rw [value, Points.value ⟨p', hp', q', hq', same.symm.trans slot, rfl⟩, ← hv,
    Points.value ⟨p, hp, q, hq, rfl, rfl⟩]

private theorem exists_of_resolved {d : Device} {patches : List PendingPatch}
    {shadows : List ShadowPointer} (h : patches.mapM d.resolve? = some shadows) {p : PendingPatch}
    (hp : p ∈ patches) : ∃ x ∈ shadows, x.hostSlot = p.hostSlot := by
  induction patches generalizing shadows with
  | nil => cases hp
  | cons first rest ih =>
      rw [List.mapM_cons] at h
      obtain ⟨x, hx, h⟩ := Option.bind_eq_some_iff.1 h
      obtain ⟨more, hm, h⟩ := Option.bind_eq_some_iff.1 h
      cases h
      rcases List.mem_cons.1 hp with rfl | hp
      · exact ⟨x, List.mem_cons_self .., Device.hostSlot_of_resolve? hx⟩
      · obtain ⟨y, hy, same⟩ := ih hm hp
        exact ⟨y, List.mem_cons_of_mem x hy, same⟩

/-- A region that is entered records all its pointers. -/
theorem recorded_enter {slot value : Nat} (hs : s.activation.link.Sound)
    (idle : s.activation.queue = {}) (direct : settings.config.translatesOnDevice = false)
    (entered : Returns (enter settings) s u s') (h : Points settings s slot value) :
    ∃ x ∈ s'.activation.link.device.shadows, x.hostSlot = slot ∧ x.hostValue = value := by
  obtain ⟨s₁, n, mapped, flush⟩ := returns_enter entered
  have handled := (carried_mapArguments (carried_nil settings.strategy hs.accelerator idle) mapped).handled
  rw [List.nil_append] at handled
  cases hst : settings.strategy with
  | immediate =>
      rw [hst] at flush handled
      rw [(returns_pure.1 flush).2, handled.shadows]
      refine recorded_of_patches direct (fun x hx => ?_) (fun y hy => ?_) h
      · obtain ⟨y, hy, rfl⟩ := List.mem_map.1 hx
        exact ⟨y, hy, rfl, rfl⟩
      · exact ⟨y.shadow, List.mem_map_of_mem hy, rfl⟩
  | bulk =>
      rw [hst] at flush handled
      obtain ⟨_, l₁, -, sent⟩ := Strategy.returns_flush flush
      rcases Device.returns_sendPatches sent with ⟨none, after⟩ | ⟨shadows, _, l₃, found, -, after⟩
      · rw [after]
        rw [handled.patches, List.map_eq_nil_iff] at none
        have added : ∃ x ∈ ([] : List ShadowPointer).foldl AddressMap.insert l₁.device.shadows,
            x.hostSlot = slot ∧ x.hostValue = value := by
          refine recorded_of_patches direct (fun x hx => nomatch hx) (fun y hy => ?_) h
          rw [placements, none] at hy
          cases hy
        exact added
      · rw [after]
        rw [handled.patches] at found
        refine recorded_of_patches direct (fun x hx => ?_) (fun y hy => ?_) h
        · obtain ⟨pending, hp, hr⟩ := Device.mem_of_resolved found hx
          obtain ⟨y, hy, rfl⟩ := List.mem_map.1 hp
          exact ⟨y, hy, Device.hostSlot_of_resolve? hr, Device.hostValue_of_resolve? hr⟩
        · exact exists_of_resolved found (List.mem_map_of_mem hy)

end Region

end Offloading
