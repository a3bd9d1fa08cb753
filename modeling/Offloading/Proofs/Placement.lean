import Offloading.Proofs.Delivery
/-!
# Placements

Mapping a region is deciding where it goes and sending what has to go there. The decision, a
*placement*, does not depend on the strategy. The placements of all regions of an argument list are
what has to be known about a run to say what it leaves on the device.
-/

namespace Offloading

/-- Where a region was mapped, and what has to be sent for it. -/
structure Placement where
  /-- First byte of the section. -/
  first : Nat
  /-- Bytes in the section. -/
  size : Nat
  /-- Host value of the region's pointer, or the region's base if it has none. -/
  base : Nat
  /-- The region's pointer. -/
  pointer? : Option Region.MappedPointer
  /-- Device address of the section, if it is mapped. -/
  target? : Option Nat
  /-- The bytes that have to go there. -/
  content : List UInt8

namespace Placement

/-- The patch of the region's pointer, unless kernels translate host addresses themselves. -/
def patch? (settings : Settings) (p : Placement) : Option PointerPatch :=
  if settings.config.translatesOnDevice then none
  else p.pointer?.map fun q =>
    ⟨q.hostSlot, p.base, q.deviceSlot, p.first, Word.sub p.first p.base, p.target?⟩

/-- What is sent: the section, then the patch. -/
def parcels (settings : Settings) (p : Placement) : List Parcel :=
  (p.target?.map fun target => .copy ⟨target, p.content⟩).toList
    ++ ((p.patch? settings).map .patch).toList

end Placement

/-- The parcels of a placement were sent, and nothing else happened. -/
structure Shipped (settings : Settings) (p : Placement) (s s' : RegionState) : Prop where
  activation : Returns ((p.parcels settings).forM (Parcel.send settings.strategy)) s.activation ()
    s'.activation
  host : s'.host = s.host
  arguments : s'.arguments = s.arguments

namespace Region

open RegionM

/-- The bytes of a mapped section that have to go to the device. -/
def contentIn (region : Argument) (first size : Nat) : Option MappedSection → RegionM (List UInt8)
  | none => return []
  | some mapped => do
    if region.mapType.has .toDevice then
      if ← copiesIn region mapped.isNew then return ← readHost first size
    return []

/-- Maps a region and says what has to be sent. -/
def place (settings : Settings) (padded : Bool) (region : Argument) : RegionM Placement := do
  let t := region.mapType
  let (first, size) := mappedSection settings padded region
  let pointer? ← mapPointer region
  let base := objectBase (← get).host region pointer?
  let updateRef := pointer?.isSome || !t.isMember
  let mapped? ← onDevice (Device.map first base size (t.has .implicit) updateRef)
  let content ← contentIn region first size mapped?
  return ⟨first, size, base, pointer?, mapped?.map (·.addr), content⟩

/-- The placement of a region, if it is mapped. -/
def placement? (settings : Settings) (padded : Bool) (region : Argument) (s : RegionState) :
    Option Placement :=
  if region.isMapped then (exec (place settings padded region) s).1.toOption else none

/-- The placements of the regions of an argument. -/
def placementsOf (settings : Settings) (padded : Bool) :
    List RegionPlan → RegionState → List Placement
  | [], _ => []
  | plan :: rest, s =>
    match plan.resolve s.host with
    | none => placementsOf settings padded rest s
    | some region =>
      (placement? settings padded region s).toList
        ++ placementsOf settings padded rest (exec (mapRegion settings padded region) s).2

/-- The placements of the argument at a position. -/
def placementsAt (settings : Settings) (index : Nat) (s : RegionState) : List Placement :=
  match s.arguments.get index, s.arguments.plans index with
  | .ok a, .ok plans =>
    if a.isMapped then placementsOf settings (isPadded s.arguments index a) plans s else []
  | _, _ => []

/-- The placements of the arguments at the given positions, which are mapped one after the other. -/
def placementsOn (settings : Settings) : List Nat → RegionState → List Placement
  | [], _ => []
  | index :: rest, s =>
    placementsAt settings index s
      ++ placementsOn settings rest (exec (mapArgument settings index) s).2

/-- The placements of all arguments. -/
def placements (settings : Settings) (s : RegionState) : List Placement :=
  placementsOn settings (List.range s.arguments.size) s

variable {settings : Settings} {padded : Bool} {region : Argument} {s s₁ s' : RegionState} {u : Unit}
  {first size : Nat} {mapped? : Option MappedSection}

/-! ## Deciding what is sent -/

private theorem reads_parentIsSoleOwner : Along Eq (parentIsSoleOwner region) := by
  unfold parentIsSoleOwner
  split
  · exact Along.pure
  · refine Along.bind (Along.get.bind fun s => ?_) fun parent => Along.get.bind fun s => ?_
    · split
      · exact Along.pure
      · exact Along.throw
    · split
      · exact Along.pure
      · exact Along.pure

theorem reads_copiesIn {isNew : Bool} : Along Eq (copiesIn region isNew) :=
  Along.ite Along.pure (Along.ite reads_parentIsSoleOwner Along.pure)

/-- What goes to the device is nothing or the section. -/
theorem returns_contentIn {content : List UInt8}
    (h : Returns (contentIn region first size mapped?) s content s') :
    s' = s ∧ (content = [] ∨ (mapped?.isSome ∧ content = s.host.read first size)) := by
  cases mapped? with
  | none =>
      obtain ⟨rfl, rfl⟩ := returns_pure.1 h
      exact ⟨rfl, .inl rfl⟩
  | some mapped =>
      rw [contentIn] at h
      cases inbound : region.mapType.has .toDevice with
      | false =>
          rw [inbound] at h
          obtain ⟨rfl, rfl⟩ := returns_pure.1 h
          exact ⟨rfl, .inl rfl⟩
      | true =>
          rw [inbound, if_pos rfl] at h
          obtain ⟨copies, s₁, hc, h⟩ := returns_bind.1 h
          have same := reads_copiesIn.returns hc
          subst same
          cases copies with
          | false =>
              obtain ⟨rfl, rfl⟩ := returns_pure.1 h
              exact ⟨rfl, .inl rfl⟩
          | true =>
              obtain ⟨rfl, rfl⟩ := returns_pure.1 h
              exact ⟨rfl, .inr ⟨rfl, rfl⟩⟩

/-- Sending no bytes does nothing. -/
theorem returns_submit_nil {strategy : Strategy} {target : Nat} {a : Activation} :
    Returns (strategy.submit target []) a () a := by
  cases strategy with
  | immediate => rfl
  | bulk => rfl

private theorem returns_sendOne {strategy : Strategy} {x : Parcel} {a a' : Activation}
    (h : Returns (x.send strategy) a () a') :
    Returns ([x].forM (Parcel.send strategy)) a () a' :=
  returns_forM_cons.2 ⟨a', h, rfl⟩

/-- Copying a section in is deciding what goes to the device and sending it. -/
theorem returns_copyIn (h : Returns (copyIn settings region first size mapped?) s u s') :
    ∃ content, Returns (contentIn region first size mapped?) s content s ∧
      Returns ((mapped?.map fun m => Parcel.copy ⟨m.addr, content⟩).toList.forM
        (Parcel.send settings.strategy)) s.activation () s'.activation := by
  cases mapped? with
  | none =>
      obtain ⟨-, rfl⟩ := returns_pure.1 h
      exact ⟨[], rfl, rfl⟩
  | some mapped =>
      rw [copyIn] at h
      rw [contentIn]
      cases inbound : region.mapType.has .toDevice with
      | false =>
          rw [inbound] at h
          obtain ⟨-, rfl⟩ := returns_pure.1 h
          exact ⟨[], rfl, returns_sendOne returns_submit_nil⟩
      | true =>
          rw [inbound, if_pos rfl] at h
          rw [if_pos rfl]
          obtain ⟨copies, s₁, hc, h⟩ := returns_bind.1 h
          have same := reads_copiesIn.returns hc
          subst same
          cases copies with
          | false =>
              obtain ⟨-, rfl⟩ := returns_pure.1 h
              exact ⟨[], returns_bind.2 ⟨false, s', hc, rfl⟩, returns_sendOne returns_submit_nil⟩
          | true =>
              obtain ⟨content, s₂, read, sent⟩ := returns_bind.1 h
              obtain ⟨rfl, rfl⟩ := returns_pure.1 read
              obtain ⟨a, submitted, rfl⟩ := lifts_transfer.returns.1 sent
              refine ⟨_, returns_bind.2 ⟨true, s₂, hc, rfl⟩, ?_⟩
              exact returns_sendOne (x := .copy ⟨mapped.addr, s₂.host.read first size⟩) submitted

theorem activation_record {p : Phase} (h : Returns (record settings p) s u s') :
    s'.activation = s.activation := by
  rw [record] at h
  split at h
  · rw [returns_modify.1 h]
  · rw [(returns_pure.1 h).2]

/-- Entering maps the arguments and flushes. -/
theorem returns_enter (h : Returns (enter settings) s u s') :
    ∃ s₁ n, Returns ((List.range s.arguments.size).forM (mapArgument settings)) s () s₁ ∧
      Returns settings.strategy.flush s₁.activation n s'.activation := by
  rw [enter, returns_get_bind, returns_bind] at h
  obtain ⟨_, s₁, mapped, flushed⟩ := h
  obtain ⟨n, s₂, sent, counted⟩ := returns_bind.1 flushed
  obtain ⟨a, flush, rfl⟩ := lifts_transfer.returns.1 sent
  have same : s'.activation = a := by
    split at counted
    · exact activation_record counted
    · rw [(returns_pure.1 counted).2]
  exact ⟨s₁, n, mapped, same ▸ flush⟩

/-- Patching a pointer is sending the patch. -/
theorem returns_patchPointer {base : Nat} {target? : Option Nat} {pointer? : Option MappedPointer}
    (size : Nat) (content : List UInt8)
    (h : Returns (patchPointer settings first base target? pointer?) s u s') :
    Returns (((Placement.patch? settings ⟨first, size, base, pointer?, target?, content⟩).map
      Parcel.patch).toList.forM (Parcel.send settings.strategy)) s.activation () s'.activation := by
  rw [Placement.patch?]
  cases pointer? with
  | none =>
      obtain ⟨-, rfl⟩ := returns_pure.1 h
      cases settings.config.translatesOnDevice with
      | true => rfl
      | false => rfl
  | some pointer =>
      rw [patchPointer] at h
      cases translates : settings.config.translatesOnDevice with
      | true =>
          rw [translates] at h
          obtain ⟨-, rfl⟩ := returns_pure.1 h
          rfl
      | false =>
          rw [translates, if_neg Bool.false_ne_true] at h
          obtain ⟨_, s₁, sent, recorded⟩ := returns_bind.1 h
          obtain ⟨a, patched, rfl⟩ := lifts_transfer.returns.1 sent
          rw [activation_record recorded]
          exact returns_sendOne
            (x := .patch ⟨pointer.hostSlot, base, pointer.deviceSlot, first, Word.sub first base, target?⟩)
            patched

/-! ## Mapping is placing and shipping -/

theorem returns_place {p : Placement} :
    Returns (place settings padded region) s p s' ↔
      ∃ pointer? s₁ mapped? l content, ∃ first size base : Nat,
        mappedSection settings padded region = (first, size) ∧
        Returns (mapPointer region) s pointer? s₁ ∧ base = objectBase s₁.host region pointer? ∧
        Returns (Device.map first base size (region.mapType.has .implicit)
          (pointer?.isSome || !region.mapType.isMember)) s₁.activation.link mapped? l ∧
        Returns (contentIn region first size mapped?) (s₁.withLink l) content s' ∧
        p = ⟨first, size, base, pointer?, mapped?.map (·.addr), content⟩ := by
  unfold place
  dsimp only
  constructor
  · intro h
    obtain ⟨pointer?, s₁, hp, h⟩ := returns_bind.1 h
    rw [returns_get_bind] at h
    obtain ⟨mapped?, s₂, hs, h⟩ := returns_bind.1 h
    obtain ⟨l, mapped, rfl⟩ := lifts_onDevice.returns.1 hs
    obtain ⟨content, s₃, decided, h⟩ := returns_bind.1 h
    obtain ⟨rfl, rfl⟩ := returns_pure.1 h
    exact ⟨pointer?, s₁, mapped?, l, content, _, _, _, rfl, hp, rfl, mapped, decided, rfl⟩
  · rintro ⟨pointer?, s₁, mapped?, l, content, first, size, base, sec, hp, rfl, mapped, decided, rfl⟩
    rw [sec]
    refine returns_bind.2 ⟨pointer?, s₁, hp, returns_get_bind.2 (returns_bind.2 ⟨mapped?, s₁.withLink l,
      lifts_onDevice.returns.2 ⟨l, mapped, rfl⟩, returns_bind.2 ⟨content, s', decided, rfl⟩⟩)⟩

theorem returns_mapRegion_place {r : Option Nat}
    (h : Returns (mapRegion settings padded region) s r s') (hm : region.isMapped = true) :
    ∃ p s₁, Returns (place settings padded region) s p s₁ ∧ Shipped settings p s₁ s' ∧
      r = if region.mapType.has .returnParam
        then some (deviceBase p.first p.base p.target?) else none := by
  obtain ⟨pointer?, s₁, mapped?, l, s₂, first, size, base, sec, hp, hb, mapped, copied, patched, hr⟩ :=
    returns_mapRegion h hm
  obtain ⟨content, decided, sent⟩ := returns_copyIn copied
  have copy := along_copyIn.returns copied
  have patch := along_patchPointer.returns patched
  have sent' := returns_patchPointer size content patched
  refine ⟨_, _, returns_place.2
    ⟨pointer?, s₁, mapped?, l, content, first, size, base, sec, hp, hb, mapped, decided, rfl⟩,
    ⟨?_, patch.host.trans copy.host, patch.arguments.trans copy.arguments⟩, hr⟩
  rw [Placement.parcels, Option.map_map, returns_forM_append]
  exact ⟨s₂.activation, sent, sent'⟩

/-! ## Invariants of a run -/

section run

variable {P : List Placement → RegionState → Prop} {ok : Argument → Prop} {ps : List Placement}
  (step : ∀ ps {padded region p s s₁ s'}, ok region → region.isMapped = true → P ps s →
    Returns (place settings padded region) s p s₁ → Shipped settings p s₁ s' → P (ps ++ [p]) s')

include step

theorem mapRegion_induct {r : Option Nat} (h : P ps s) (allowed : ok region)
    (mapped : Returns (mapRegion settings padded region) s r s') :
    P (ps ++ (placement? settings padded region s).toList) s' := by
  rw [placement?]
  cases hm : region.isMapped with
  | false =>
      rw [mapRegion, hm] at mapped
      obtain ⟨-, rfl⟩ := returns_pure.1 mapped
      rw [if_neg Bool.false_ne_true]
      exact (List.append_nil ps).symm ▸ h
  | true =>
      obtain ⟨p, s₁, placed, shipped, -⟩ := returns_mapRegion_place mapped hm
      rw [if_pos rfl, placed]
      exact step ps allowed hm h placed shipped

theorem mapPlans_induct {plans : List RegionPlan} {returned base? : Option Nat} (h : P ps s)
    (allowed : ∀ plan ∈ plans, ∀ host region, plan.resolve host = some region → ok region)
    (mapped : Returns (mapPlans settings padded plans returned) s base? s') :
    P (ps ++ placementsOf settings padded plans s) s' := by
  induction plans generalizing ps s returned with
  | nil =>
      obtain ⟨-, rfl⟩ := returns_pure.1 mapped
      exact (List.append_nil ps).symm ▸ h
  | cons plan rest ih =>
      obtain ⟨here, others⟩ := List.forall_mem_cons.1 allowed
      rw [mapPlans, returns_get_bind] at mapped
      rw [placementsOf]
      cases hp : plan.resolve s.host with
      | none =>
          rw [hp] at mapped
          exact ih h others mapped
      | some region =>
          rw [hp] at mapped
          obtain ⟨base, s₁, first, later⟩ := returns_bind.1 mapped
          have after : (exec (mapRegion settings padded region) s).2 = s₁ := congrArg Prod.snd first
          dsimp only
          rw [after, ← List.append_assoc]
          exact ih (mapRegion_induct step h (here s.host region hp) first) others later

variable (rebase : ∀ {ps s l}, P ps s → s.arguments.SameFrames l → P ps { s with arguments := l })
  (allowed : ∀ {ps s index plans}, P ps s → s.arguments.plans index = .ok plans →
    ∀ plan ∈ plans, ∀ host region, plan.resolve host = some region → ok region)

include rebase allowed

theorem mapArgument_induct {index : Nat} (h : P ps s)
    (mapped : Returns (mapArgument settings index) s u s') :
    P (ps ++ placementsAt settings index s) s' := by
  unfold mapArgument at mapped
  obtain ⟨a, s₁, hg, rest⟩ := returns_bind.1 mapped
  obtain ⟨got, rfl⟩ := returns_arguments.1 hg
  rw [placementsAt, got]
  cases hm : a.isMapped with
  | false =>
      rw [hm] at rest
      obtain ⟨-, rfl⟩ := returns_pure.1 rest
      cases s'.arguments.plans index with
      | error e => exact (List.append_nil ps).symm ▸ h
      | ok plans =>
          dsimp only
          rw [hm, if_neg Bool.false_ne_true]
          exact (List.append_nil ps).symm ▸ h
  | true =>
      rw [hm, Bool.not_true, if_neg Bool.false_ne_true, returns_get_bind] at rest
      obtain ⟨plans, s₂, hp, regions⟩ := returns_bind.1 rest
      obtain ⟨found, rfl⟩ := returns_arguments.1 hp
      rw [found]
      dsimp only
      rw [hm, if_pos rfl]
      obtain ⟨base?, s₃, hb, written⟩ := returns_bind.1 regions
      have all := mapPlans_induct step h (allowed h found) hb
      cases base? with
      | none =>
          obtain ⟨-, rfl⟩ := returns_pure.1 written
          exact all
      | some base =>
          obtain ⟨l, s₄, hl, hset⟩ := returns_bind.1 written
          obtain ⟨changed, rfl⟩ := returns_arguments.1 hl
          have := returns_modify.1 hset
          subst this
          exact rebase all (ArgumentList.setBase_sameFrames changed)

private theorem mapArguments_more {indices : List Nat} (h : P ps s)
    (mapped : Returns (indices.forM (mapArgument settings)) s u s') :
    P (ps ++ placementsOn settings indices s) s' := by
  induction indices generalizing ps s with
  | nil =>
      obtain ⟨-, rfl⟩ := returns_pure.1 mapped
      exact (List.append_nil ps).symm ▸ h
  | cons index rest ih =>
      obtain ⟨s₁, first, others⟩ := returns_forM_cons.1 mapped
      have after : (exec (mapArgument settings index) s).2 = s₁ := congrArg Prod.snd first
      rw [placementsOn, after, ← List.append_assoc]
      exact ih (mapArgument_induct step rebase allowed h first) others

/-- What mapping one region of a kind keeps is kept by mapping arguments that stand for regions of this
kind. -/
theorem mapArguments_induct_of {indices : List Nat} (h : P [] s)
    (mapped : Returns (indices.forM (mapArgument settings)) s u s') :
    P (placementsOn settings indices s) s' :=
  mapArguments_more step rebase allowed h mapped

end run

/-- What mapping one region keeps is kept by mapping arguments. -/
theorem mapArguments_induct {P : List Placement → RegionState → Prop}
    (step : ∀ ps {padded region p s s₁ s'}, P ps s → Returns (place settings padded region) s p s₁ →
      Shipped settings p s₁ s' → P (ps ++ [p]) s')
    (rebase : ∀ {ps s l}, P ps s → P ps { s with arguments := l }) {indices : List Nat} (h : P [] s)
    (mapped : Returns (indices.forM (mapArgument settings)) s u s') :
    P (placementsOn settings indices s) s' := by
  have any : ∀ ps {padded region p s s₁ s'}, True → region.isMapped = true → P ps s →
      Returns (place settings padded region) s p s₁ → Shipped settings p s₁ s' → P (ps ++ [p]) s' :=
    fun ps _ _ _ _ _ _ _ _ => step ps
  exact mapArguments_induct_of any (fun h _ => rebase h) (fun _ _ _ _ _ _ _ => trivial) h mapped

end Region

end Offloading
