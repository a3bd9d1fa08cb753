import Offloading.Proofs.Region
/-!
# Entering a region

What mapping the arguments of a region leaves alone, whether it succeeds or not: no mapping goes away
or moves, host memory is only read, and of the arguments only bases change.
-/

namespace Offloading

/-- All of an argument but its base. -/
def Argument.frame (a : Argument) : Nat × Nat × MapType := (a.start, a.size, a.mapType)

namespace ArgumentList

variable {l l' l'' : ArgumentList} {index base : Nat} {a : Argument}

/-- The lists differ at most in bases. -/
structure SameFrames (l l' : ArgumentList) : Prop where
  descriptors : l'.descriptors = l.descriptors
  arguments : l'.arguments.map Argument.frame = l.arguments.map Argument.frame

theorem SameFrames.refl (l : ArgumentList) : l.SameFrames l := ⟨rfl, rfl⟩

theorem SameFrames.trans (h : l.SameFrames l') (h' : l'.SameFrames l'') : l.SameFrames l'' :=
  ⟨h'.descriptors.trans h.descriptors, h'.arguments.trans h.arguments⟩

theorem get_eq_ok : l.get index = .ok a ↔ l.arguments[index]? = some a := by
  unfold get
  cases l.arguments[index]? with
  | none => exact ⟨(nomatch ·), (nomatch ·)⟩
  | some b => rw [Except.ok.injEq, Option.some.injEq]

theorem SameFrames.size (h : l.SameFrames l') : l'.size = l.size := by
  have := congrArg List.length h.arguments
  rwa [List.length_map, List.length_map] at this

theorem SameFrames.map (h : l.SameFrames l') (index : Nat) :
    l'.arguments[index]?.map Argument.frame = l.arguments[index]?.map Argument.frame := by
  rw [← List.getElem?_map, ← List.getElem?_map, h.arguments]

theorem setBase_eq_ok (h : l.setBase index base = .ok l') :
    ∃ a, l.arguments[index]? = some a ∧
      l' = { l with arguments := l.arguments.set index { a with base } } := by
  unfold setBase at h
  split at h
  · rename_i a found
    cases h
    exact ⟨a, found, rfl⟩
  · cases h

theorem setBase_sameFrames (h : l.setBase index base = .ok l') : l.SameFrames l' := by
  obtain ⟨a, found, rfl⟩ := setBase_eq_ok h
  obtain ⟨lt, rfl⟩ := List.getElem?_eq_some_iff.1 found
  refine ⟨rfl, ?_⟩
  apply List.ext_getElem? fun i => ?_
  rw [List.getElem?_map, List.getElem?_map]
  by_cases hi : index = i
  · subst hi
    simp [lt, Argument.frame]
  · rw [List.getElem?_set_ne hi]

/-- Which descriptor an argument uses depends on the flags of the arguments only. -/
theorem descriptorIndex_of_frames
    (h : l'.arguments.map Argument.frame = l.arguments.map Argument.frame) :
    l'.descriptorIndex index = l.descriptorIndex index := by
  have nested : ∀ arguments : List Argument,
      (arguments.countP fun a => a.mapType.has .nested) =
        (arguments.map Argument.frame).countP fun f => f.2.2.has .nested := by
    intro arguments
    rw [List.countP_map]
    rfl
  rw [descriptorIndex, descriptorIndex, nested, nested, List.map_take, List.map_take, h]

theorem descriptorIndex_congr (h : l.SameFrames l') :
    l'.descriptorIndex index = l.descriptorIndex index := descriptorIndex_of_frames h.arguments

/-- The regions of an argument do not depend on the bases of other arguments. -/
theorem plans_congr (h : l.SameFrames l')
    (here : l'.arguments[index]? = l.arguments[index]?) : l'.plans index = l.plans index := by
  have get : l'.get index = l.get index := by
    cases hg : l.arguments[index]? with
    | some a => rw [get_eq_ok.2 hg, get_eq_ok.2 (here.trans hg)]
    | none => rw [ArgumentList.get, ArgumentList.get, here, hg, h.size]
  rw [plans, plans, get, h.descriptors, descriptorIndex_congr h]

/-- A nested argument stands for what its descriptor makes of it. -/
theorem plans_of_nested (ha : l.arguments[index]? = some a) (nested : a.mapType.has .nested = true) :
    l.plans index =
      match l.descriptors[l.descriptorIndex index]? with
      | none => .error (.missingDescriptor index)
      | some d => ((d.expand a).map (List.map .unnested)).mapError (.descriptor index) := by
  rw [plans, get_eq_ok.2 ha]
  simp only [bind, Except.bind, nested, if_true]
  cases l.descriptors[l.descriptorIndex index]? with
  | none => rfl
  | some d =>
      dsimp only
      cases d.expand a with
      | error _ => rfl
      | ok _ => rfl

/-- What is made of the plans of a nested argument is made of what its descriptor lists. -/
theorem map_plans_of_nested {β : Type _} (make : List RegionPlan → β)
    (ha : l.arguments[index]? = some a) (nested : a.mapType.has .nested = true) :
    (l.plans index).map make =
      match l.descriptors[l.descriptorIndex index]? with
      | none => .error (.missingDescriptor index)
      | some d => ((d.expand a).map fun plans => make (plans.map .unnested)).mapError (.descriptor index) := by
  rw [plans_of_nested ha nested]
  cases l.descriptors[l.descriptorIndex index]? with
  | none => rfl
  | some d =>
      dsimp only
      cases d.expand a with
      | error _ => rfl
      | ok _ => rfl

theorem headsStruct_congr (h : l.SameFrames l') : l'.headsStruct index = l.headsStruct index := by
  have view : ∀ (k : ArgumentList) (i : Nat),
      k.arguments[i]?.map Argument.frame = (k.arguments.map Argument.frame)[i]? := by
    intro k i
    rw [List.getElem?_map]
  have frames : ∀ k : ArgumentList, k.headsStruct index =
      match (k.arguments.map Argument.frame)[index]? with
      | none => false
      | some f =>
        !f.2.2.isMember
          && ((k.arguments.map Argument.frame)[index + 1]?.bind fun next => next.2.2.memberOf?)
            == some index := by
    intro k
    rw [headsStruct, ← view, ← view]
    cases k.arguments[index]? with
    | none => rfl
    | some a =>
        cases k.arguments[index + 1]? with
        | none => rfl
        | some b => rfl
  rw [frames, frames, h.arguments]

end ArgumentList

/-- The state with another link. -/
def RegionState.withLink (s : RegionState) (l : Link) : RegionState :=
  { s with activation := { s.activation with link := l } }

/-- What sending bytes and patches, or queueing them, does to the state. -/
structure Sent (s s' : RegionState) : Prop where
  link : s.activation.link.Still s'.activation.link
  host : s'.host = s.host
  arguments : s'.arguments = s.arguments

instance : Lasting Sent where
  refl _ := ⟨Lasting.refl _, rfl, rfl⟩
  trans h h' := ⟨Lasting.trans h.link h'.link, h'.host.trans h.host,
    h'.arguments.trans h.arguments⟩

/-- What mapping a region does to the state. -/
structure Entered (s s' : RegionState) : Prop where
  link : s.activation.link.Grown s'.activation.link
  host : s'.host = s.host
  arguments : s'.arguments = s.arguments

instance : Lasting Entered where
  refl _ := ⟨Lasting.refl _, rfl, rfl⟩
  trans h h' := ⟨Lasting.trans h.link h'.link, h'.host.trans h.host,
    h'.arguments.trans h.arguments⟩

/-- What mapping the argument at a position does to the state. -/
structure EnteredAt (index : Nat) (s s' : RegionState) : Prop where
  link : s.activation.link.Grown s'.activation.link
  host : s'.host = s.host
  arguments : s.arguments.SameFrames s'.arguments
  others : ∀ i ≠ index, s'.arguments.arguments[i]? = s.arguments.arguments[i]?

instance {index : Nat} : Lasting (EnteredAt index) where
  refl _ := ⟨Lasting.refl _, rfl, .refl _, fun _ _ => rfl⟩
  trans h h' := ⟨Lasting.trans h.link h'.link, h'.host.trans h.host,
    h.arguments.trans h'.arguments, fun i hi => (h'.others i hi).trans (h.others i hi)⟩

theorem Sent.entered {s s' : RegionState} (h : Sent s s') : Entered s s' :=
  ⟨h.link.grown, h.host, h.arguments⟩

theorem Entered.at {s s' : RegionState} (h : Entered s s') (index : Nat) :
    EnteredAt index s s' := by
  refine ⟨h.link, h.host, ?_, fun i _ => ?_⟩
  · rw [h.arguments]
    exact .refl _
  · rw [h.arguments]

namespace TransferM

theorem along_onDevice {α : Type} {R : Link → Link → Prop} {x : DeviceM α} (hx : Along R x) :
    Along (fun a a' => R a.link a'.link) (onDevice x) :=
  lifts_onDevice.along hx fun _ _ h => h

end TransferM

namespace Strategy

variable {R : Link → Link → Prop} [Lasting R]

instance : Lasting fun a a' : Activation => R a.link a'.link where
  refl _ := Lasting.refl _
  trans h h' := Lasting.trans h h'

theorem along_submit {target : Nat} {content : List UInt8} (strategy : Strategy) :
    Along (fun a a' => a.link.Transferred a'.link) (strategy.submit target content) := by
  cases strategy with
  | immediate => exact TransferM.along_onDevice Device.along_submit
  | bulk => exact Along.modify fun _ => Lasting.refl _

theorem along_patch {p : PointerPatch} (strategy : Strategy) :
    Along (fun a a' => a.link.Still a'.link) (strategy.patch p) := by
  cases strategy with
  | immediate => exact TransferM.along_onDevice Device.along_patch
  | bulk => exact Along.modify fun _ => Lasting.refl _

theorem along_flush (strategy : Strategy) :
    Along (fun a a' => a.link.Still a'.link) strategy.flush := by
  cases strategy with
  | immediate => exact Along.pure
  | bulk =>
      refine Along.bind ?_ fun _ => ?_
      · refine Along.get.bind fun s => Along.bind (Along.modify fun _ => Lasting.refl _) fun _ => ?_
        exact TransferM.along_onDevice (Device.along_sendCopies.mono Link.Transferred.still)
      · refine Along.get.bind fun s => Along.bind (Along.modify fun _ => Lasting.refl _) fun _ => ?_
        exact TransferM.along_onDevice Device.along_sendPatches

end Strategy

namespace Region

open RegionM

variable {settings : Settings} {padded : Bool} {region : Argument}

/-! ## Steps that succeed -/

section Returns

variable {s s' : RegionState} {u : Unit}

theorem returns_mapPointer {pointer? : Option MappedPointer}
    (h : Returns (mapPointer region) s pointer? s') :
    (region.mapType.has .pointerAndObject = false ∧ pointer? = none ∧ s' = s) ∨
    (region.mapType.has .pointerAndObject = true ∧
      ∃ mapped l,
        Returns (Device.map region.base region.base Word.bytes (region.mapType.has .implicit)
          (!region.mapType.isMember)) s.activation.link (some mapped) l ∧
        pointer? = some ⟨region.base, mapped.addr⟩ ∧ s' = s.withLink l) := by
  rw [mapPointer] at h
  dsimp only at h
  cases hp : region.mapType.has .pointerAndObject with
  | false =>
      rw [hp] at h
      obtain ⟨rfl, rfl⟩ := returns_pure.1 h
      exact .inl ⟨rfl, rfl, rfl⟩
  | true =>
      rw [hp, if_pos rfl, returns_bind] at h
      obtain ⟨mapped?, s₁, hm, h⟩ := h
      cases mapped? with
      | none => exact absurd h not_returns_unmapped
      | some mapped =>
          obtain ⟨rfl, rfl⟩ := returns_pure.1 h
          obtain ⟨l, ran, rfl⟩ := lifts_onDevice.returns.1 hm
          exact .inr ⟨rfl, mapped, l, ran, rfl, rfl⟩

/-- A region is mapped in four steps: its pointer, its section, the copy and the patch. -/
theorem returns_mapRegion {r : Option Nat} (h : Returns (mapRegion settings padded region) s r s')
    (hm : region.isMapped = true) :
    ∃ pointer? s₁ mapped? l s₂, ∃ first size base : Nat,
      mappedSection settings padded region = (first, size) ∧
      Returns (mapPointer region) s pointer? s₁ ∧ base = objectBase s₁.host region pointer? ∧
      Returns (Device.map first base size (region.mapType.has .implicit)
        (pointer?.isSome || !region.mapType.isMember)) s₁.activation.link mapped? l ∧
      Returns (copyIn settings region first size mapped?) (s₁.withLink l) () s₂ ∧
      Returns (patchPointer settings first base (mapped?.map (·.addr)) pointer?) s₂ () s' ∧
      r = if region.mapType.has .returnParam
        then some (deviceBase first base (mapped?.map (·.addr))) else none := by
  unfold mapRegion at h
  rw [hm] at h
  obtain ⟨pointer?, s₁, hp, h⟩ := returns_bind.1 h
  rw [returns_get_bind] at h
  obtain ⟨mapped?, s₂, hs, h⟩ := returns_bind.1 h
  obtain ⟨l, mapped, rfl⟩ := lifts_onDevice.returns.1 hs
  obtain ⟨_, s₃, hc, h⟩ := returns_bind.1 h
  obtain ⟨_, s₄, hq, h⟩ := returns_bind.1 h
  obtain ⟨rfl, rfl⟩ := returns_pure.1 h
  exact ⟨pointer?, s₁, mapped?, l, s₃, _, _, _, rfl, hp, rfl, mapped, hc, hq, rfl⟩

/-- An argument that is not nested stands for itself. -/
theorem plans_of_get {l : ArgumentList} {index : Nat} {a : Argument}
    (ha : l.arguments[index]? = some a) (plain : a.mapType.has .nested = false) :
    l.plans index = .ok [.known a] := by
  rw [ArgumentList.plans, ArgumentList.get_eq_ok.2 ha]
  simp only [bind, Except.bind, plain]
  rfl

/-- An argument that is not nested is mapped as one region, and its base may be written back. -/
theorem returns_mapArgument {index : Nat} {a : Argument}
    (h : Returns (mapArgument settings index) s u s') (ha : s.arguments.arguments[index]? = some a)
    (plain : a.mapType.has .nested = false) :
    (a.isMapped = false ∧ s' = s) ∨
    (a.isMapped = true ∧ ∃ base? s₁ l,
      Returns (mapRegion settings (isPadded s.arguments index a) a) s base? s₁ ∧
      s' = { s₁ with arguments := l } ∧ (base? = none → l = s₁.arguments) ∧
      ∀ base, base? = some base → s₁.arguments.setBase index base = .ok l) := by
  unfold mapArgument at h
  obtain ⟨a', s₁, hg, h⟩ := returns_bind.1 h
  obtain ⟨got, rfl⟩ := returns_arguments.1 hg
  rw [ArgumentList.get_eq_ok, ha, Option.some.injEq] at got
  subst got
  cases hm : a.isMapped with
  | false =>
      rw [hm] at h
      exact .inl ⟨rfl, (returns_pure.1 h).2⟩
  | true =>
      rw [hm] at h
      refine .inr ⟨rfl, ?_⟩
      rw [Bool.not_true, if_neg Bool.false_ne_true, returns_get_bind] at h
      obtain ⟨plans, s₂, hp, h⟩ := returns_bind.1 h
      obtain ⟨found, rfl⟩ := returns_arguments.1 hp
      rw [plans_of_get ha plain, Except.ok.injEq] at found
      subst found
      obtain ⟨base?, s₃, hb, h⟩ := returns_bind.1 h
      rw [mapPlans, returns_get_bind] at hb
      obtain ⟨base?', s₄, hr, hb⟩ := returns_bind.1 hb
      obtain ⟨rfl, rfl⟩ := returns_pure.1 hb
      rw [Option.or_none] at h
      cases base?' with
      | none =>
          obtain ⟨-, rfl⟩ := returns_pure.1 h
          exact ⟨none, s', s'.arguments, hr, rfl, fun _ => rfl, fun _ none => (nomatch none)⟩
      | some base =>
          obtain ⟨l, s₅, hl, hset⟩ := returns_bind.1 h
          obtain ⟨written, rfl⟩ := returns_arguments.1 hl
          have := returns_modify.1 hset
          subst this
          refine ⟨some base, s₅, l, hr, rfl, fun none => (nomatch none), ?_⟩
          rintro _ ⟨⟩
          exact written

end Returns

/-! ## What the steps keep -/

theorem Step.entered {s s' : RegionState} (h : Step Link.Extended Eq s s') : Entered s s' :=
  ⟨h.link.toGrown, h.host.symm, h.arguments⟩

theorem Step.sent {s s' : RegionState} (h : Step Link.Still Eq s s') : Sent s s' :=
  ⟨h.link, h.host.symm, h.arguments⟩

theorem along_sent_transfer {α : Type} {x : TransferM α}
    (hx : Along (fun a a' => a.link.Still a'.link) x) : Along Sent (transfer x) :=
  lifts_transfer.along hx fun _ _ h => ⟨h, rfl, rfl⟩

theorem along_mapPointer : Along (Step Link.Extended Eq) (mapPointer region) := by
  refine Along.ite ((along_onDevice Device.along_map).bind fun mapped => ?_) Along.pure
  split
  · exact Along.pure
  · exact along_unmapped

theorem along_copiesIn {R : Link → Link → Prop} [Lasting R] {isNew : Bool} :
    Along (Step R Eq) (copiesIn region isNew) :=
  Along.ite Along.pure (Along.ite along_parentIsSoleOwner Along.pure)

theorem along_copyIn {first size : Nat} {mapped? : Option MappedSection} :
    Along Sent (copyIn settings region first size mapped?) := by
  unfold copyIn
  split
  · exact Along.pure
  · refine Along.ite ((along_copiesIn.mono Step.sent).bind fun copies => ?_) Along.pure
    refine Along.ite (Along.bind ?_ fun content => ?_) Along.pure
    · exact along_readHost.mono Step.sent
    · exact along_sent_transfer ((Strategy.along_submit settings.strategy).mono fun h => h.still)

theorem along_patchPointer {first base : Nat} {target? : Option Nat}
    {pointer? : Option MappedPointer} :
    Along Sent (patchPointer settings first base target? pointer?) := by
  unfold patchPointer
  split
  · exact Along.pure
  · refine Along.ite Along.pure (Along.bind ?_ fun _ => along_record.mono Step.sent)
    exact along_sent_transfer (Strategy.along_patch settings.strategy)

theorem along_mapRegion : Along Entered (mapRegion settings padded region) := by
  refine Along.ite Along.pure ?_
  refine (along_mapPointer.mono Step.entered).bind fun pointer? => Along.get.bind fun s => ?_
  refine Along.bind ((along_onDevice Device.along_map).mono Step.entered) fun mapped? => ?_
  refine (along_copyIn.mono Sent.entered).bind fun _ => ?_
  exact (along_patchPointer.mono Sent.entered).bind fun _ => Along.pure

theorem along_mapPlans (plans : List RegionPlan) (returned : Option Nat) :
    Along Entered (mapPlans settings padded plans returned) := by
  induction plans generalizing returned with
  | nil => exact Along.pure
  | cons plan rest ih =>
      rw [mapPlans]
      refine Along.get.bind fun s => ?_
      split
      · exact ih returned
      · exact along_mapRegion.bind fun base => ih _

theorem along_mapArgument {index : Nat} :
    Along (EnteredAt index) (mapArgument settings index) := by
  have one : ∀ {s s' : RegionState}, Entered s s' → EnteredAt index s s' := fun h => h.at index
  refine ((along_arguments.mono Step.entered).mono one).bind fun a => Along.ite Along.pure ?_
  refine Along.get.bind fun s => ((along_arguments.mono Step.entered).mono one).bind fun plans => ?_
  refine ((along_mapPlans plans none).mono one).bind fun base => ?_
  split
  · exact Along.pure
  · refine fun s => Along.bind_returns ?_ fun changed s' h => ?_
    · exact ((along_arguments.mono Step.entered) s).at index
    · obtain ⟨written, rfl⟩ := returns_arguments.1 h
      obtain ⟨_, _, rfl⟩ := ArgumentList.setBase_eq_ok written
      refine ⟨Lasting.refl _, rfl, ArgumentList.setBase_sameFrames written, fun i hi => ?_⟩
      exact List.getElem?_set_ne (Ne.symm hi)

/-- Sending what waits is the last step of entering. -/
theorem along_flush : Along Sent (do
    let patched ← transfer settings.strategy.flush
    if 0 < patched then record settings .pointerUpdate) := by
  refine Along.bind ?_ fun patched => Along.ite (along_record.mono Step.sent) Along.pure
  exact along_sent_transfer (Strategy.along_flush settings.strategy)

/-- Mapping arguments never removes a mapping and never writes to host memory. -/
structure EnteredAll (s s' : RegionState) : Prop where
  link : s.activation.link.Grown s'.activation.link
  host : s'.host = s.host
  arguments : s.arguments.SameFrames s'.arguments

instance : Lasting EnteredAll where
  refl _ := ⟨Lasting.refl _, rfl, .refl _⟩
  trans h h' := ⟨Lasting.trans h.link h'.link, h'.host.trans h.host, h.arguments.trans h'.arguments⟩

theorem along_mapArguments (indices : List Nat) :
    Along EnteredAll (indices.forM (mapArgument settings)) :=
  Along.forM (fun _ => along_mapArgument.mono fun h => ⟨h.link, h.host, h.arguments⟩) indices

theorem along_enter (settings : Settings) : Along EnteredAll (enter settings) := by
  refine Along.get.bind fun s => (along_mapArguments _).bind fun _ => ?_
  exact along_flush.mono fun h => ⟨h.link.grown, h.host, h.arguments ▸ .refl _⟩

end Region

end Offloading
