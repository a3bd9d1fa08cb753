import Offloading.Proofs.ExplicitMaps
/-!
# Patched pointers

A pointer is patched only after its slot was mapped, and a patch that waits is sent before any
mapping can go away. So entering a region keeps every patched pointer in a mapped section, provided
that its maps are explicit.
-/

namespace Offloading

/-- The slots of all pointers that were or will be patched are mapped. -/
structure Activation.Tidy (a : Activation) : Prop where
  sound : a.link.Sound
  shadows : a.link.Tidy
  patches : ∀ p ∈ a.queue.patches, a.link.device.mappings.Covers p.hostSlot

namespace Activation

variable {a a' : Activation}

theorem Tidy.extended (h : a.Tidy) (link : a.link.Extended a'.link)
    (queue : ∀ p ∈ a'.queue.patches, p ∈ a.queue.patches) : a'.Tidy := by
  obtain ⟨sound, tidy⟩ := link.orderly h.sound
  refine ⟨sound, tidy h.shadows, fun p hp => ?_⟩
  exact (link.mappings.sections h.sound.mappings).covers (h.patches p (queue p hp))

end Activation

theorem mem_foldl_insert {x : ShadowPointer} {shadows : List ShadowPointer}
    {t : ShadowTable} (h : x ∈ shadows.foldl AddressMap.insert t) : x ∈ t ∨ x ∈ shadows := by
  induction shadows generalizing t with
  | nil => exact .inl h
  | cons s rest ih =>
      rcases ih h with hx | hx
      · rcases AddressMap.mem_insert.1 hx with rfl | ⟨hx, -⟩
        · exact .inr (List.mem_cons_self ..)
        · exact .inl hx
      · exact .inr (List.mem_cons_of_mem s hx)

theorem mem_foldl_insert_of_mem {x : ShadowPointer} {shadows : List ShadowPointer}
    {t : ShadowTable} (hx : x ∈ t) (other : ∀ y ∈ shadows, x.hostSlot ≠ y.hostSlot) :
    x ∈ shadows.foldl AddressMap.insert t := by
  induction shadows generalizing t with
  | nil => exact hx
  | cons y rest ih =>
      obtain ⟨here, others⟩ := List.forall_mem_cons.1 other
      exact ih (AddressMap.mem_insert.2 (.inr ⟨hx, here⟩)) others

/-- Of the shadows that are added for a slot, the last one stays. -/
theorem exists_mem_foldl_insert {shadows : List ShadowPointer} {t : ShadowTable} {slot : Nat}
    (h : ∃ y ∈ shadows, y.hostSlot = slot) :
    ∃ x ∈ shadows.foldl AddressMap.insert t, x ∈ shadows ∧ x.hostSlot = slot := by
  induction shadows generalizing t with
  | nil =>
      obtain ⟨y, hy, -⟩ := h
      cases hy
  | cons y rest ih =>
      by_cases again : ∃ z ∈ rest, z.hostSlot = slot
      · obtain ⟨x, hx, added, same⟩ := ih (t := t.insert y) again
        exact ⟨x, hx, List.mem_cons_of_mem y added, same⟩
      · obtain ⟨z, hz, same⟩ := h
        obtain rfl : z = y := (List.mem_cons.1 hz).resolve_right fun hz => again ⟨z, hz, same⟩
        have survives : z ∈ rest.foldl AddressMap.insert (t.insert z) :=
          mem_foldl_insert_of_mem AddressMap.mem_insert_self fun x hx other =>
            again ⟨x, hx, other.symm.trans same⟩
        exact ⟨z, survives, List.mem_cons_self .., same⟩

namespace Device

variable {l : Link}

theorem hostSlot_of_resolve? {d : Device} {p : PendingPatch} {s : ShadowPointer}
    (h : d.resolve? p = some s) : s.hostSlot = p.hostSlot := by
  obtain ⟨_, -, rfl⟩ := Option.map_eq_some_iff.1 h
  rfl

theorem hostValue_of_resolve? {d : Device} {p : PendingPatch} {s : ShadowPointer}
    (h : d.resolve? p = some s) : s.hostValue = p.hostValue := by
  obtain ⟨_, -, rfl⟩ := Option.map_eq_some_iff.1 h
  rfl

theorem mem_of_resolved {d : Device} {patches : List PendingPatch} {shadows : List ShadowPointer}
    (h : patches.mapM d.resolve? = some shadows) {s : ShadowPointer} (hs : s ∈ shadows) :
    ∃ p ∈ patches, d.resolve? p = some s := by
  induction patches generalizing shadows with
  | nil =>
      cases h
      cases hs
  | cons p rest ih =>
      rw [List.mapM_cons] at h
      obtain ⟨first, hf, h⟩ := Option.bind_eq_some_iff.1 h
      obtain ⟨more, hm, h⟩ := Option.bind_eq_some_iff.1 h
      cases h
      rcases List.mem_cons.1 hs with rfl | hs
      · exact ⟨p, List.mem_cons_self .., hf⟩
      · obtain ⟨q, hq, hr⟩ := ih hm hs
        exact ⟨q, List.mem_cons_of_mem p hq, hr⟩

/-- Patching moves bytes and, unless that fails, remembers the pointer. -/
theorem exec_patch_cases (s : ShadowPointer) (l : Link) :
    ∃ l₁, l.Transferred l₁ ∧
      ((exec (patch s) l).2 = l₁ ∨
        (exec (patch s) l).2 = { l₁ with device := l₁.device.withShadows [s] }) := by
  have sent : l.Transferred (exec (submit s.deviceSlot (Word.toBytes s.deviceValue)) l).2 :=
    along_submit l
  refine ⟨_, sent, ?_⟩
  rw [patch, exec_bind]
  rcases exec (submit s.deviceSlot (Word.toBytes s.deviceValue)) l with ⟨e | _, l₁⟩
  · exact .inl rfl
  · exact .inr rfl

theorem exec_sendPatches_cases (patches : List PendingPatch) (l : Link) :
    ∃ l₁, l.Transferred l₁ ∧
      ((exec (sendPatches patches) l).2 = l₁ ∨
        ∃ shadows, patches.mapM l.device.resolve? = some shadows ∧
          (exec (sendPatches patches) l).2 =
            { l₁ with device := l₁.device.withShadows shadows }) := by
  rw [sendPatches]
  split
  · exact ⟨l, Lasting.refl l, .inl rfl⟩
  · have resolving := Along.mapM (g := resolvePatch) (fun _ => along_resolvePatch) patches l
    rw [exec_bind]
    rcases hs : exec (patches.mapM resolvePatch) l with ⟨e | shadows, l₀⟩
    · rw [hs] at resolving
      exact ⟨l₀, resolving, .inl rfl⟩
    · obtain ⟨resolved, rfl⟩ := returns_resolvePatches.1 hs
      have sent : l₀.Transferred (exec (submitBatch (shadows.map fun s =>
          ⟨s.deviceSlot, Word.toBytes s.deviceValue⟩)) l₀).2 := along_submitBatch l₀
      refine ⟨_, sent, ?_⟩
      dsimp only
      rw [exec_bind]
      rcases exec (submitBatch _) l₀ with ⟨e | _, l₁⟩
      · exact .inl rfl
      · refine .inr ⟨shadows, resolved, ?_⟩
        dsimp only
        rw [exec_bind, exec_recordShadows]
        rfl

theorem tidy_withShadows {shadows : List ShadowPointer} (ht : l.Tidy)
    (hs : ∀ s ∈ shadows, l.device.mappings.Covers s.hostSlot) :
    Link.Tidy { l with device := l.device.withShadows shadows } := by
  intro s hs'
  rcases mem_foldl_insert hs' with hs' | hs'
  · exact ht s hs'
  · exact hs s hs'

end Device

namespace Activation

variable {a : Activation}

/-- Pointers are patched where `Covers` holds of their slots. -/
private theorem tidy_patched {link : Link} {shadows : List ShadowPointer} (h : a.Tidy)
    (sent : a.link.Transferred link)
    (hs : ∀ s ∈ shadows, a.link.device.mappings.Covers s.hostSlot) :
    Activation.Tidy { a with link := { link with device := link.device.withShadows shadows } } := by
  have before : Activation.Tidy { a with link } := h.extended sent.extended fun p hp => hp
  refine ⟨⟨before.sound.mappings, before.sound.accelerator⟩, ?_, before.patches⟩
  refine Device.tidy_withShadows before.shadows fun s hs' => ?_
  rw [sent.still.mappings]
  exact hs s hs'

theorem Tidy.submit {target : Nat} {content : List UInt8} (h : a.Tidy) (strategy : Strategy) :
    (exec (strategy.submit target content) a).2.Tidy := by
  cases strategy with
  | immediate => exact h.extended (Device.along_submit a.link).extended fun p hp => hp
  | bulk =>
      refine h.extended (Lasting.refl _) fun p hp => ?_
      change p ∈ (a.queue.stage target content).patches at hp
      unfold TransferQueue.stage at hp
      split at hp
      · exact hp
      · exact hp

theorem Tidy.patch {p : PointerPatch} (h : a.Tidy)
    (hp : a.link.device.mappings.Covers p.hostSlot) (strategy : Strategy) :
    (exec (strategy.patch p) a).2.Tidy := by
  cases strategy with
  | immediate =>
      obtain ⟨link, sent, hl | hl⟩ := Device.exec_patch_cases p.shadow a.link
      · change Activation.Tidy { a with link := (exec (Device.patch p.shadow) a.link).2 }
        rw [hl]
        exact h.extended sent.extended fun p hp => hp
      · change Activation.Tidy { a with link := (exec (Device.patch p.shadow) a.link).2 }
        rw [hl]
        refine tidy_patched h sent fun s hs => ?_
        rw [List.mem_singleton] at hs
        exact hs ▸ hp
  | bulk =>
      refine ⟨h.sound, h.shadows, fun q hq => ?_⟩
      rcases List.mem_append.1 hq with hq | hq
      · exact h.patches q hq
      · rw [List.mem_singleton] at hq
        exact hq ▸ hp

theorem Tidy.sendCopies (h : a.Tidy) : (exec TransferM.sendCopies a).2.Tidy :=
  have sent : a.link.Transferred (exec (Device.sendCopies a.queue.copies) a.link).2 :=
    Device.along_sendCopies a.link
  h.extended sent.extended fun _ hp => hp

theorem Tidy.sendPatches (h : a.Tidy) : (exec TransferM.sendPatches a).2.Tidy := by
  change Activation.Tidy
    { link := (exec (Device.sendPatches a.queue.patches) a.link).2,
      queue := a.queue.withoutPatches }
  have emptied : Activation.Tidy { a with queue := a.queue.withoutPatches } :=
    ⟨h.sound, h.shadows, fun _ hp => nomatch hp⟩
  obtain ⟨link, sent, hl | ⟨shadows, resolved, hl⟩⟩ :=
    Device.exec_sendPatches_cases a.queue.patches a.link
  · rw [hl]
    exact emptied.extended sent.extended fun p hp => hp
  · rw [hl]
    refine tidy_patched emptied sent fun s hs => ?_
    obtain ⟨p, hp, hr⟩ := Device.mem_of_resolved resolved hs
    rw [Device.hostSlot_of_resolve? hr]
    exact h.patches p hp

theorem Tidy.flush (h : a.Tidy) (strategy : Strategy) : (exec strategy.flush a).2.Tidy := by
  cases strategy with
  | immediate => exact h
  | bulk =>
      refine exec_bind_ind (fun e s' hs => ?_) fun _ s' hs => Tidy.sendPatches ?_
      · have := h.sendCopies
        rwa [hs] at this
      · have := h.sendCopies
        rwa [hs] at this

end Activation

namespace Region

open RegionM

variable {settings : Settings} {padded : Bool} {region : Argument} {s s' : RegionState}

/-- A pointer slot that was mapped explicitly lies in a mapping. -/
theorem covers_of_mapPointer {pointer : MappedPointer}
    (h : Returns (mapPointer region) s (some pointer) s') (hm : region.isMapped = true)
    (ha : region.Explicit) :
    s'.activation.link.device.mappings.Covers pointer.hostSlot := by
  rcases returns_mapPointer h with ⟨-, none, -⟩ | ⟨-, mapped, l, ran, same, rfl⟩
  · cases none
  · cases same
    rw [ha hm] at ran
    exact Device.covers_of_map ran

/-- The slots of all pointers that the region has patched or will patch are mapped. -/
def Tidy (s : RegionState) : Prop := s.activation.Tidy

theorem Step.tidy (h : Step Link.Extended Eq s s') : Kept Tidy s s' := by
  refine fun hs => hs.extended h.link ?_
  rw [h.queue]
  exact fun p hp => hp

theorem tidy_copyIn {first size : Nat} {mapped? : Option MappedSection} :
    Along (Kept Tidy) (copyIn settings region first size mapped?) := by
  unfold copyIn
  split
  · exact Along.pure
  · refine Along.ite ((along_copiesIn.mono Step.tidy).bind fun copies => ?_) Along.pure
    refine Along.ite ((along_readHost.mono Step.tidy).bind fun content => ?_) Along.pure
    exact lifts_transfer.along (R := Kept Activation.Tidy) (fun a h => h.submit settings.strategy)
      fun _ _ h => h

theorem tidy_patchPointer {first base : Nat} {target? : Option Nat}
    {pointer? : Option MappedPointer} (h : Tidy s)
    (hp : ∀ pointer, pointer? = some pointer →
      s.activation.link.device.mappings.Covers pointer.hostSlot) :
    Tidy (exec (patchPointer settings first base target? pointer?) s).2 := by
  cases pointer? with
  | none => exact h
  | some pointer =>
      unfold patchPointer
      dsimp only
      by_cases translated : settings.config.translatesOnDevice = true
      · rw [if_pos translated]
        exact h
      · rw [if_neg translated]
        have sent : ∀ p : PointerPatch, p.hostSlot = pointer.hostSlot →
            Kept Tidy s (exec (transfer (settings.strategy.patch p)) s).2 := by
          intro p same hs
          rw [lifts_transfer s]
          exact Activation.Tidy.patch hs (same ▸ hp pointer rfl) settings.strategy
        exact Along.bind_at (sent _ rfl) (fun _ => along_record.mono Step.tidy) h

/-- Mapping a region keeps patched pointers mapped: the slot is mapped first, stays mapped while the
section is mapped and copied, and is patched last. -/
theorem tidy_mapRegion (settings : Settings) (padded : Bool) (h : Tidy s) (ha : region.Explicit) :
    Tidy (exec (mapRegion settings padded region) s).2 := by
  unfold mapRegion
  by_cases hm : region.isMapped = true
  · rw [hm]
    refine Kept.bind h (along_mapPointer.mono Step.tidy) fun pointer? s₁ h₁ hr₁ => ?_
    have covered : ∀ pointer, pointer? = some pointer →
        s₁.activation.link.device.mappings.Covers pointer.hostSlot := by
      rintro pointer rfl
      exact covers_of_mapPointer hr₁ hm ha
    rw [exec_get_bind]
    have mapping : ∀ first base size implicit updateRef,
        Along (Step Link.Extended Eq)
          (onDevice (Device.map first base size implicit updateRef)) :=
      fun _ _ _ _ _ => along_onDevice Device.along_map
    refine Kept.bind h₁ ((mapping _ _ _ _ _).mono Step.tidy) fun mapped? s₂ h₂ hr₂ => ?_
    have grown₂ := ((mapping _ _ _ _ _).mono Step.entered).returns hr₂
    refine Kept.bind h₂ tidy_copyIn fun _ s₃ h₃ hr₃ => ?_
    have grown₃ := Lasting.trans grown₂ (along_copyIn.returns hr₃).entered
    have covered₃ : ∀ pointer, pointer? = some pointer →
        s₃.activation.link.device.mappings.Covers pointer.hostSlot := fun pointer hp =>
      (grown₃.link.mappings.sections h₁.sound.mappings).covers (covered pointer hp)
    exact Along.bind_at (R := Kept Tidy) (fun h => tidy_patchPointer h covered₃)
      (fun _ => Along.pure) h₃
  · rw [Bool.eq_false_iff.2 hm]
    exact h

theorem tidy_mapPlans (settings : Settings) (padded : Bool) {plans : List RegionPlan}
    (returned : Option Nat) (h : Tidy s) (ha : ∀ plan ∈ plans, plan.Explicit) :
    Tidy (exec (mapPlans settings padded plans returned) s).2 := by
  induction plans generalizing s returned with
  | nil => exact h
  | cons plan rest ih =>
      rw [mapPlans, exec_get_bind]
      have more : ∀ p ∈ rest, p.Explicit := fun p hp => ha p (List.mem_cons_of_mem plan hp)
      cases hr : plan.resolve s.host with
      | none => exact ih returned h more
      | some region =>
          have first := tidy_mapRegion settings padded h
            (ha plan (List.mem_cons_self ..) s.host region hr)
          refine exec_bind_ind (fun e s₁ h₁ => ?_) fun base s₁ h₁ => ih _ ?_ more
          · rwa [h₁] at first
          · rwa [h₁] at first

theorem tidy_mapArgument (settings : Settings) {index : Nat} (h : Tidy s)
    (ha : ∀ plans, s.arguments.plans index = .ok plans → ∀ plan ∈ plans, plan.Explicit) :
    Tidy (exec (mapArgument settings index) s).2 := by
  unfold mapArgument
  refine Kept.bind h (along_arguments.mono Step.tidy) fun a s₁ h₁ hr₁ => ?_
  obtain ⟨-, rfl⟩ := returns_arguments.1 hr₁
  by_cases hm : (!a.isMapped) = true
  · rw [if_pos hm]
    exact h
  · rw [if_neg hm, exec_get_bind]
    refine Kept.bind h (along_arguments.mono Step.tidy) fun plans s₂ h₂ hr₂ => ?_
    obtain ⟨found, rfl⟩ := returns_arguments.1 hr₂
    have mapped := tidy_mapPlans settings (isPadded s₂.arguments index a) none h (ha plans found)
    refine exec_bind_ind (fun e s₃ h₃ => ?_) fun base s₃ h₃ => ?_
    · rwa [h₃] at mapped
    · rw [h₃] at mapped
      cases base with
      | none => exact mapped
      | some base =>
          refine Kept.bind mapped (along_arguments.mono Step.tidy) fun changed s₄ h₄ hr₄ => ?_
          exact h₄

/-- The positions of a list are mapped one after the other, each as the caller passed it. -/
theorem tidy_mapArguments (settings : Settings) {l : ArgumentList} {indices : List Nat} (h : Tidy s)
    (distinct : indices.Nodup) (frames : l.SameFrames s.arguments)
    (same : ∀ i ∈ indices, s.arguments.arguments[i]? = l.arguments[i]?)
    (ha : ∀ index plans, l.plans index = .ok plans → ∀ plan ∈ plans, plan.Explicit) :
    Tidy (exec (indices.forM (mapArgument settings)) s).2 := by
  induction indices generalizing s with
  | nil => exact h
  | cons index rest ih =>
      obtain ⟨fresh, distinct⟩ := List.nodup_cons.1 distinct
      have plans := ArgumentList.plans_congr frames (same index (List.mem_cons_self ..))
      have first := tidy_mapArgument settings h fun found hf =>
        ha index found (plans ▸ hf)
      change Tidy (exec (mapArgument settings index >>= fun _ => rest.forM _) s).2
      refine exec_bind_ind (fun e s₁ h₁ => ?_) fun _ s₁ h₁ => ?_
      · rwa [h₁] at first
      · rw [h₁] at first
        have entered := along_mapArgument.returns h₁
        refine ih first distinct (frames.trans entered.arguments) fun i hi => ?_
        have other : i ≠ index := fun e => fresh (e ▸ hi)
        rw [entered.others i other]
        exact same i (List.mem_cons_of_mem index hi)

theorem tidy_enter (settings : Settings) (h : Tidy s) (explicit : s.arguments.Explicit) :
    Tidy (exec (enter settings) s).2 := by
  rw [enter, exec_get_bind]
  have mapped := tidy_mapArguments settings (l := s.arguments) h
    (List.nodup_range (n := s.arguments.size)) (.refl _) (fun _ _ => rfl)
    fun index plans hp => ArgumentList.plans_explicit explicit hp
  refine exec_bind_ind (fun e s₁ h₁ => ?_) fun _ s₁ h₁ => ?_
  · rwa [h₁] at mapped
  · rw [h₁] at mapped
    refine Kept.bind mapped ?_ fun patched s₂ h₂ hr₂ => ?_
    · exact lifts_transfer.along (R := Kept Activation.Tidy)
        (fun a h => h.flush settings.strategy) fun _ _ h => h
    · exact Along.ite (along_record.mono Step.tidy) Along.pure s₂ h₂

/-- A region that starts with an empty queue and maps explicitly is orderly. -/
theorem orderly_enter (settings : Settings) (idle : s.activation.queue = {}) (explicit : s.arguments.Explicit) :
    s.activation.link.Orderly (exec (enter settings) s).2.activation.link := by
  intro hs
  refine ⟨(along_enter settings s).link.sound hs, fun ht => ?_⟩
  have start : Tidy s := by
    refine ⟨hs, ht, fun p hp => ?_⟩
    rw [idle] at hp
    cases hp
  exact (tidy_enter settings start explicit).shadows

/-- What follows once a region is entered. -/
private theorem orderly_rest {entry : Nat} {kind : LaunchKind} :
    Along (Step Link.Orderly Anything) (do
      try
        stageAndLaunch settings entry kind
      catch e =>
        let _ ← freeScratch
        throw e
      match ← freeScratch with
      | some e => throw e
      | none => leave settings : RegionM Unit) := by
  have free : Along (Step Link.Orderly Anything) freeScratch :=
    launches_moved.freeScratch.mono (Step.mono fun h => h.extended.orderly)
  refine Along.bind (Along.tryCatch ?_ fun e => ?_) fun _ => free.bind fun failure => ?_
  · exact launches_moved.stageAndLaunch.mono (Step.mono fun h => h.extended.orderly)
  · exact free.bind fun _ => Along.throw
  · split
    · exact Along.throw
    · exact along_leave

theorem orderly_run {entry : Nat} {kind : LaunchKind} (idle : s.activation.queue = {})
    (explicit : s.arguments.Explicit) :
    s.activation.link.Orderly (exec (run settings entry kind) s).2.activation.link := by
  have entered := orderly_enter settings idle explicit
  unfold run
  refine exec_bind_ind (P := fun s' : RegionState => s.activation.link.Orderly s'.activation.link)
    (fun e s₁ h₁ => ?_) fun _ s₁ h₁ => ?_
  · rwa [h₁] at entered
  · rw [h₁] at entered
    exact Lasting.trans entered (orderly_rest s₁).link

/-- Whatever a region maps, its device stays sound. -/
theorem sound_run {entry : Nat} {kind : LaunchKind} :
    Along (fun s s' => Kept Link.Sound s.activation.link s'.activation.link)
      (run settings entry kind) := by
  intro s
  unfold run
  refine exec_bind_ind (P := fun s' : RegionState => Kept Link.Sound s.activation.link s'.activation.link)
    (fun e s₁ h₁ => ?_) fun _ s₁ h₁ => ?_
  · have entered := (along_enter settings s).link.sound
    rwa [h₁] at entered
  · have entered := ((along_enter settings).returns h₁).link.sound
    exact fun hs => ((orderly_rest s₁).link (entered hs)).1

end Region

end Offloading
