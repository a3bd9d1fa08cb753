import Offloading.Proofs.Ownership
import Offloading.Proofs.Phases
/-!
# Regions as chains of deeds

A region works on its device by one operation after the other, and a launch allocates blocks for itself
and frees them. Whatever each of these deeds keeps, a region keeps as a whole, whether it fails or not.
-/

namespace Offloading

/-- An operation of a region on its device. -/
inductive DeviceOperation where
  | submit (target : Nat) (content : List UInt8)
  | submitBatch (chunks : List Chunk)
  | retrieve (target size : Nat)
  | recordShadow (shadow : ShadowPointer)
  | visitShadows (lower upper : Nat) (erase : Bool)
  | map (first base size : Nat) (implicit updateRef : Bool)
  | hold (first size : Nat) (updateRef : Bool)
  | unmap (first size : Nat) (force : Bool)
  | launch (entry : Nat) (arguments : List Nat) (offsets : List Int) (kind : LaunchKind)

/-- The device and its accelerator after an operation, whether it succeeded or not. -/
def Link.after (l : Link) : DeviceOperation → Link
  | .submit target content => (exec (Device.submit target content) l).2
  | .submitBatch chunks => (exec (Device.submitBatch chunks) l).2
  | .retrieve target size => (exec (Device.retrieve target size) l).2
  | .recordShadow shadow => (exec (Device.recordShadow shadow) l).2
  | .visitShadows lower upper erase => (exec (Device.visitShadows lower upper erase) l).2
  | .map first base size implicit updateRef =>
    (exec (Device.map first base size implicit updateRef) l).2
  | .hold first size updateRef => (exec (Device.hold first size updateRef) l).2
  | .unmap first size force => (exec (Device.unmap first size force) l).2
  | .launch entry arguments offsets kind => (exec (Device.launch entry arguments offsets kind) l).2

namespace Tenancy

/-- One thing that a region does to its device and to the blocks of its launch. -/
inductive Deed : Tenancy → Tenancy → Prop where
  | operate (l : Link) (mine : List Nat) (op : DeviceOperation) : Deed ⟨l, mine⟩ ⟨l.after op, mine⟩
  /-- A block for the launch could not be allocated. -/
  | refused {l l' : Link} {e : DeviceError} {size : Nat} (mine : List Nat)
      (h : exec (Device.allocate size) l = (.error e, l')) : Deed ⟨l, mine⟩ ⟨l', mine⟩
  /-- A block was allocated for the launch. -/
  | adopted {l l' : Link} {addr size : Nat} (mine : List Nat)
      (h : Returns (Device.allocate size) l addr l') : Deed ⟨l, mine⟩ ⟨l', mine ++ [addr]⟩
  /-- A block of the launch was asked to be freed, which may have failed. -/
  | freed {addr : Nat} {mine mine' : List Nat} (l : Link) (own : addr ∈ mine)
      (kept : ∀ a ∈ mine, a = addr ∨ a ∈ mine') (sub : mine' ⊆ mine) :
      Deed ⟨l, mine⟩ ⟨(exec (Device.free addr) l).2, mine'⟩

/-- Deeds, one after the other. -/
def Chain : Tenancy → Tenancy → Prop := Relation.ReflTransGen Deed

instance : Lasting Chain where
  refl _ := .refl
  trans := .trans

variable {l l' : Link} {mine mine' : List Nat} {addr : Nat}

theorem Deed.chain {u u' : Tenancy} (h : u.Deed u') : u.Chain u' := .single h

/-- A relation that each deed keeps is kept by chains. -/
theorem Chain.lift {R : Tenancy → Tenancy → Prop} [Lasting R] {u u' : Tenancy} (h : u.Chain u')
    (deed : ∀ {v v'}, v.Deed v' → R v v') : R u u' := by
  induction h with
  | refl => exact Lasting.refl u
  | tail _ last ih => exact Lasting.trans ih (deed last)

/-! ## Blocks for a launch -/

/-- A failed call of the operation keeps no block, and a successful one hands a block to its caller. -/
structure Grants {α : Type} (x : DeviceM α) (target : α → Nat) : Prop where
  error : ∀ {l l' e} mine, exec x l = (.error e, l') → Chain ⟨l, mine⟩ ⟨l', mine⟩
  ok : ∀ {l l' a} mine, Returns x l a l' → Chain ⟨l, mine⟩ ⟨l', mine ++ [target a]⟩

theorem Grants.bind_pure {α β : Type} {x : DeviceM α} {target : α → Nat} {f : α → β}
    {target' : β → Nat} (h : Grants x target) (same : ∀ a, target' (f a) = target a) :
    Grants (x >>= fun a => pure (f a)) target' := by
  refine ⟨fun {l l' e} mine ran => ?_, fun {l l' b} mine ran => ?_⟩
  · rw [exec_bind] at ran
    rcases hx : exec x l with ⟨e' | a, l₁⟩
    · rw [hx] at ran
      cases ran
      exact h.error mine hx
    · rw [hx] at ran
      cases ran
  · obtain ⟨a, l₁, hx, done⟩ := returns_bind.1 ran
    obtain ⟨rfl, rfl⟩ := returns_pure.1 done
    rw [same]
    exact h.ok mine hx

theorem grants_allocate {size : Nat} : Grants (Device.allocate size) fun addr => addr where
  error mine h := (Deed.refused mine h).chain
  ok mine h := (Deed.adopted mine h).chain

/-- A failure that is ignored leaves what was done before it. -/
theorem exec_ignore {ε σ : Type} {x : ExceptT ε (StateM σ) Unit} {s : σ} :
    exec (tryCatch x fun _ => pure ()) s = (.ok (), (exec x s).2) := by
  rw [exec_tryCatch]
  rcases exec x s with ⟨_ | _, _⟩
  · rfl
  · rfl

/-- The block of an upload whose copy fails is released at once. -/
theorem grants_upload {content : List UInt8} : Grants (Device.upload content) fun addr => addr := by
  have copied : ∀ (l : Link) (mine : List Nat) (target : Nat),
      Chain ⟨l, mine⟩ ⟨(exec (Device.submit target content) l).2, mine⟩ := fun l mine target =>
    (Deed.operate l mine (.submit target content)).chain
  -- What the copy and its handler leave, after the block was allocated.
  have upload : ∀ {l l₁ : Link} {target : Nat} mine,
      Returns (Device.allocate content.length) l target l₁ →
      (∃ e l', exec (Device.upload content) l = (.error e, l') ∧ Chain ⟨l, mine⟩ ⟨l', mine⟩) ∨
      ∃ l', exec (Device.upload content) l = (.ok target, l') ∧
        Chain ⟨l, mine⟩ ⟨l', mine ++ [target]⟩ := by
    intro l l₁ target mine ha
    have allocated : Chain ⟨l, mine⟩ ⟨l₁, mine ++ [target]⟩ := grants_allocate.ok mine ha
    rw [Device.upload, exec_bind_ok ha, exec_bind, exec_tryCatch]
    rcases hs : exec (Device.submit target content) l₁ with ⟨e | _, l₂⟩
    · have sent := copied l₁ (mine ++ [target]) target
      rw [hs] at sent
      refine .inl ⟨e, (exec (Device.free target) l₂).2, ?_, ?_⟩
      · dsimp only
        rw [exec_bind, exec_ignore]
        rfl
      · refine Lasting.trans allocated (Lasting.trans sent (Deed.chain (.freed l₂ ?_ ?_ ?_)))
        · exact List.mem_append_right _ (List.mem_singleton_self _)
        · exact fun a ha => (List.mem_append.1 ha).symm.imp_left List.mem_singleton.1
        · exact List.subset_append_left _ _
    · have sent := copied l₁ (mine ++ [target]) target
      rw [hs] at sent
      exact .inr ⟨l₂, rfl, Lasting.trans allocated sent⟩
  refine ⟨fun {l l' e} mine ran => ?_, fun {l l' addr} mine ran => ?_⟩
  · rcases ha : exec (Device.allocate content.length) l with ⟨e' | target, l₁⟩
    · rw [Device.upload, exec_bind_error ha] at ran
      cases ran
      exact grants_allocate.error mine ha
    · rcases upload mine ha with ⟨_, _, failed, chain⟩ | ⟨_, worked, -⟩
      · rw [failed] at ran
        cases ran
        exact chain
      · rw [worked] at ran
        cases ran
  · obtain ⟨target, l₁, ha, -⟩ := returns_bind.1 ran
    rcases upload mine ha with ⟨_, _, failed, -⟩ | ⟨_, worked, chain⟩
    · rw [Returns, failed] at ran
      cases ran
    · rw [Returns, worked] at ran
      cases ran
      exact chain

theorem grants_uploadAddressTable {t : AddressTable} :
    Grants (Device.uploadAddressTable t) UploadedTable.target :=
  grants_upload.bind_pure fun _ => rfl

theorem grants_uploadOffsetList {list : OffsetList} :
    Grants (Device.uploadOffsetList list) UploadedTable.target :=
  grants_upload.bind_pure fun _ => rfl

end Tenancy

/-- The device of a region and the blocks of its launch. -/
def RegionState.tenancy (s : RegionState) : Tenancy := ⟨s.activation.link, s.scratch⟩

namespace Region

open RegionM

/-- What a region did was one deed after the other. -/
def Chained (s s' : RegionState) : Prop := s.tenancy.Chain s'.tenancy

/-- The blocks of the launch stay the same. -/
abbrev SameScratch : RegionState → RegionState → Prop := Fixed RegionState.scratch

variable {settings : Settings} {region : Argument} {index : Nat}

instance : Lasting Chained where
  refl s := Lasting.refl s.tenancy
  trans h h' := Lasting.trans (R := Tenancy.Chain) h h'

theorem chained_onDevice {α : Type} {x : DeviceM α} (op : DeviceOperation)
    (h : ∀ l, (exec x l).2 = l.after op) : Along Chained (onDevice x) :=
  lifts_onDevice.along (R := fun l l' => l' = l.after op) h fun s l' same => by
    rw [same]
    exact (Tenancy.Deed.operate s.activation.link s.scratch op).chain

theorem admits_chained : Admits Chained where
  rest {s s'} link scratch _ := by
    have same : s'.tenancy = s.tenancy := by rw [RegionState.tenancy, RegionState.tenancy, link, scratch]
    rw [Chained, same]
    exact Lasting.refl _
  retrieve {target size} := chained_onDevice (.retrieve target size) fun _ => rfl
  visit {lower upper erase} := chained_onDevice (.visitShadows lower upper erase) fun _ => rfl
  hold {first size updateRef} := chained_onDevice (.hold first size updateRef) fun _ => rfl
  unmap {first size force} := chained_onDevice (.unmap first size force) fun _ => rfl
  submit {target content} := chained_onDevice (.submit target content) fun _ => rfl
  submitBatch {chunks} := chained_onDevice (.submitBatch chunks) fun _ => rfl
  recordShadow {shadow} := chained_onDevice (.recordShadow shadow) fun _ => rfl
  map {first base size implicit updateRef} :=
    chained_onDevice (.map first base size implicit updateRef) fun _ => rfl

theorem allows_sameScratch : Allows SameScratch where
  still _ scratch := scratch
  map := lifts_onDevice.along (R := Anything) (fun _ => trivial) fun _ _ _ => rfl
  hold := lifts_onDevice.along (R := Anything) (fun _ => trivial) fun _ _ _ => rfl
  unmap := lifts_onDevice.along (R := Anything) (fun _ => trivial) fun _ _ _ => rfl

/-! ## Freeing the blocks of a launch -/

/-- A block that an operation hands over is adopted. -/
theorem chained_adopted {α β : Type} {x : DeviceM α} {target : α → Nat} {f : α → β}
    (grants : Tenancy.Grants x target) : Along Chained (do
      let a ← onDevice x
      adopt (target a)
      return f a : RegionM β) := by
  intro s
  refine exec_bind_ind (fun e s' h => ?_) fun a s' h => ?_
  · rw [lifts_onDevice s, Prod.mk.injEq] at h
    obtain ⟨failed, rfl⟩ := h
    rcases hx : exec x s.activation.link with ⟨e' | a, l'⟩
    · exact grants.error s.scratch hx
    · rw [hx] at failed
      cases failed
  · obtain ⟨l', ran, rfl⟩ := lifts_onDevice.returns.1 h
    exact grants.ok s.scratch ran

/-- A block whose release fails does not keep the others from being released. -/
theorem exec_freeAll_cons {target : Nat} {rest : List Nat} {s : RegionState} :
    (exec (freeAll (target :: rest)) s).2 =
      (exec (freeAll rest) (s.withLink (exec (Device.free target) s.activation.link).2)).2 := by
  have tried : ∃ failure, exec (tryCatch (do
      onDevice (Device.free target)
      pure none) fun e => pure (some e) : RegionM (Option OffloadError)) s =
      (.ok failure, s.withLink (exec (Device.free target) s.activation.link).2) := by
    rw [exec_tryCatch, exec_bind, lifts_onDevice s]
    rcases exec (Device.free target) s.activation.link with ⟨e | _, l⟩
    · exact ⟨some (.ofDevice e), rfl⟩
    · exact ⟨none, rfl⟩
  obtain ⟨failure, tried⟩ := tried
  rw [freeAll, exec_bind_ok tried, exec_bind]
  rcases exec (freeAll rest) _ with ⟨e | _, _⟩
  · rfl
  · rfl

theorem exec_freeScratch {s : RegionState} :
    (exec freeScratch s).2 = (exec (freeAll s.scratch) { s with scratch := [] }).2 := rfl

theorem scratch_freeAll {blocks : List Nat} : Along SameScratch (freeAll blocks) := by
  intro s
  induction blocks generalizing s with
  | nil => rfl
  | cons target rest ih =>
      rw [exec_freeAll_cons]
      exact (ih _).trans rfl

theorem scratch_freeScratch {s : RegionState} : (exec freeScratch s).2.scratch = [] := by
  rw [exec_freeScratch]
  exact scratch_freeAll _

theorem chain_freeAll {blocks : List Nat} {s : RegionState} :
    Tenancy.Chain ⟨s.activation.link, blocks⟩
      ⟨(exec (freeAll blocks) s).2.activation.link, []⟩ := by
  induction blocks generalizing s with
  | nil => exact Lasting.refl _
  | cons target rest ih =>
      rw [exec_freeAll_cons]
      refine Lasting.trans (Tenancy.Deed.chain (.freed s.activation.link List.mem_cons_self ?_ ?_))
        (ih (s := s.withLink (exec (Device.free target) s.activation.link).2))
      · exact fun a ha => List.mem_cons.1 ha
      · exact List.subset_cons_self _ _

theorem chained_freeScratch : Along Chained freeScratch := by
  intro s
  rw [Chained, RegionState.tenancy, RegionState.tenancy, scratch_freeScratch, exec_freeScratch]
  exact chain_freeAll (s := { s with scratch := [] })

/-! ## Launching -/

/-- The relation admits a whole region: besides what entering and leaving do, blocks are handed over to the launch
and freed after it, and the kernel runs. -/
structure Supports (R : RegionState → RegionState → Prop) : Prop extends Admits R where
  adopted : ∀ {α β : Type} {x : DeviceM α} {target : α → Nat} {f : α → β}, Tenancy.Grants x target →
    Along R (do
      let a ← onDevice x
      adopt (target a)
      return f a : RegionM β)
  freeScratch : Along R freeScratch
  launch : ∀ {entry arguments offsets kind}, Along R (onDevice (Device.launch entry arguments offsets kind))

theorem supports_chained : Supports Chained where
  toAdmits := admits_chained
  adopted := chained_adopted
  freeScratch := chained_freeScratch
  launch {entry arguments offsets kind} := chained_onDevice (.launch entry arguments offsets kind) fun _ => rfl

namespace Supports

variable {R : RegionState → RegionState → Prop} [Lasting R] (supports : Supports R)

include supports

theorem kernelArgument : Along R (kernelArgument region) := by
  unfold Region.kernelArgument
  split
  · exact Along.pure
  · refine Along.bind (supports.adopted Tenancy.grants_allocate) fun target => Along.ite ?_ Along.pure
    exact Allows.readHost.bind fun _ => supports.submit.bind fun _ => Along.pure
  · exact Allows.translate.bind fun _ => Along.pure
  all_goals
    refine Along.get.bind fun s => ?_
    split
    · exact Along.pure
    · exact Along.ite Along.pure Allows.unmapped

theorem patchCapture {staged : Staged} {parent? : Option Nat} :
    Along R (patchCapture staged index region parent?) := by
  unfold Region.patchCapture
  split
  · exact Along.throw
  · split
    · exact Along.throw
    · refine Allows.arguments.bind fun parent => Along.get.bind fun s => ?_
      split
      · exact supports.submit
      · exact Along.pure

theorem stageArguments {staged : Staged} (arguments : List Argument) :
    Along R (stageArguments staged index arguments) := by
  induction arguments generalizing staged index with
  | nil => exact Along.pure
  | cons a rest ih =>
      refine Along.bind ?_ fun _ => ih
      refine Along.ite (supports.kernelArgument.bind fun _ => Along.pure) ?_
      split
      · exact supports.patchCapture.bind fun _ => Along.pure
      · exact Along.pure

theorem stage : Along R (stage settings) := by
  have table : Along R (stageAddressTable settings) := by
    refine Along.ite (Along.get.bind fun s => ?_) Along.pure
    exact supports.adopted Tenancy.grants_uploadAddressTable
  have list : Along R (stageOffsetList settings) := by
    unfold stageOffsetList
    split
    · exact Along.pure
    · refine Along.bind ?_ fun list => supports.adopted Tenancy.grants_uploadOffsetList
      refine supports.peek (Along.get.bind fun l => ?_)
      split
      · exact Along.pure
      · exact Along.throw
  refine table.bind fun table? => list.bind fun list? => ?_
  exact Along.get.bind fun s => (supports.stageArguments _).bind fun staged => Along.pure

theorem stageAndLaunch {entry : Nat} {kind : LaunchKind} :
    Along R (stageAndLaunch settings entry kind) := by
  refine supports.stage.bind fun plan => supports.launch.bind fun _ => (supports.record rfl).bind fun _ => ?_
  exact supports.modify (fun _ => rfl) (fun _ => rfl) fun _ => Metrics.sameCalls_recordLaunch

theorem run {entry : Nat} {kind : LaunchKind} : Along R (run settings entry kind) := by
  refine supports.enter.bind fun _ => Along.bind ?_ fun _ => ?_
  · refine Along.tryCatch supports.stageAndLaunch fun e => ?_
    exact supports.freeScratch.bind fun _ => Along.throw
  · refine supports.freeScratch.bind fun failure? => ?_
    split
    · exact Along.throw
    · exact supports.leave

end Supports

/-- No block waits to be freed. -/
def Unburdened (s : RegionState) : Prop := s.scratch = []

/-- However a region ends, no block of its launch is left to be freed. -/
theorem unburdened_run {entry : Nat} {kind : LaunchKind} {s : RegionState} (none : Unburdened s) :
    Unburdened (exec (run settings entry kind) s).2 := by
  have freed : ∀ {s s' : RegionState} {r}, exec freeScratch s = (r, s') → Unburdened s' := by
    intro s s' r h
    have := scratch_freeScratch (s := s)
    rwa [h] at this
  have entered : SameScratch s (exec (enter settings) s).2 := allows_sameScratch.enter s
  rw [run]
  refine exec_bind_ind (P := Unburdened) (fun e s' h => ?_) fun _ s₁ h => ?_
  · rw [h] at entered
    exact entered.trans none
  · refine exec_bind_ind (P := Unburdened) (fun e s₂ h => ?_) fun _ s₂ h => ?_
    · change exec (tryCatch (stageAndLaunch settings entry kind) _) s₁ = _ at h
      rw [exec_tryCatch] at h
      rcases hl : exec (stageAndLaunch settings entry kind) s₁ with ⟨e' | _, s'⟩
      · rw [hl] at h
        dsimp only at h
        rw [exec_bind] at h
        rcases hf : exec freeScratch s' with ⟨_ | _, s''⟩
        all_goals
          rw [hf] at h
          cases h
          exact freed hf
      · rw [hl] at h
        cases h
    · refine exec_bind_ind (P := Unburdened) (fun e s₃ h => freed h) fun failure? s₃ h => ?_
      split
      · exact freed h
      · exact (allows_sameScratch.leaves.leave s₃).trans (freed h)

/-- A region whose launch owns no block yet owns none afterwards. -/
theorem chain_run {entry : Nat} {kind : LaunchKind} {s : RegionState} (none : Unburdened s) :
    Tenancy.Chain ⟨s.activation.link, []⟩
      ⟨(exec (run settings entry kind) s).2.activation.link, []⟩ := by
  have chain : Chained s (exec (run settings entry kind) s).2 := supports_chained.run s
  rwa [Chained, RegionState.tenancy, RegionState.tenancy, none, unburdened_run none] at chain

/-- The phases that launch nothing own no block. -/
theorem chain_of_admitted {α : Type} {x : RegionM α} {s : RegionState} (chained : Along Chained x)
    (same : Along SameScratch x) (none : Unburdened s) :
    Tenancy.Chain ⟨s.activation.link, []⟩ ⟨(exec x s).2.activation.link, []⟩ := by
  have chain : Chained s (exec x s).2 := chained s
  rwa [Chained, RegionState.tenancy, RegionState.tenancy, none, (same s).trans none] at chain

end Region

end Offloading
