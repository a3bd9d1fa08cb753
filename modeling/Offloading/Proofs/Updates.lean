import Offloading.Proofs.HostWrites
import Offloading.Proofs.PointerHistory
import Offloading.Proofs.Refreshing
/-!
# Updates

An update refreshes the sections of its arguments one after the other. It leaves the tables of all devices
and their live blocks alone. Once all sections were sent, each of them agrees with its copy, however they
overlap, and an update of the same sections that fetches them changes nothing on the host.
-/

namespace Offloading

/-! ## What an update takes up -/

/-- The section that the plan stands for, if it is one that is mapped. -/
def RegionPlan.site? (host : HostMemory) (plan : RegionPlan) : Option (Nat × Nat) :=
  (plan.resolve host).bind fun region => if region.isMapped then some (region.start, region.size) else none

/-- The argument without the directions in which it is moved. -/
def Argument.undirected (a : Argument) : Argument :=
  { a with mapType := a.mapType.clear [.toDevice, .fromDevice, .always] }

/-- The descriptor without the directions in which its regions are moved. -/
def Descriptor.undirected : Descriptor → Descriptor
  | regions list => regions (list.map Argument.undirected)
  | pointerArray elementSize => pointerArray elementSize
  | refused detail => refused detail

namespace ArgumentList

/-- The list without the directions in which its sections are moved. -/
def undirected (l : ArgumentList) : ArgumentList :=
  ⟨l.arguments.map Argument.undirected, l.descriptors.map Descriptor.undirected⟩

/-- The plans of the argument at a position, if it is mapped. -/
def taken (l : ArgumentList) (index : Nat) : List RegionPlan :=
  match l.get index, l.plans index with
  | .ok a, .ok plans => if a.isMapped then plans else []
  | _, _ => []

end ArgumentList

namespace RegionPlan

variable {plan : RegionPlan} {host host' : HostMemory}

/-- The bytes of the pointer that the plan reads, if it reads one, are the same in both memories. -/
def SameSlot (host host' : HostMemory) : RegionPlan → Prop
  | known _ => True
  | pointee slot _ _ => ∀ i < Word.bytes, host'.byte (slot + i) = host.byte (slot + i)

theorem resolve_congr (same : plan.SameSlot host host') : plan.resolve host' = plan.resolve host := by
  cases plan with
  | known region => rfl
  | pointee slot size mapType => rw [resolve, resolve, HostMemory.readPointer_congr same]

theorem site?_congr (same : plan.SameSlot host host') : plan.site? host' = plan.site? host := by
  rw [site?, site?, resolve_congr same]

theorem site?_of_resolve {region : Argument} (h : plan.resolve host = some region) :
    plan.site? host = if region.isMapped then some (region.start, region.size) else none := by
  rw [site?, h, Option.bind_some]

end RegionPlan

section undirected

variable {l l' : ArgumentList} {a seed : Argument} {d : Descriptor} {index : Nat} {host : HostMemory}

theorem Argument.has_undirected {f : MapFlag} (sent : f ≠ .toDevice) (fetched : f ≠ .fromDevice)
    (always : f ≠ .always) : a.undirected.mapType.has f = a.mapType.has f := by
  simp [undirected, MapType.has_clear, sent, fetched, always]

theorem Argument.isMapped_undirected : a.undirected.isMapped = a.isMapped :=
  isMapped_congr (by simp [has_undirected])

private theorem site?_undirected :
    (RegionPlan.known a.undirected).site? host = (RegionPlan.known a).site? host := by
  change (if Argument.isMapped _ then some (a.start, a.size) else none) = _
  rw [Argument.isMapped_undirected]
  rfl

private theorem site?_known :
    (RegionPlan.known a.undirected).unnested.site? host = (RegionPlan.known a).unnested.site? host := by
  change (if Argument.isMapped _ then some (a.start, a.size) else none) =
    if Argument.isMapped _ then some (a.start, a.size) else none
  rw [Argument.isMapped_unnested, Argument.isMapped_unnested, Argument.isMapped_undirected]

private theorem site?_pointee {slot size : Nat} :
    (RegionPlan.pointee slot size ((a.undirected.mapType.keep Descriptor.inherited).set
        [.pointerAndObject])).unnested.site? host =
      (RegionPlan.pointee slot size ((a.mapType.keep Descriptor.inherited).set
        [.pointerAndObject])).unnested.site? host := by
  have mapped : ∀ start, Argument.isMapped ⟨slot, start, size,
      ((a.undirected.mapType.keep Descriptor.inherited).set [.pointerAndObject]).clear
        [.nested, .hasNested]⟩ = Argument.isMapped ⟨slot, start, size,
      ((a.mapType.keep Descriptor.inherited).set [.pointerAndObject]).clear [.nested, .hasNested]⟩ :=
    fun start => Argument.isMapped_congr
      (by simp [MapType.has_clear, MapType.has_set, MapType.has_keep, Descriptor.inherited])
  simp only [RegionPlan.site?, RegionPlan.unnested, RegionPlan.resolve]
  cases host.readPointer slot with
  | zero => rfl
  | succ start => simp only [Option.bind_some, mapped]

private theorem expand_undirected (d : Descriptor) (seed : Argument) (host : HostMemory) :
    (d.undirected.expand seed.undirected).toOption.map
        (List.map fun plan => plan.unnested.site? host) =
      (d.expand seed).toOption.map (List.map fun plan => plan.unnested.site? host) := by
  cases d with
  | refused detail => rfl
  | regions list =>
      simp only [Descriptor.undirected, Descriptor.expand, Except.toOption, Option.map_some, List.map_map]
      congr 1
      exact List.map_congr_left fun a _ => site?_known
  | pointerArray elementSize =>
      have size : seed.undirected.size = seed.size := rfl
      have start : seed.undirected.start = seed.start := rfl
      rw [Descriptor.undirected, Descriptor.expand, Descriptor.expand, size, start]
      by_cases broken : seed.size % Word.bytes ≠ 0
      · rw [if_pos broken, if_pos broken]
      · rw [if_neg broken, if_neg broken]
        simp only [Except.toOption, Option.map_some, List.map_cons, List.map_map, Function.comp_def,
          site?_known, site?_pointee]

/-- What an update takes up does not depend on the directions. -/
theorem ArgumentList.taken_undirected :
    (l.undirected.taken index).map (·.site? host) = (l.taken index).map (·.site? host) := by
  have got : l.undirected.arguments[index]? = l.arguments[index]?.map Argument.undirected :=
    List.getElem?_map
  cases ha : l.arguments[index]? with
  | none =>
      rw [ha, Option.map_none] at got
      simp only [taken, get, ha, got]
  | some a =>
      rw [ha, Option.map_some] at got
      have mapped := Argument.isMapped_undirected (a := a)
      have nested : a.undirected.mapType.has .nested = a.mapType.has .nested :=
        Argument.has_undirected (by decide) (by decide) (by decide)
      have position : l.undirected.descriptorIndex index = l.descriptorIndex index := by
        rw [descriptorIndex, descriptorIndex, undirected, ← List.map_take, List.countP_map]
        congr 1
        funext b
        exact Argument.has_undirected (by decide) (by decide) (by decide)
      have described : l.undirected.descriptors[l.descriptorIndex index]? =
          l.descriptors[l.descriptorIndex index]?.map Descriptor.undirected := List.getElem?_map
      have split : ∀ {k : ArgumentList} {b : Argument}, k.arguments[index]? = some b →
          (k.taken index).map (·.site? host) = if b.isMapped then
            ((k.plans index).toOption.map (List.map (·.site? host))).getD [] else [] := by
        intro k b hb
        rw [taken, get_eq_ok.2 hb]
        cases k.plans index with
        | error e => simp [Except.toOption]
        | ok plans => cases hb : b.isMapped <;> simp [Except.toOption, hb]
      rw [split ha, split got, mapped]
      congr 2
      cases ns : a.mapType.has .nested with
      | false =>
          rw [Region.plans_of_get ha ns, Region.plans_of_get got (nested.trans ns)]
          simp [Except.toOption, site?_undirected]
      | true =>
          rw [plans_of_nested ha ns, plans_of_nested got (nested.trans ns), position, described]
          cases l.descriptors[l.descriptorIndex index]? with
          | none => rfl
          | some d =>
              have expanded := expand_undirected d a host
              dsimp only [Option.map_some]
              revert expanded
              cases d.undirected.expand a.undirected <;> cases d.expand a <;>
                simp [Except.toOption, Except.map, Except.mapError, Function.comp_def]

end undirected

/-! ## Sections that agree -/

/-- An update of the section sends it, and can do so as a whole. -/
def Turn.Sends (d : Device) (t : Turn) : Prop :=
  t.region.isMapped = true →
    t.region.mapType.has .toDevice = true ∧ d.Whole t.region.start t.region.size

namespace Region

open RegionM

variable {S S' S₁ : List (Nat × Nat)} {s s₁ s' : RegionState} {plans : List RegionPlan} {plan : RegionPlan}
  {kind : TurnKind} {region : Argument} {b : Bool} {n : Nat} {d : Device} {index : Nat} {indices : List Nat}

/-- The address lies in one of the sections. -/
def Covered (S : List (Nat × Nat)) (addr : Nat) : Prop := ∃ p ∈ S, p.1 ≤ addr ∧ addr < p.1 + p.2

/-- The sections are whole, and their bytes agree with their copies. -/
structure Agreeing (S : List (Nat × Nat)) (s : RegionState) : Prop where
  coherent : Coherent s
  whole : ∀ p ∈ S, s.activation.link.device.Whole p.1 p.2
  agrees : ∀ addr, Covered S addr → s.activation.link.Agrees s.host addr

/-- More sections agree, and what agreed before is still the same on the host. -/
structure Brings (S S' : List (Nat × Nat)) (s s' : RegionState) : Prop where
  agreeing : Agreeing S' s'
  grows : S ⊆ S'
  steady : ∀ addr, Covered S addr → s'.host.byte addr = s.host.byte addr
  link : s.activation.link.Transferred s'.activation.link
  arguments : s'.arguments = s.arguments

/-- The section of the plan is among those that agree, and so is the pointer that it reads. -/
structure Served (S : List (Nat × Nat)) (host : HostMemory) (plan : RegionPlan) : Prop where
  site : ∀ p, plan.site? host = some p → p ∈ S
  slot : ∀ slot size mapType, plan = .pointee slot size mapType → ∀ i < Word.bytes, Covered S (slot + i)

/-- The pointers that the plans read are covered when their turn comes. -/
def Rooted (S : List (Nat × Nat)) : List RegionPlan → Prop
  | [] => True
  | .known region :: rest =>
    Rooted (if region.isMapped then (region.start, region.size) :: S else S) rest
  | .pointee slot _ _ :: rest => (∀ i < Word.bytes, Covered S (slot + i)) ∧ Rooted S rest

theorem Covered.mono {addr : Nat} (h : Covered S addr) (sub : S ⊆ S') : Covered S' addr := by
  obtain ⟨p, hp, inside⟩ := h
  exact ⟨p, sub hp, inside⟩

theorem Rooted.mono (h : Rooted S plans) (sub : S ⊆ S') : Rooted S' plans := by
  induction plans generalizing S S' with
  | nil => trivial
  | cons plan rest ih =>
      cases plan with
      | known region =>
          refine ih h ?_
          cases region.isMapped with
          | false => exact sub
          | true => exact List.cons_subset_cons _ sub
      | pointee slot size mapType =>
          exact ⟨fun i hi => (h.1 i hi).mono sub, ih h.2 sub⟩

theorem Brings.refl (h : Agreeing S s) : Brings S S s s :=
  ⟨h, fun _ hp => hp, fun _ _ => rfl, Lasting.refl _, rfl⟩

theorem Brings.trans (h : Brings S S₁ s s₁) (h' : Brings S₁ S' s₁ s') : Brings S S' s s' where
  agreeing := h'.agreeing
  grows := fun _ hp => h'.grows (h.grows hp)
  steady addr covered := (h'.steady addr (covered.mono h.grows)).trans (h.steady addr covered)
  link := Lasting.trans h.link h'.link
  arguments := h'.arguments.trans h.arguments

theorem Brings.sameSlot (h : Brings S S' s s')
    (covered : ∀ slot size mapType, plan = .pointee slot size mapType → ∀ i < Word.bytes,
      Covered S (slot + i)) : plan.SameSlot s.host s'.host := by
  cases plan with
  | known region => trivial
  | pointee slot size mapType => exact fun i hi => h.steady _ (covered slot size mapType rfl i hi)

/-- A plan that was served stays so. -/
theorem Served.brings (h : Served S s.host plan) (later : Brings S S' s s') : Served S' s'.host plan where
  site p hp := by
    rw [RegionPlan.site?_congr (later.sameSlot h.slot)] at hp
    exact later.grows (h.site p hp)
  slot slot size mapType same i hi := (h.slot slot size mapType same i hi).mono later.grows

/-- A region that is refreshed brings its section. -/
theorem brings_refreshRegion (h : Agreeing S s)
    (sends : region.isMapped = true → region.mapType.has .toDevice = true ∧
      s.activation.link.device.Whole region.start region.size)
    (ran : Returns (refreshRegion region) s b s') :
    Brings S (if region.isMapped then (region.start, region.size) :: S else S) s s' := by
  cases mapped : region.isMapped with
  | false =>
      rw [refreshRegion, mapped] at ran
      obtain ⟨-, rfl⟩ := returns_pure.1 ran
      exact .refl h
  | true =>
      obtain ⟨inbound, whole⟩ := sends mapped
      obtain ⟨preserves, sent⟩ := preserves_refreshRegion h.coherent mapped whole ran
      have mappings := preserves.link.still.mappings
      have shadows := preserves.link.shadows
      refine ⟨⟨preserves.coherent, ?_, ?_⟩, List.subset_cons_self _ _,
        fun addr covered => preserves.steady addr (h.agrees addr covered), preserves.link,
        preserves.arguments⟩
      · exact List.forall_mem_cons.2 ⟨whole.congr mappings shadows,
          fun p hp => (h.whole p hp).congr mappings shadows⟩
      · rintro addr ⟨p, hp, lower, upper⟩
        rcases List.mem_cons.1 hp with rfl | hp
        · exact sent inbound addr lower upper
        · exact preserves.agrees addr (h.agrees addr ⟨p, hp, lower, upper⟩)

/-- The tables of the device are those of `d`. -/
def Tables (d : Device) (s : RegionState) : Prop :=
  s.activation.link.device.mappings = d.mappings ∧ s.activation.link.device.shadows = d.shadows

theorem Tables.brings (h : Tables d s) (brings : Brings S S' s s') : Tables d s' :=
  ⟨brings.link.still.mappings.trans h.1, brings.link.shadows.trans h.2⟩

/-- Sections that were taken up agree afterwards. -/
structure Took (S : List (Nat × Nat)) (turns : List Turn) (plans : List RegionPlan) (s s' : RegionState)
    (S' : List (Nat × Nat)) : Prop where
  brings : Brings S S' s s'
  visited : ∀ t ∈ turns, t.region.isMapped = true → (t.region.start, t.region.size) ∈ S'
  served : ∀ plan ∈ plans, Served S' s'.host plan

theorem took_refreshPlans (h : Agreeing S s) (tables : Tables d s) (rooted : Rooted S plans)
    (sends : ∀ t ∈ turnsOf kind refreshRegion plans s, t.Sends d)
    (ran : Returns (refreshPlans plans) s n s') :
    ∃ S', Took S (turnsOf kind refreshRegion plans s) plans s s' S' := by
  induction plans generalizing S s n with
  | nil =>
      obtain ⟨-, rfl⟩ := returns_pure.1 ran
      exact ⟨S, .refl h, List.forall_mem_nil _, List.forall_mem_nil _⟩
  | cons plan rest ih =>
      have slot : ∀ slot size mapType, plan = .pointee slot size mapType →
          ∀ i < Word.bytes, Covered S (slot + i) := by
        rintro slot size mapType rfl
        exact rooted.1
      rw [turnsOf] at sends ⊢
      rw [refreshPlans, returns_get_bind] at ran
      cases hp : plan.resolve s.host with
      | none =>
          rw [hp] at ran sends
          obtain ⟨_, s₁, more, done⟩ := returns_bind.1 (returns_pure_bind.1 ran)
          obtain ⟨-, rfl⟩ := returns_pure.1 done
          have later : Rooted S rest := by
            cases plan with
            | known region => cases hp
            | pointee slot size mapType => exact rooted.2
          obtain ⟨S', took⟩ := ih h tables later sends more
          refine ⟨S', took.brings, took.visited, List.forall_mem_cons.2 ⟨⟨fun p hp' => ?_, ?_⟩, took.served⟩⟩
          · rw [RegionPlan.site?_congr (took.brings.sameSlot slot), RegionPlan.site?, hp] at hp'
            cases hp'
          · exact fun slot' size mapType same i hi => (slot slot' size mapType same i hi).mono took.brings.grows
      | some region =>
          rw [hp] at ran sends
          obtain ⟨b, s₁, first, ran⟩ := returns_bind.1 ran
          obtain ⟨_, s₂, more, done⟩ := returns_bind.1 ran
          obtain ⟨-, rfl⟩ := returns_pure.1 done
          have after : exec (refreshRegion region) s = (.ok b, s₁) := first
          dsimp only at sends ⊢
          rw [after] at sends ⊢
          obtain ⟨here, others⟩ := List.forall_mem_cons.1 sends
          have brings := brings_refreshRegion h (fun mapped => (here mapped).imp_right
            fun whole => whole.congr tables.1 tables.2) first
          have later : Rooted (if region.isMapped then (region.start, region.size) :: S else S) rest := by
            cases plan with
            | known known =>
                cases hp
                exact rooted
            | pointee slot size mapType =>
                refine rooted.2.mono ?_
                split
                · exact List.subset_cons_self _ _
                · exact fun _ hp => hp
          obtain ⟨S', took⟩ := ih brings.agreeing (tables.brings brings) later others more
          have all := brings.trans took.brings
          have own : region.isMapped = true → (region.start, region.size) ∈ S' := by
            intro mapped
            refine took.brings.grows ?_
            rw [mapped, if_pos rfl]
            exact List.mem_cons_self
          refine ⟨S', all, List.forall_mem_cons.2 ⟨own, took.visited⟩,
            List.forall_mem_cons.2 ⟨⟨fun p hp' => ?_, ?_⟩, took.served⟩⟩
          · rw [RegionPlan.site?_congr (all.sameSlot slot), RegionPlan.site?_of_resolve hp] at hp'
            split at hp'
            · rename_i mapped
              exact Option.some.inj hp' ▸ own mapped
            · cases hp'
          · exact fun slot' size mapType same i hi => (slot slot' size mapType same i hi).mono all.grows

/-- The pointers of an array lie in the array, which is taken up first. -/
theorem rooted_taken (l : ArgumentList) (index : Nat) : Rooted S (l.taken index) := by
  have known : ∀ (list : List Argument) (S : List (Nat × Nat)),
      Rooted S ((list.map .known).map .unnested) := by
    intro list
    induction list with
    | nil => exact fun _ => trivial
    | cons a rest ih => exact fun S => ih _
  have pointees : ∀ (slots : List Nat) (S : List (Nat × Nat)) (size : Nat) (mapType : MapType),
      (∀ slot ∈ slots, ∀ i < Word.bytes, Covered S (slot + i)) →
      Rooted S ((slots.map fun slot => .pointee slot size mapType).map .unnested) := by
    intro slots S size mapType covered
    induction slots with
    | nil => trivial
    | cons slot rest ih =>
        obtain ⟨here, others⟩ := List.forall_mem_cons.1 covered
        exact ⟨here, ih others⟩
  rw [ArgumentList.taken]
  split
  · rename_i a plans got found
    split
    · rename_i mapped
      rw [ArgumentList.get_eq_ok] at got
      cases ns : a.mapType.has .nested with
      | false =>
          rw [plans_of_get got ns, Except.ok.injEq] at found
          rw [← found]
          trivial
      | true =>
          rw [ArgumentList.plans_of_nested got ns] at found
          split at found
          · cases found
          · rename_i d _
            cases d with
            | refused detail => cases found
            | regions list =>
                rw [← Except.ok.inj found]
                exact known list S
            | pointerArray elementSize =>
                rw [Descriptor.expand] at found
                split at found
                · cases found
                · rw [← Except.ok.inj found]
                  change Rooted (if Argument.isMapped _ then _ else S) _
                  rw [Argument.isMapped_unnested, if_pos mapped]
                  refine pointees _ _ _ _ fun slot hs i hi => ?_
                  obtain ⟨k, hk, rfl⟩ := List.mem_map.1 hs
                  refine ⟨_, List.mem_cons_self, ?_⟩
                  have inside := List.mem_range.1 hk
                  change a.start ≤ a.start + k * Word.bytes + i ∧
                    a.start + k * Word.bytes + i < a.start + a.size
                  rw [Word.bytes] at hi inside ⊢
                  omega
    · trivial
  · trivial

/-! ## All arguments -/

theorem took_refreshArgument (h : Agreeing S s) (tables : Tables d s)
    (sends : ∀ t ∈ turnsAt (fun _ => .refresh) (fun _ => refreshRegion) index s, t.Sends d)
    (ran : Returns (refreshArgument index) s n s') :
    ∃ S', Took S (turnsAt (fun _ => .refresh) (fun _ => refreshRegion) index s) (s.arguments.taken index)
      s s' S' := by
  have rooted := rooted_taken (S := S) s.arguments index
  rw [turnsAt] at sends ⊢
  rw [ArgumentList.taken] at rooted ⊢
  obtain ⟨a, s₁, asked, more⟩ := returns_bind.1 ran
  obtain ⟨got, rfl⟩ := returns_arguments.1 asked
  cases mapped : a.isMapped with
  | false =>
      rw [mapped] at more
      obtain ⟨-, rfl⟩ := returns_pure.1 more
      refine ⟨S, .refl h, fun t ht => ?_, fun plan hp => ?_⟩
      · rw [got] at ht
        split at ht <;> simp_all
      · rw [got] at hp
        split at hp <;> simp_all
  | true =>
      rw [mapped, Bool.not_true, if_neg Bool.false_ne_true] at more
      obtain ⟨plans, s₂, listed, last⟩ := returns_bind.1 more
      obtain ⟨found, rfl⟩ := returns_arguments.1 listed
      simp only [got, found, mapped, if_true] at sends rooted ⊢
      exact took_refreshPlans h tables rooted sends last

/-- The sections of all arguments that were taken up agree afterwards. -/
theorem took_refreshAll (h : Agreeing S s) (tables : Tables d s)
    (sends : ∀ t ∈ turnsOn (turnsAt (fun _ => .refresh) fun _ => refreshRegion) refreshArgument indices s,
      t.Sends d)
    (ran : Returns (refreshAll indices) s n s') : ∃ S', Brings S S' s s' ∧
      (∀ t ∈ turnsOn (turnsAt (fun _ => .refresh) fun _ => refreshRegion) refreshArgument indices s,
        t.region.isMapped = true → (t.region.start, t.region.size) ∈ S') ∧
      ∀ index ∈ indices, ∀ plan ∈ s.arguments.taken index, Served S' s'.host plan := by
  induction indices generalizing S s n with
  | nil =>
      obtain ⟨-, rfl⟩ := returns_pure.1 ran
      exact ⟨S, .refl h, List.forall_mem_nil _, List.forall_mem_nil _⟩
  | cons index rest ih =>
      obtain ⟨moved, s₁, first, ran⟩ := returns_bind.1 ran
      obtain ⟨others, s₂, more, done⟩ := returns_bind.1 ran
      obtain ⟨-, rfl⟩ := returns_pure.1 done
      have after : exec (refreshArgument index) s = (.ok moved, s₁) := first
      rw [turnsOn, after] at sends ⊢
      obtain ⟨here, later⟩ := List.forall_mem_append.1 sends
      obtain ⟨S₁, took⟩ := took_refreshArgument h tables here first
      obtain ⟨S', brings, visited, served⟩ := ih took.brings.agreeing (tables.brings took.brings) later more
      rw [took.brings.arguments] at served
      refine ⟨S', took.brings.trans brings, List.forall_mem_append.2 ⟨fun t ht mapped => ?_, visited⟩,
        List.forall_mem_cons.2 ⟨fun plan hp => (took.served plan hp).brings brings, served⟩⟩
      exact brings.grows (took.visited t ht mapped)

/-! ## Updating again -/

/-- The sections still agree, and the host has not changed. -/
structure Rests (S : List (Nat × Nat)) (s s' : RegionState) : Prop where
  agreeing : Agreeing S s'
  host : ∀ addr, s'.host.byte addr = s.host.byte addr
  arguments : s'.arguments = s.arguments

theorem Rests.refl (h : Agreeing S s) : Rests S s s := ⟨h, fun _ => rfl, rfl⟩

theorem Rests.trans (h : Rests S s s₁) (h' : Rests S s₁ s') : Rests S s s' :=
  ⟨h'.agreeing, fun addr => (h'.host addr).trans (h.host addr), h'.arguments.trans h.arguments⟩

theorem Rests.site? (h : Rests S s s') (plan : RegionPlan) : plan.site? s'.host = plan.site? s.host := by
  refine RegionPlan.site?_congr ?_
  cases plan with
  | known region => trivial
  | pointee slot size mapType => exact fun i _ => h.host _

/-- Refreshing a section that agrees changes nothing on the host. -/
theorem rests_refreshRegion (h : Agreeing S s)
    (within : region.isMapped = true → (region.start, region.size) ∈ S)
    (ran : Returns (refreshRegion region) s b s') : Rests S s s' := by
  cases mapped : region.isMapped with
  | false =>
      rw [refreshRegion, mapped] at ran
      obtain ⟨-, rfl⟩ := returns_pure.1 ran
      exact .refl h
  | true =>
      have whole := h.whole _ (within mapped)
      obtain ⟨preserves, -⟩ := preserves_refreshRegion h.coherent mapped whole ran
      have mappings := preserves.link.still.mappings
      refine ⟨⟨preserves.coherent, fun p hp => (h.whole p hp).congr mappings preserves.link.shadows,
        fun addr covered => preserves.agrees addr (h.agrees addr covered)⟩, fun addr => ?_, preserves.arguments⟩
      by_cases inside : region.start ≤ addr ∧ addr < region.start + region.size
      · exact preserves.steady addr (h.agrees addr ⟨_, within mapped, inside⟩)
      · exact preserves.outside addr (by omega)

/-- A section is fetched, or the host is as before. -/
theorem returns_or_kept_fetch (region : Argument) (target : Nat) (s : RegionState) :
    (∃ s', Returns (fetch region target) s () s') ∨ (exec (fetch region target) s).2.host = s.host := by
  have kept : Step Link.Transferred Eq s (exec (onDevice (Device.retrieve target region.size)) s).2 :=
    along_onDevice Device.along_retrieve s
  rcases hr : exec (onDevice (Device.retrieve target region.size)) s with ⟨e | content, s₁⟩
  · rw [hr] at kept
    rw [fetch, exec_bind_error hr]
    exact .inr kept.host.symm
  · have wrote : Returns (writeHost region.start content) s₁ ()
        { s₁ with host := s₁.host.write region.start content } := rfl
    have visited : ∀ r, ∃ shadows r', Returns (onDevice (Device.visitShadows region.start
        (region.start + region.size) false)) r shadows r' := fun _ => ⟨_, _, rfl⟩
    obtain ⟨shadows, r, looked⟩ := visited { s₁ with host := s₁.host.write region.start content }
    refine .inl ⟨{ r with host := r.host.restored shadows }, ?_⟩
    rw [Returns, fetch, exec_bind_ok hr, exec_bind_ok wrote, exec_bind_ok looked]
    exact exec_restorePointers shadows r

/-- Refreshing a section that agrees changes nothing on the host, even if it fails. -/
theorem byte_refreshRegion (h : Agreeing S s)
    (within : region.isMapped = true → (region.start, region.size) ∈ S) :
    Fixed (fun s => s.host.byte) s (exec (refreshRegion region) s).2 := by
  rcases hr : exec (refreshRegion region) s with ⟨e | b, s'⟩
  · cases mapped : region.isMapped with
    | false =>
        rw [refreshRegion, mapped] at hr
        cases hr
    | true =>
        cases found : (s.activation.link.device.mappings.lookup region.start region.size).mapping? with
        | none =>
            have missed : s.activation.link.device.translate? region.start region.size = none := by
              rw [Device.translate?, found, Option.map_none]
            rw [refreshRegion, mapped, Bool.not_true, if_neg Bool.false_ne_true] at hr
            dsimp only at hr
            rw [exec_device_bind, missed] at hr
            cases hr
        | some m =>
            have whole := h.whole _ (within mapped)
            obtain ⟨hm, lower, upper⟩ := h.coherent.mapping_of_lookup whole found
            have sent : ∀ s, Fixed (fun s : RegionState => s.host.byte) s (exec
                ((if region.mapType.has .toDevice then send region (m.translate region.start) else pure ())
                  >>= fun _ => pure true) s).2 := by
              refine Along.bind (Along.ite ?_ Along.pure) fun _ => Along.pure
              exact (along_send (H := Eq)).mono fun h => congrArg HostMemory.byte h.host.symm
            rw [exec_refreshRegion mapped found] at hr
            rw [← congrArg Prod.snd hr]
            refine Along.bind_returns ?_ fun _ s₁ fetched => sent s₁
            split
            · rcases returns_or_kept_fetch region (m.translate region.start) s with ⟨s₁, fetched⟩ | same
              · have kept := preserves_fetch h.coherent whole hm lower upper fetched
                rw [Returns] at fetched
                rw [fetched]
                funext addr
                by_cases inside : region.start ≤ addr ∧ addr < region.start + region.size
                · exact kept.steady addr (h.agrees addr ⟨_, within mapped, inside⟩)
                · exact kept.outside addr (by omega)
              · exact congrArg HostMemory.byte same
            · rfl
  · exact funext (rests_refreshRegion h within hr).host

/-- The step changes nothing on the host, and if it succeeds, the sections still agree. -/
structure Settles {α : Type} (S : List (Nat × Nat)) (x : RegionM α) (s : RegionState) : Prop where
  host : Fixed (fun s => s.host.byte) s (exec x s).2
  rests : ∀ a s', Returns x s a s' → Rests S s s'

namespace Settles

variable {α β : Type} {x : RegionM α} {f : α → RegionM β}

theorem pure {a : α} (h : Agreeing S s) : Settles S (Pure.pure a) s where
  host := rfl
  rests _ _ done := by
    obtain ⟨-, rfl⟩ := returns_pure.1 done
    exact .refl h

theorem bind (hx : Settles S x s) (hf : ∀ a s', Returns x s a s' → Settles S (f a) s') :
    Settles S (x >>= f) s where
  host := Along.bind_returns hx.host fun a s' first => (hf a s' first).host
  rests b s'' ran := by
    obtain ⟨a, s', first, more⟩ := returns_bind.1 ran
    exact (hx.rests a s' first).trans ((hf a s' first).rests b s'' more)

theorem asked {ask : ArgumentList → Except ArgumentError α} (h : Agreeing S s) :
    Settles S (RegionM.arguments ask) s where
  host := Allows.arguments s
  rests _ _ got := by
    obtain ⟨-, rfl⟩ := returns_arguments.1 got
    exact .refl h

theorem look {f : RegionState → RegionM β} (hf : Settles S (f s) s) : Settles S (get >>= f) s where
  host := by
    rw [exec_get_bind]
    exact hf.host
  rests b s' ran := hf.rests b s' (returns_get_bind.1 ran)

end Settles

/-- Refreshing a section that agrees settles. -/
theorem settles_refreshRegion (h : Agreeing S s)
    (within : region.isMapped = true → (region.start, region.size) ∈ S) :
    Settles S (refreshRegion region) s :=
  ⟨byte_refreshRegion h within, fun _ _ ran => rests_refreshRegion h within ran⟩

theorem settles_refreshPlans (h : Agreeing S s)
    (within : ∀ site ∈ plans.map (·.site? s.host), ∀ p, site = some p → p ∈ S) :
    Settles S (refreshPlans plans) s := by
  induction plans generalizing s with
  | nil => exact .pure h
  | cons plan rest ih =>
      obtain ⟨here, others⟩ := List.forall_mem_cons.1 within
      rw [refreshPlans]
      have then_rest : ∀ {x : RegionM Bool}, Settles S x s → Settles S (x >>= fun moved => do
          let others ← refreshPlans rest
          return (if moved then 1 else 0) + others) s := by
        intro x first
        refine first.bind fun moved s₁ ran => ?_
        have own := first.rests moved s₁ ran
        have later := ih own.agreeing (by rw [funext own.site?]; exact others)
        exact later.bind fun n s₂ more => .pure (later.rests n s₂ more).agreeing
      refine .look ?_
      cases hp : plan.resolve s.host with
      | none => exact then_rest (.pure h)
      | some region =>
          refine then_rest (settles_refreshRegion h fun mapped => here _ ?_)
          dsimp only
          rw [RegionPlan.site?_of_resolve hp, mapped, if_pos rfl]

theorem settles_refreshArgument (h : Agreeing S s)
    (within : ∀ site ∈ (s.arguments.taken index).map (·.site? s.host), ∀ p, site = some p → p ∈ S) :
    Settles S (refreshArgument index) s := by
  refine Settles.bind (.asked h) fun a s₁ got => ?_
  obtain ⟨got, rfl⟩ := returns_arguments.1 got
  cases mapped : a.isMapped with
  | false => exact .pure h
  | true =>
      rw [Bool.not_true, if_neg Bool.false_ne_true]
      refine Settles.bind (.asked h) fun plans s₂ listed => ?_
      obtain ⟨found, rfl⟩ := returns_arguments.1 listed
      simp only [ArgumentList.taken, got, found, mapped, if_true] at within
      exact settles_refreshPlans h within

/-- Updating sections that agree settles. -/
theorem settles_refreshAll (h : Agreeing S s)
    (within : ∀ index ∈ indices, ∀ site ∈ (s.arguments.taken index).map (·.site? s.host),
      ∀ p, site = some p → p ∈ S) : Settles S (refreshAll indices) s := by
  induction indices generalizing s with
  | nil => exact .pure h
  | cons index rest ih =>
      obtain ⟨here, others⟩ := List.forall_mem_cons.1 within
      have first := settles_refreshArgument h here
      refine first.bind fun moved s₁ ran => ?_
      have own := first.rests moved s₁ ran
      have later := ih own.agreeing (by rw [own.arguments, funext own.site?]; exact others)
      exact later.bind fun n s₂ more => .pure (later.rests n s₂ more).agreeing

/-- The device is coherent and its pointers are recorded, and the update sends all sections it takes up. -/
structure Updatable (s : RegionState) : Prop where
  coherent : Coherent s
  sends : ∀ t ∈ refreshes s, t.Sends s.activation.link.device

/-- After an update that sent them, all sections agree. If the same sections are updated from there, in
whichever direction, nothing changes on the host. -/
theorem agrees_refresh (h : Updatable s) (ran : Returns refresh s n s') :
    (∀ t ∈ refreshes s, t.region.isMapped = true → ∀ addr, t.region.start ≤ addr →
      addr < t.region.start + t.region.size → s'.activation.link.Agrees s'.host addr) ∧
    ∀ r : RegionState, s'.activation.link.Prepared r.activation.link → r.host = s'.host →
      r.arguments.undirected = s.arguments.undirected → (exec refresh r).2.host.byte = r.host.byte := by
  rw [refresh, returns_get_bind] at ran
  have start : Agreeing [] s := by
    refine ⟨h.coherent, List.forall_mem_nil _, fun addr covered => ?_⟩
    obtain ⟨_, hp, -⟩ := covered
    cases hp
  obtain ⟨S, brings, visited, served⟩ := took_refreshAll start ⟨rfl, rfl⟩ h.sends ran
  refine ⟨fun t ht mapped addr lower upper => brings.agreeing.agrees addr
    ⟨_, visited t ht mapped, lower, upper⟩, fun r prepared host same => ?_⟩
  have mappings := prepared.still.mappings
  have agreeing : Agreeing S r := by
    refine ⟨⟨prepared.still.wellFormed brings.agreeing.coherent.accelerator,
      brings.agreeing.coherent.device.congr mappings prepared.shadows, ?_⟩,
      fun p hp => (brings.agreeing.whole p hp).congr mappings prepared.shadows,
      fun addr covered => (brings.agreeing.agrees addr covered).congr mappings prepared.shadows
        (fun _ _ _ => Link.byte?_congr ?_) (by rw [host])⟩
    · rw [prepared.shadows, host]
      exact brings.agreeing.coherent.recorded
    · rw [Link.memory?, Link.memory?, prepared.still.unit,
        Accelerator.memory?_congr (Prod.mk.inj prepared.memories).1]
  have size : r.arguments.size = s.arguments.size := by
    have length := congrArg (fun l : ArgumentList => l.arguments.length) same
    simpa only [ArgumentList.undirected, List.length_map, ArgumentList.size] using length
  rw [refresh, exec_get_bind, size]
  refine (settles_refreshAll agreeing fun index hi site hs p hp => ?_).host
  rw [← ArgumentList.taken_undirected, same, ArgumentList.taken_undirected, host] at hs
  obtain ⟨plan, listed, rfl⟩ := List.mem_map.1 hs
  exact (served index hi plan listed).site p hp

end Region

/-! ## Calls -/

namespace Platform

open CallM Region

variable {pl pl' : Platform} {dev : Nat} {id : Int} {l : ArgumentList} {k k' : Link}

/-- The tables of all devices with their counts, the patched pointers, and the live blocks of all
accelerators. -/
def books (pl : Platform) :
    List (Nat × Int × MappingTable × ShadowTable) × List (List (Nat × Nat × Nat × List (Nat × Nat))) :=
  (pl.devices.map fun slot =>
    (slot.accelerator, slot.device.unit, slot.device.mappings, slot.device.shadows),
    pl.accelerators.map Accelerator.layouts)

theorem books_congr (h : pl'.links = pl.links) : pl'.books = pl.books := by
  obtain ⟨devices, accelerators⟩ := Prod.mk.inj h
  rw [books, books, devices, accelerators]

theorem books_setLink (hl : pl.link? dev = some k) (still : k.Still k')
    (shadows : k'.device.shadows = k.device.shadows) : (pl.setLink dev k').books = pl.books := by
  obtain ⟨slot, hs, device, ha⟩ := link?_eq_some_iff.1 hl
  rw [books, books, setLink, hs]
  refine Prod.ext (Accelerator.map_set_of_same hs ?_) (Accelerator.map_set_of_same ha still.layouts)
  change (slot.accelerator, k'.device.unit, k'.device.mappings, k'.device.shadows) = _
  rw [still.unit, still.mappings, shadows, device]

theorem Readied.books (h : pl.Readied pl') : pl'.books = pl.books := by
  rcases h with rfl | ⟨dev, k, k', hk, prepared, rfl⟩
  · rfl
  · exact books_setLink hk prepared.still prepared.shadows

/-- An update leaves the books alone, whether it succeeds or not. -/
theorem books_dataUpdate (l : ArgumentList) (loaded : pl.LoadedFor id) :
    (pl.perform (.dataUpdate id l)).books = pl.books := by
  have recorded : Along (Fixed fun s : CallState => s.platform.books) (onPlatform (record .dataUpdate)) :=
    along_record_core.mono fun h => books_congr (Prod.mk.inj h).1
  refine Along.bind_at (R := Fixed fun s : CallState => s.platform.books) (x := onPlatform (ready id))
    (s := ⟨pl, l⟩) ?_ fun dev => Along.bind ?_ fun moved => recorded.bind fun _ => Along.pure
  · exact (readied_of_loadedFor loaded).books
  · refine along_inRegion fun s k hk => ?_
    have moved := (along_refresh (s.region k)).link
    exact books_setLink hk moved.still moved.shadows

theorem returns_dataUpdate {s s' : CallState} {n : Nat} (h : Returns (dataUpdate id) s n s') :
    ∃ dev pl k r, Returns (ready id) s.platform dev pl ∧ pl.link? dev = some k ∧
      Returns refresh (CallState.region { s with platform := pl } k) n r ∧
      s'.platform.links = (pl.setLink dev r.activation.link).links ∧
      s'.platform.settings = pl.settings ∧ s'.platform.listed = pl.listed ∧ s'.platform.host = r.host := by
  obtain ⟨dev, s₁, hr, rest⟩ := returns_bind.1 h
  obtain ⟨pl, ready, rfl⟩ := lifts_onPlatform.returns.1 hr
  obtain ⟨moved, s₂, hx, last⟩ := returns_bind.1 rest
  obtain ⟨k, r, hk, ran, rfl⟩ := returns_inRegion.1 hx
  obtain ⟨_, s₃, counted, done⟩ := returns_bind.1 last
  obtain ⟨pl', recorded, rfl⟩ := lifts_onPlatform.returns.1 counted
  obtain ⟨metrics, rfl⟩ := returns_record recorded
  obtain ⟨rfl, rfl⟩ := returns_pure.1 done
  exact ⟨dev, pl, k, r, ready, hk, ran, rfl, settings_setLink, listed_setLink, rfl⟩

/-- If no library waits to be loaded on the device that a caller names, an update leaves the books alone,
whether it succeeds or not. Let the device be coherent, with all patched pointers recorded, and let the
update send sections that are mapped and cut no pointer. If it succeeds, every byte of these sections agrees with its
copy, and another update of the same sections, in whichever direction, changes no host byte. -/
theorem dataUpdate_consistent (l : ArgumentList) (loaded : pl.LoadedFor id) :
    (pl.perform (.dataUpdate id l)).books = pl.books ∧
      ∀ dev s n s', pl.start? dev id l = some s → Updatable s → Returns (dataUpdate id) ⟨pl, l⟩ n s' →
        (∃ k, s'.platform.link? dev = some k ∧ ∀ t ∈ refreshes s, t.region.isMapped = true →
          ∀ addr, t.region.start ≤ addr → addr < t.region.start + t.region.size →
            k.Agrees s'.platform.host addr) ∧
        ∀ l', l'.undirected = l.undirected → ∀ addr,
          (s'.platform.perform (.dataUpdate id l')).host.byte addr = s'.platform.host.byte addr := by
  refine ⟨books_dataUpdate l loaded, fun dev s n s' start updatable ran => ?_⟩
  obtain ⟨d, pl₁, k, r, ready₁, hk, refreshed, links, settings, listed, host⟩ := returns_dataUpdate ran
  have here := start?_of_ready (l := l) ready₁ hk
  obtain rfl := start?_unique start here
  rw [start, Option.some.injEq] at here
  subst here
  obtain ⟨agrees, rests⟩ := agrees_refresh updatable refreshed
  obtain ⟨k₀, k₀', hk₀, prepared, rfl⟩ := returns_ready ready₁ fun k => loaded d k (index_of_ready ready₁)
  rw [link?_setLink hk₀, Option.some.injEq] at hk
  subst hk
  have after : s'.platform.link? d = some r.activation.link := by
    rw [link?_congr links, link?_setLink (link?_setLink hk₀)]
  refine ⟨⟨_, after, fun t ht mapped addr lower upper => ?_⟩, fun l' same addr => ?_⟩
  · rw [host]
    exact agrees t ht mapped addr lower upper
  · rcases host_phase id ⟨s'.platform, l'⟩ (x := fun _ => refresh) (f := fun moved => do
        onPlatform (record .dataUpdate)
        return moved) (fun _ => along_record_host.bind fun _ => Along.pure) with
      same' | ⟨d', r', start', host', arguments', after'⟩
    · exact congrFun (congrArg HostMemory.byte same') addr
    · -- the same device is prepared again
      obtain ⟨pl₂, k₂, ready₂, hk₂, rfl⟩ := start?_eq_some start'
      have again := returns_deviceIndex_congr (settings.trans settings_setLink)
        (listed.trans listed_setLink) (index_of_ready ready₁)
      obtain ⟨rfl, -⟩ := again.unique (index_of_ready ready₂)
      have pending : r.activation.link.device.pending = false := by
        have moved := (along_refresh.returns refreshed).link
        exact moved.still.pending.trans
          (prepared.still.pending.trans (loaded _ k₀ (index_of_ready ready₁) hk₀))
      obtain ⟨m, m', hm, prepared', rfl⟩ := returns_ready ready₂ fun k hk => by
        rw [after, Option.some.injEq] at hk
        exact hk ▸ pending
      rw [after, Option.some.injEq] at hm
      subst hm
      rw [link?_setLink after, Option.some.injEq] at hk₂
      subst hk₂
      have kept := rests _ prepared' (host'.trans host) same
      exact congrFun ((congrArg HostMemory.byte after').trans (kept.trans (congrArg HostMemory.byte host'))) addr

/-- The struct of `holderList`, which begins with a patched pointer, and a part of it again. -/
def crossingList (directions : List MapFlag) : ArgumentList :=
  { arguments := [⟨64, 64, 32, .ofFlags directions⟩, ⟨72, 72, 8, .ofFlags directions⟩] }

theorem dataUpdate_consistent_crossingList :
    ∃ s s' k, (oneDevice.performAll patchingRun).start? 0 0 (crossingList [.toDevice]) = some s ∧
      Updatable s ∧ (refreshes s).map (·.region.size) = [32, 8] ∧
      Returns (dataUpdate 0) ⟨oneDevice.performAll patchingRun, crossingList [.toDevice]⟩ 2 s' ∧
      s'.platform.link? 0 = some k ∧
      (∀ addr, 64 ≤ addr → addr < 96 → k.Agrees s'.platform.host addr) ∧
      ∀ addr, (s'.platform.perform (.dataUpdate 0 (crossingList [.fromDevice]))).host.byte addr =
        s'.platform.host.byte addr := by
  have free : ∀ c ∈ patchingRun, c.KernelFree := by simp [patchingRun, Call.KernelFree]
  have loaded := (performAll_kept fresh_oneDevice.loaded free).1
  have sound : (oneDevice.performAll patchingRun).Sound := sound_performAll fresh_oneDevice.sound
  -- what the tables hold, and what is taken up
  have view : ((oneDevice.performAll patchingRun).start? 0 0 (crossingList [.toDevice])).map (fun s =>
        (s.activation.link.device.mappings.entries.items, s.activation.link.device.shadows.items,
          s.host.readPointer 64, (refreshes s).map fun t => t.region)) =
      some ([⟨128, 128, 144, 0xd00000000080, .one⟩, ⟨64, 64, 96, 0xd00000000000, .one⟩],
        [⟨64, 128, 0xd00000000000, 0xd00000000080⟩], 128,
        [⟨64, 64, 32, .ofFlags [.toDevice]⟩, ⟨72, 72, 8, .ofFlags [.toDevice]⟩]) := by cbv
  obtain ⟨s', updated⟩ : ∃ s', Returns (dataUpdate 0)
      ⟨oneDevice.performAll patchingRun, crossingList [.toDevice]⟩ 2 s' := ⟨_, returns_of_ok (by cbv)⟩
  generalize oneDevice.performAll patchingRun = pl at loaded sound view updated ⊢
  obtain ⟨s, start, view⟩ := Option.map_eq_some_iff.1 view
  obtain ⟨mappings, view⟩ := Prod.mk.inj view
  obtain ⟨shadows, view⟩ := Prod.mk.inj view
  obtain ⟨pointer, regions⟩ := Prod.mk.inj view
  have mapped : ∀ m ∈ s.activation.link.device.mappings,
      m = ⟨128, 128, 144, 0xd00000000080, .one⟩ ∨ m = ⟨64, 64, 96, 0xd00000000000, .one⟩ := by
    intro m hm
    have held : m ∈ s.activation.link.device.mappings.entries.items := hm
    rw [mappings] at held
    simpa using held
  have first : (⟨64, 64, 96, 0xd00000000000, .one⟩ : Mapping) ∈ s.activation.link.device.mappings := by
    change _ ∈ s.activation.link.device.mappings.entries.items
    rw [mappings]
    simp
  have patched : ∀ x ∈ s.activation.link.device.shadows, x = ⟨64, 128, 0xd00000000000, 0xd00000000080⟩ := by
    intro x hx
    have held : x ∈ s.activation.link.device.shadows.items := hx
    rw [shadows] at held
    exact List.mem_singleton.1 held
  have begun := (ranPhase_of_begun (c := .dataUpdate 0 (crossingList [.toDevice])) loaded trivial start)
  have region : ∀ t ∈ refreshes s, t.region = ⟨64, 64, 32, .ofFlags [.toDevice]⟩ ∨
      t.region = ⟨72, 72, 8, .ofFlags [.toDevice]⟩ := by
    intro t ht
    have listed : t.region ∈ (refreshes s).map fun t => t.region := List.mem_map_of_mem ht
    rw [regions] at listed
    simpa using listed
  have updatable : Updatable s := by
    refine ⟨⟨(begun.sound sound).accelerator, ⟨(begun.sound sound).mappings, ?_, ?_, ?_, ?_⟩, ?_⟩, ?_⟩
    · intro m hm
      rcases mapped m hm with rfl | rfl
      · exact ⟨by decide, by decide⟩
      · exact ⟨by decide, by decide⟩
    · intro m hm n hn other
      rcases mapped m hm with rfl | rfl <;> rcases mapped n hn with rfl | rfl
      · exact absurd rfl other
      · exact .inr (by decide)
      · exact .inl (by decide)
      · exact absurd rfl other
    · intro x hx y hy other
      rw [patched x hx, patched y hy] at other
      exact absurd rfl other
    · intro x hx
      rw [patched x hx]
      exact ⟨_, first, by decide, by decide⟩
    · intro x hx
      rw [patched x hx]
      exact pointer.symm
    · intro t ht _
      rcases region t ht with same | same <;> rw [same]
      · refine ⟨by decide, ⟨_, first, by decide, by decide⟩, fun x hx => ?_⟩
        rw [patched x hx]
        decide
      · refine ⟨by decide, ⟨_, first, by decide, by decide⟩, fun x hx => ?_⟩
        rw [patched x hx]
        decide
  obtain ⟨⟨k, after, agrees⟩, rests⟩ :=
    (dataUpdate_consistent (crossingList [.toDevice]) (loaded.loadedFor 0)).2 0 s 2 s' start updatable
      updated
  refine ⟨s, s', k, start, updatable, ?_, updated, after, fun addr lower upper => ?_,
    rests (crossingList [.fromDevice]) rfl⟩
  · have sizes := congrArg (List.map Argument.size) regions
    rw [List.map_map] at sizes
    exact sizes
  · have listed : (⟨64, 64, 32, .ofFlags [.toDevice]⟩ : Argument) ∈ (refreshes s).map fun t => t.region := by
      rw [regions]
      simp
    obtain ⟨t, ht, same⟩ := List.mem_map.1 listed
    refine agrees t ht (by rw [same]; decide) addr ?_ ?_
    · rw [same]
      exact lower
    · rw [same]
      exact upper

end Platform

end Offloading
