import Offloading.Proofs.NestedReleases
/-!
# Argument lists of plain regions

Arguments that stand for lists of plain regions are mapped in order. They are released the last one first,
but the regions of each argument in the order in which they were mapped. That gives back everything if no
list has an empty region that starts in a later one of its regions and in no earlier one.
-/

namespace Offloading

/-! ## Bases do not matter -/

namespace RegionPlan

variable {plan : RegionPlan}

/-- All of a plan but the base of its region. -/
def framed : RegionPlan → RegionPlan
  | known region => known { region with base := 0 }
  | pointee slot size mapType => pointee slot size mapType

theorem section?_framed : plan.framed.section? = plan.section? := by
  cases plan with
  | known region => rfl
  | pointee slot size mapType => rfl

theorem plain_framed : plan.framed.Plain ↔ plan.Plain := by
  cases plan with
  | known region => exact ⟨fun ⟨k, e, n, m, d⟩ => ⟨k, e, n, m, d⟩, fun ⟨k, e, n, m, d⟩ => ⟨k, e, n, m, d⟩⟩
  | pointee slot size mapType => exact Iff.rfl

end RegionPlan

namespace ArgumentList

variable {args args' : ArgumentList} {index : Nat} {a a' : Argument} {plans : List RegionPlan}

theorem expand_framed (d : Descriptor) (same : a'.frame = a.frame) :
    (d.expand a').map (List.map fun plan => plan.unnested.framed) =
      (d.expand a).map (List.map fun plan => plan.unnested.framed) := by
  obtain ⟨base, start, size, mapType⟩ := a
  obtain ⟨base', start', size', mapType'⟩ := a'
  simp only [Argument.frame, Prod.mk.injEq] at same
  obtain ⟨rfl, rfl, rfl⟩ := same
  cases d with
  | regions list => rfl
  | pointerArray elementSize =>
      rw [Descriptor.expand, Descriptor.expand]
      split
      · rfl
      · rfl
  | refused detail => rfl

/-- What an argument stands for does not depend on the bases of the arguments, but for bases. -/
theorem plans_framed (frames : args.SameFrames args') :
    (args'.plans index).map (List.map RegionPlan.framed) =
      (args.plans index).map (List.map RegionPlan.framed) := by
  have frame := frames.map index
  cases ha : args.arguments[index]? with
  | none =>
      rw [ha, Option.map_none, Option.map_eq_none_iff] at frame
      rw [plans, plans, get, get, ha, frame, frames.size]
      rfl
  | some a =>
      rw [ha, Option.map_some] at frame
      obtain ⟨a', ha', same⟩ := Option.map_eq_some_iff.1 frame
      have mapType : a'.mapType = a.mapType := congrArg (fun f => f.2.2) same
      cases nested : a.mapType.has .nested with
      | false =>
          rw [Region.plans_of_get ha nested, Region.plans_of_get ha' (mapType ▸ nested)]
          obtain ⟨base, start, size, type⟩ := a
          obtain ⟨base', start', size', type'⟩ := a'
          simp only [Argument.frame, Prod.mk.injEq] at same
          obtain ⟨rfl, rfl, rfl⟩ := same
          rfl
      | true =>
          rw [map_plans_of_nested _ ha nested, map_plans_of_nested _ ha' (mapType ▸ nested),
            frames.descriptors, descriptorIndex_congr frames]
          cases args.descriptors[args.descriptorIndex index]? with
          | none => rfl
          | some d =>
              simp only [List.map_map, Function.comp_def]
              exact congrArg (Except.mapError _) (expand_framed d same)

/-! ## Sections of arguments -/

/-- The regions that are mapped for the argument at a position. -/
def mappedPlans (args : ArgumentList) (index : Nat) : List RegionPlan :=
  if args.arguments[index]?.any Argument.isMapped then (args.plans index).toOption.getD [] else []

/-- The sections that are mapped for the argument at a position. -/
def sectionsAt (args : ArgumentList) (index : Nat) : List HostSection :=
  (args.mappedPlans index).filterMap RegionPlan.section?

/-- The sections that are mapped for the first arguments. -/
def sectionsBefore (args : ArgumentList) (index : Nat) : List HostSection :=
  (List.range index).flatMap args.sectionsAt

/-- All regions of the arguments are plain, and no argument belongs to a struct. -/
structure ListsPlain (args : ArgumentList) : Prop where
  member : ∀ a ∈ args.arguments, a.mapType.isMember = false
  plain : ∀ index, ∀ plan ∈ args.mappedPlans index, plan.Plain

theorem mappedPlans_unmapped (ha : args.arguments[index]? = some a) (hm : a.isMapped = false) :
    args.mappedPlans index = [] := by
  rw [mappedPlans, ha, Option.any_some, hm, if_neg Bool.false_ne_true]

theorem mappedPlans_mapped (ha : args.arguments[index]? = some a) (hm : a.isMapped = true)
    (hp : args.plans index = .ok plans) : args.mappedPlans index = plans := by
  rw [mappedPlans, ha, Option.any_some, hm, if_pos rfl, hp]
  rfl

theorem isMapped_congr (frames : args.SameFrames args') :
    args'.arguments[index]?.any Argument.isMapped = args.arguments[index]?.any Argument.isMapped := by
  have view : ∀ o : Option Argument, o.any Argument.isMapped =
      (o.map Argument.frame).any fun f => Argument.isMapped ⟨0, f.1, f.2.1, f.2.2⟩ := by
    intro o
    cases o with
    | none => rfl
    | some a => rfl
  rw [view, view, frames.map index]

theorem mappedPlans_framed (frames : args.SameFrames args') :
    (args'.mappedPlans index).map RegionPlan.framed = (args.mappedPlans index).map RegionPlan.framed := by
  have view : ∀ x : Except ArgumentError (List RegionPlan), (x.toOption.getD []).map RegionPlan.framed =
      (x.map (List.map RegionPlan.framed)).toOption.getD [] := by
    intro x
    cases x with
    | error e => rfl
    | ok plans => rfl
  rw [mappedPlans, mappedPlans, isMapped_congr frames]
  split
  · rw [view, view, plans_framed frames]
  · rfl

theorem sectionsAt_congr (frames : args.SameFrames args') :
    args'.sectionsAt index = args.sectionsAt index := by
  have view : ∀ l : ArgumentList, l.sectionsAt index =
      ((l.mappedPlans index).map RegionPlan.framed).filterMap RegionPlan.section? := by
    intro l
    rw [sectionsAt, List.filterMap_map]
    exact List.filterMap_congr fun plan _ => RegionPlan.section?_framed.symm
  rw [view, view, mappedPlans_framed frames]

namespace ListsPlain

variable (lists : args.ListsPlain) (frames : args.SameFrames args')

include lists frames

theorem congr : args'.ListsPlain := by
  refine ⟨fun a' ha' => ?_, fun index plan hp => ?_⟩
  · have framed : a'.frame ∈ args.arguments.map Argument.frame := by
      rw [← frames.arguments]
      exact List.mem_map_of_mem ha'
    obtain ⟨a, ha, same⟩ := List.mem_map.1 framed
    rw [show a'.mapType = a.mapType from congrArg (fun f => f.2.2) same.symm]
    exact lists.member a ha
  · have framed : plan.framed ∈ (args.mappedPlans index).map RegionPlan.framed := by
      rw [← mappedPlans_framed frames]
      exact List.mem_map_of_mem hp
    obtain ⟨own, ho, same⟩ := List.mem_map.1 framed
    rw [← RegionPlan.plain_framed, ← same, RegionPlan.plain_framed]
    exact lists.plain index own ho

omit frames in
/-- No section is padded, since no argument is a member of a struct. -/
theorem isPadded : Region.isPadded args index a = false := by
  have headless : args.headsStruct index = false := by
    rw [headsStruct]
    split
    · rfl
    · cases next : args.arguments[index + 1]? with
      | none => exact Bool.and_false _
      | some b =>
          have none : b.mapType.memberOf? = none :=
            Option.not_isSome_iff_eq_none.1
              (Bool.eq_false_iff.1 (lists.member b (List.mem_of_getElem? next)))
          rw [Option.bind_some, none]
          exact Bool.and_false _
  rw [Region.isPadded, headless, Bool.and_false]

end ListsPlain

/-- There is an argument at the position, and if it is mapped then it stands for regions. -/
def StandsAt (args : ArgumentList) (index : Nat) : Prop :=
  ∃ a, args.arguments[index]? = some a ∧ (a.isMapped = true → ∃ plans, args.plans index = .ok plans)

theorem StandsAt.congr (h : args.StandsAt index) (frames : args.SameFrames args') : args'.StandsAt index := by
  obtain ⟨a, ha, stands⟩ := h
  have frame := frames.map index
  have mapped : args'.arguments[index]?.any Argument.isMapped = _ := isMapped_congr frames
  rw [ha, Option.map_some] at frame
  obtain ⟨a', ha', -⟩ := Option.map_eq_some_iff.1 frame
  rw [ha, ha', Option.any_some, Option.any_some] at mapped
  refine ⟨a', ha', fun hm => ?_⟩
  obtain ⟨plans, hp⟩ := stands (mapped ▸ hm)
  have same : (args'.plans index).map _ = _ := plans_framed frames
  rw [hp] at same
  cases hp' : args'.plans index with
  | error e =>
      rw [hp'] at same
      cases same
  | ok plans' => exact ⟨plans', rfl⟩

/-- Whenever an empty region starts in a later region of the same argument, it starts in a region that was
mapped before it too. -/
def Anchored (args : ArgumentList) : Prop :=
  ∀ index < args.size, HostSection.Anchored (args.sectionsBefore index) (args.sectionsAt index)

instance : Decidable args.Anchored :=
  inferInstanceAs (Decidable (∀ index < args.size, HostSection.Anchored _ _))

end ArgumentList

/-! ## Mapping and releasing arguments -/

namespace Region

open RegionM

variable {settings : Settings} {s s' t t' : RegionState} {l : Link} {places : List Mapping}
  {n : Mapping → Nat} {done : List HostSection} {index : Nat} {u v : Unit}

/-- An argument that was mapped stood for regions, and they were mapped. -/
theorem returns_mapArgument_lists (lists : s.arguments.ListsPlain)
    (ran : Returns (mapArgument settings index) s u s') :
    s.arguments.StandsAt index ∧ ∃ base? s₁,
      Returns (mapPlans settings false (s.arguments.mappedPlans index) none) s base? s₁ ∧
      s'.activation = s₁.activation := by
  unfold mapArgument at ran
  obtain ⟨a, s₁, hg, rest⟩ := returns_bind.1 ran
  obtain ⟨got, rfl⟩ := returns_arguments.1 hg
  have ha := ArgumentList.get_eq_ok.1 got
  cases hm : a.isMapped with
  | false =>
      rw [hm] at rest
      obtain ⟨-, rfl⟩ := returns_pure.1 rest
      refine ⟨⟨a, ha, fun mapped => ?_⟩, none, s', ?_, rfl⟩
      · rw [hm] at mapped
        cases mapped
      · rw [ArgumentList.mappedPlans_unmapped ha hm]
        exact returns_pure.2 ⟨rfl, rfl⟩
  | true =>
      rw [hm, Bool.not_true, if_neg Bool.false_ne_true, returns_get_bind, lists.isPadded] at rest
      obtain ⟨plans, s₂, hp, regions⟩ := returns_bind.1 rest
      obtain ⟨found, rfl⟩ := returns_arguments.1 hp
      obtain ⟨base?, s₃, hb, written⟩ := returns_bind.1 regions
      refine ⟨⟨a, ha, fun _ => ⟨plans, found⟩⟩, base?, s₃, ?_, ?_⟩
      · rw [ArgumentList.mappedPlans_mapped ha hm found]
        exact hb
      · cases base? with
        | none =>
            obtain ⟨-, rfl⟩ := returns_pure.1 written
            rfl
        | some base =>
            obtain ⟨args, s₄, hl, hset⟩ := returns_bind.1 written
            obtain ⟨-, rfl⟩ := returns_arguments.1 hl
            rw [returns_modify.1 hset]

/-- An argument is released by releasing the regions that it stands for. -/
theorem exec_unmapArgument_lists (lists : t.arguments.ListsPlain) (stands : t.arguments.StandsAt index) :
    exec (unmapArgument settings index) t =
      exec (forRegions (unmapRegion settings false) (t.arguments.mappedPlans index)) t := by
  obtain ⟨a, ha, plans⟩ := stands
  have got : Returns (arguments (·.get index)) t a t :=
    returns_arguments.2 ⟨ArgumentList.get_eq_ok.2 ha, rfl⟩
  unfold unmapArgument
  rw [exec_bind_ok got]
  cases hm : a.isMapped with
  | false =>
      rw [ArgumentList.mappedPlans_unmapped ha hm]
      rfl
  | true =>
      obtain ⟨plans, hp⟩ := plans hm
      have found : Returns (arguments (·.plans index)) t plans t := returns_arguments.2 ⟨hp, rfl⟩
      rw [Bool.not_true, if_neg Bool.false_ne_true, exec_get_bind, lists.isPadded, exec_bind_ok found,
        ArgumentList.mappedPlans_mapped ha hm hp]

/-- The sections of an argument are mapped. -/
theorem taken_mapArgument (lists : s.arguments.ListsPlain)
    (h : l.Taken done places n s.activation.link)
    (few : done.length + (s.arguments.sectionsAt index).length ≤ ReferenceCount.infinite.value / 2)
    (untouched : ∀ e ∈ s.arguments.sectionsAt index, ∀ m ∈ l.device.mappings, m.Untouched e)
    (words : ∀ e ∈ s.arguments.sectionsAt index, e.stop ≤ Word.greatest)
    (ran : Returns (mapArgument settings index) s u s') :
    ∃ new n', l.Taken (done ++ s.arguments.sectionsAt index) (new ++ places) n' s'.activation.link ∧
      Link.Adds done (s.arguments.sectionsAt index) places new n n' := by
  obtain ⟨-, base?, s₁, mapped, same⟩ := returns_mapArgument_lists lists ran
  rw [same]
  exact taken_mapPlans (lists.plain index) h few untouched words mapped

/-- An argument that was released gave back what it could. -/
theorem held_of_unmapArgument (lists : t.arguments.ListsPlain) (stands : t.arguments.StandsAt index)
    (h : l.Held places n t.activation.link)
    (lodged : ∀ e ∈ t.arguments.sectionsAt index, l.Lodged places e)
    (ran : Returns (unmapArgument settings index) t u t') :
    l.Held places (Link.released n (t.arguments.sectionsAt index)) t'.activation.link := by
  rw [Returns, exec_unmapArgument_lists lists stands] at ran
  exact held_of_forRegions_plain (lists.plain index) h lodged ran

/-- An argument can be released if each place is held at least as often as its sections start in it. -/
theorem exists_unmapArgument (lists : t.arguments.ListsPlain) (stands : t.arguments.StandsAt index)
    (h : l.Held places n t.activation.link)
    (lodged : ∀ e ∈ t.arguments.sectionsAt index, l.Lodged places e)
    (enough : ∀ p ∈ places, p.touches (t.arguments.sectionsAt index) ≤ n p) :
    ∃ t', Returns (unmapArgument settings index) t () t' := by
  obtain ⟨t', ran, -⟩ :=
    attains_forRegions_plain (lists.plain index) h lodged enough
  exact ⟨t', by rwa [Returns, exec_unmapArgument_lists lists stands]⟩

/-- All that mapping arguments took is given back when they are released the other way round, and they can
be released if their empty regions are anchored. -/
theorem undo_mapArguments {indices : List Nat} (lists : s.arguments.ListsPlain)
    (h : l.Taken done places n s.activation.link)
    (few : done.length + (indices.flatMap s.arguments.sectionsAt).length ≤
      ReferenceCount.infinite.value / 2)
    (untouched : ∀ e ∈ indices.flatMap s.arguments.sectionsAt, ∀ m ∈ l.device.mappings, m.Untouched e)
    (words : ∀ e ∈ indices.flatMap s.arguments.sectionsAt, e.stop ≤ Word.greatest)
    (ran : Returns (indices.forM (mapArgument settings)) s u s') :
    ∃ new n', l.Taken (done ++ indices.flatMap s.arguments.sectionsAt) (new ++ places) n'
        s'.activation.link ∧
      ∀ t, s.arguments.SameFrames t.arguments → l.Held (new ++ places) n' t.activation.link →
        (∀ v t', Returns (indices.reverse.forM (unmapArgument settings)) t v t' →
          l.Held places n t'.activation.link) ∧
        ((∀ before i after, indices = before ++ i :: after → HostSection.Anchored
            (done ++ before.flatMap s.arguments.sectionsAt) (s.arguments.sectionsAt i)) →
          ∃ t', Returns (indices.reverse.forM (unmapArgument settings)) t () t') := by
  induction indices generalizing s done places n with
  | nil =>
      obtain ⟨-, rfl⟩ := returns_pure.1 ran
      refine ⟨[], n, by rwa [List.flatMap_nil, List.append_nil], fun t _ held =>
        ⟨fun v t' left => ?_, fun _ => ?_⟩⟩
      · obtain ⟨-, rfl⟩ := returns_pure.1 left
        exact held
      · exact ⟨t, returns_pure.2 ⟨rfl, rfl⟩⟩
  | cons index rest ih =>
      rw [List.flatMap_cons] at few untouched words ⊢
      rw [List.length_append] at few
      obtain ⟨here, later⟩ := List.forall_mem_append.1 untouched
      obtain ⟨word, others⟩ := List.forall_mem_append.1 words
      obtain ⟨s₁, first, more⟩ := returns_forM_cons.1 ran
      obtain ⟨stands, -⟩ := returns_mapArgument_lists lists first
      have frames := (along_mapArgument.returns first).arguments
      have same : s₁.arguments.sectionsAt = s.arguments.sectionsAt :=
        funext fun i => ArgumentList.sectionsAt_congr frames
      obtain ⟨new, n₁, taken, adds⟩ := taken_mapArgument lists h (by omega) here word first
      obtain ⟨new', n', taken', undo⟩ := ih (lists.congr frames) taken
        (by rw [List.length_append, same]; omega) (same ▸ later) (same ▸ others) more
      rw [same, List.append_assoc, ← List.append_assoc new'] at taken'
      refine ⟨new' ++ new, n', taken', fun t alike held => ?_⟩
      rw [List.append_assoc] at held
      have alike₁ : s₁.arguments.SameFrames t.arguments :=
        ⟨alike.descriptors.trans frames.descriptors.symm, alike.arguments.trans frames.arguments.symm⟩
      obtain ⟨left, leaves⟩ := undo t alike₁ held
      -- when the turn of this argument comes, the later ones are released
      have lodged : ∀ e ∈ s.arguments.sectionsAt index, l.Lodged (new ++ places) e := fun e he =>
        ⟨here e he, taken.lodged e (List.mem_append_right _ he)⟩
      have restored : ∀ p ∈ places, n p = Link.released n₁ (s.arguments.sectionsAt index) p := by
        intro p hp
        rw [Link.released, adds.old p hp, Nat.add_sub_cancel]
      have gone : ∀ p ∈ new, Link.released n₁ (s.arguments.sectionsAt index) p = 0 := fun p hp =>
        Nat.sub_eq_zero_of_le (adds.atMost p hp)
      have turn : ∀ {v : Unit} {t₁ : RegionState},
          Returns (rest.reverse.forM (unmapArgument settings)) t v t₁ →
          s.arguments.SameFrames t₁.arguments ∧
            t₁.arguments.sectionsAt index = s.arguments.sectionsAt index := by
        intro v t₁ before
        have kept := ((Along.forM (fun _ => along_unmapArgument) _).returns before).arguments
        have alike₂ : s.arguments.SameFrames t₁.arguments := kept ▸ alike
        exact ⟨alike₂, ArgumentList.sectionsAt_congr alike₂⟩
      rw [List.reverse_cons]
      refine ⟨fun v t' ran' => ?_, fun anchored => ?_⟩
      · obtain ⟨t₁, before, last⟩ := returns_forM_append.1 ran'
        obtain ⟨t₂, ran₂, finished⟩ := returns_forM_cons.1 last
        obtain ⟨-, rfl⟩ := returns_pure.1 finished
        obtain ⟨alike₂, own⟩ := turn before
        have after := held_of_unmapArgument (lists.congr alike₂) (stands.congr alike₂) (left _ t₁ before)
          (own ▸ lodged) ran₂
        rw [own] at after
        exact (after.drop gone).congr restored
      · obtain ⟨t₁, before⟩ := leaves fun before i after split => by
          have := anchored (index :: before) i after (by rw [split]; rfl)
          rw [List.flatMap_cons, ← List.append_assoc] at this
          rw [same]
          exact this
        obtain ⟨alike₂, own⟩ := turn before
        have anchor := anchored [] index rest rfl
        rw [List.flatMap_nil, List.append_nil] at anchor
        have enough : ∀ p ∈ new ++ places, p.touches (s.arguments.sectionsAt index) ≤ n₁ p := by
          intro p hp
          rcases List.mem_append.1 hp with hp | hp
          · exact Nat.le_of_eq (adds.exact anchor p hp).symm
          · exact adds.old p hp ▸ Nat.le_add_left _ _
        obtain ⟨t₂, ran₂⟩ := exists_unmapArgument (lists.congr alike₂) (stands.congr alike₂)
          (left _ t₁ before) (own ▸ lodged) (own ▸ enough)
        exact ⟨t₂, returns_forM_append.2
          ⟨t₁, before, returns_forM_cons.2 ⟨t₂, ran₂, returns_pure.2 ⟨rfl, rfl⟩⟩⟩⟩

end Region

end Offloading
