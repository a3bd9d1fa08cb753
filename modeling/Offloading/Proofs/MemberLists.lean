import Offloading.Proofs.MemberRegions
/-!
# Structs without data of their own

A struct that is mapped for its members only, followed by the members. Its section is padded down to the
alignment of structs, and the members are found in it. Entering a region maps the struct first, and leaving it
releases the struct last, so that all members move or stay by the count that the struct has in between.
-/

namespace Offloading

/-! ## The lists -/

namespace Argument

/-- A struct with the section that is mapped for it when members follow. -/
def padded (a : Argument) (settings : Settings) : Argument :=
  { a with
    start := a.start - a.start % settings.config.structAlignment
    size := a.size + a.start % settings.config.structAlignment }

variable {a : Argument} {settings : Settings}

theorem padded_start_le : (a.padded settings).start ≤ a.start := Nat.sub_le _ _

theorem padded_stop : (a.padded settings).start + (a.padded settings).size = a.start + a.size := by
  have pad := Nat.mod_le a.start settings.config.structAlignment
  change a.start - _ + (a.size + _) = _
  omega

end Argument

namespace ArgumentList

/-- The first argument is a struct like `head`, which is mapped explicitly and moves no bytes itself, and all
others are plain members inside of it. -/
structure StructMembers (args : ArgumentList) (head : Argument) : Prop where
  first : args.arguments[0]?.map Argument.frame = some head.frame
  several : 1 < args.size
  plain : head.Plain
  nonempty : 0 < head.size
  toDevice : head.mapType.has .toDevice = false
  fromDevice : head.mapType.has .fromDevice = false
  member : ∀ i a, args.arguments[i + 1]? = some a → a.Member 0
  inside : ∀ i a, args.arguments[i + 1]? = some a →
    head.start ≤ a.start ∧ a.start + a.size ≤ head.start + head.size
  /-- The struct ends within the address space. -/
  word : head.start + head.size ≤ Word.greatest

/-- Behind an argument of one list stands an argument of the other. -/
theorem SameFrames.exists_of_getElem? {args args' : ArgumentList} (same : args.SameFrames args') {i : Nat}
    {b : Argument} (hb : args'.arguments[i]? = some b) :
    ∃ a, args.arguments[i]? = some a ∧ a.start = b.start ∧ a.size = b.size ∧ a.mapType = b.mapType := by
  have frames := same.map i
  rw [hb] at frames
  obtain ⟨a, ha, frame⟩ := Option.map_eq_some_iff.1 frames.symm
  obtain ⟨start, rest⟩ := Prod.mk.inj frame
  obtain ⟨size, mapType⟩ := Prod.mk.inj rest
  exact ⟨a, ha, start, size, mapType⟩

/-- The positions behind the first one. -/
def followers (args : ArgumentList) : List Nat := List.range' 1 (args.size - 1)

theorem followers_congr {args args' : ArgumentList} (same : args.SameFrames args') :
    args'.followers = args.followers := by
  rw [followers, followers, same.size]

theorem nodup_followers {args : ArgumentList} : args.followers.Nodup := List.nodup_range'

theorem mem_followers {args : ArgumentList} {a : Argument} {i : Nat} (ha : args.arguments[i + 1]? = some a) :
    i + 1 ∈ args.followers := by
  obtain ⟨lt, -⟩ := List.getElem?_eq_some_iff.1 ha
  refine List.mem_range'_1.2 ⟨Nat.le_add_left 1 i, ?_⟩
  rw [ArgumentList.size]
  omega

theorem exists_of_mem_followers {args : ArgumentList} {i : Nat} (h : i ∈ args.followers) :
    ∃ j a, i = j + 1 ∧ args.arguments[j + 1]? = some a := by
  obtain ⟨lower, upper⟩ := List.mem_range'_1.1 h
  obtain ⟨j, rfl⟩ := Nat.exists_eq_add_of_le' lower
  have lt : j + 1 < args.arguments.length := by
    rw [ArgumentList.size] at upper
    omega
  exact ⟨j, _, rfl, List.getElem?_eq_getElem lt⟩

/-- A section at one of the positions holds the address, and its bytes move in the direction of the flag. -/
def MovesAt (args : ArgumentList) (indices : List Nat) (f : MapFlag) (sole : Bool) (addr : Nat) : Prop :=
  ∃ i ∈ indices, ∃ a, args.arguments[i]? = some a ∧ a.moves f sole = true ∧ a.hostSection.Holds addr

/-- A section with the flag holds the address. -/
def Moves (args : ArgumentList) (f : MapFlag) (addr : Nat) : Prop :=
  ∃ a ∈ args.arguments, a.mapType.has f = true ∧ a.hostSection.Holds addr

instance (args : ArgumentList) (f : MapFlag) (addr : Nat) : Decidable (args.Moves f addr) :=
  inferInstanceAs (Decidable (∃ a ∈ args.arguments, a.mapType.has f = true ∧ _ ≤ _ ∧ _ < _))

theorem moves_congr {args args' : ArgumentList} (same : args.SameFrames args') {f : MapFlag} :
    args'.Moves f = args.Moves f := by
  have frames : ∀ l : ArgumentList, l.Moves f = fun addr => ∃ e ∈ l.arguments.map Argument.frame,
      e.2.2.has f = true ∧ (⟨e.1, e.2.1⟩ : HostSection).Holds addr := fun l => by
    funext addr
    simp only [List.mem_map, exists_exists_and_eq_and]
    rfl
  rw [frames, frames, same.arguments]

namespace StructMembers

variable {args args' : ArgumentList} {head a : Argument} {i : Nat}

/-- What the list is does not depend on the bases of its arguments. -/
theorem congr (h : args.StructMembers head) (same : args.SameFrames args') : args'.StructMembers head where
  first := (same.map 0).trans h.first
  several := by
    rw [same.size]
    exact h.several
  plain := h.plain
  nonempty := h.nonempty
  toDevice := h.toDevice
  fromDevice := h.fromDevice
  member i a ha := by
    obtain ⟨b, hb, -, -, mapType⟩ := same.exists_of_getElem? ha
    exact (h.member i b hb).of_mapType mapType.symm
  inside i a ha := by
    obtain ⟨b, hb, start, size, -⟩ := same.exists_of_getElem? ha
    rw [← start, ← size]
    exact h.inside i b hb
  word := h.word

/-- The struct with the base that it has in the list. -/
theorem exists_head (h : args.StructMembers head) :
    ∃ base, args.arguments[0]? = some { head with base } := by
  obtain ⟨a, ha, frame⟩ := Option.map_eq_some_iff.1 h.first
  refine ⟨a.base, ha.trans (congrArg some ?_)⟩
  obtain ⟨start, rest⟩ := Prod.mk.inj frame
  obtain ⟨size, mapType⟩ := Prod.mk.inj rest
  rw [← start, ← size, ← mapType]

/-- The struct is padded, since members follow. -/
theorem headsStruct (h : args.StructMembers head) : args.headsStruct 0 = true := by
  obtain ⟨base, head'⟩ := h.exists_head
  have second := List.getElem?_eq_getElem h.several
  rw [ArgumentList.headsStruct, head', second, Option.bind_some, (h.member 0 _ second).parent]
  dsimp only
  rw [h.plain.member]
  rfl

/-- What is mapped for the struct is a plain region too. -/
theorem plain_padded {settings : Settings} (h : args.StructMembers head) : (head.padded settings).Plain := by
  obtain ⟨kind, explicit, nested, member, delete⟩ := h.plain
  exact ⟨kind, explicit, nested, member, delete⟩

/-- The struct comes first, and then the members do. -/
theorem range_size (h : args.StructMembers head) : List.range args.size = 0 :: args.followers := by
  obtain ⟨n, size⟩ := Nat.exists_eq_add_of_lt h.several
  rw [List.range_eq_range', followers, size]
  rfl

/-- What the mapping of the struct holds of a member is found. -/
theorem found_member {settings : Settings} {table : MappingTable} (h : args.StructMembers head)
    (wf : table.WellFormed) (holds : table.Holds (head.padded settings).start (head.padded settings).size)
    (ha : args.arguments[i + 1]? = some a) : a.size = 0 ∨ (table.lookup a.start a.size).isFound = true := by
  refine (Nat.eq_zero_or_pos a.size).imp_right fun pos => ?_
  obtain ⟨m, hm, lower, upper⟩ := holds
  obtain ⟨first, last⟩ := h.inside i a ha
  have word := h.word
  rw [Argument.padded_stop] at upper
  have begins := Nat.le_trans lower Argument.padded_start_le
  rw [Coverage.isFound, MappingTable.lookup_covered wf hm (by omega) (by omega) pos (by omega)]
  rfl

theorem mem_iff (h : args.StructMembers head) {f : MapFlag} (silent : head.mapType.has f = false) {addr : Nat} :
    args.Moves f addr ↔ ∃ i a, args.arguments[i + 1]? = some a ∧ a.mapType.has f = true ∧
      a.hostSection.Holds addr := by
  obtain ⟨base, head'⟩ := h.exists_head
  constructor
  · rintro ⟨a, ha, flag, holds⟩
    obtain ⟨i, ha⟩ := List.mem_iff_getElem?.1 ha
    cases i with
    | zero =>
        rw [head', Option.some.injEq] at ha
        subst ha
        rw [silent] at flag
        cases flag
    | succ i => exact ⟨i, a, ha, flag, holds⟩
  · rintro ⟨i, a, ha, flag, holds⟩
    exact ⟨a, List.mem_of_getElem? ha, flag, holds⟩

end StructMembers

end ArgumentList

namespace Region

open RegionM

variable {settings : Settings} {head a : Argument} {base : Nat} {s s' t t' : RegionState} {u : Unit}

theorem isPadded_head {args : ArgumentList} (list : args.StructMembers head) :
    isPadded args 0 { head with base } = true := by
  rw [isPadded, list.headsStruct, Bool.and_true]
  exact congrArg Bool.not list.plain.nested

/-! ## Entering -/

/-- Mapping the struct maps its padded section, and nothing is sent. -/
structure EnteredHead (settings : Settings) (head : Argument) (p : Placement) (s s' : RegionState) : Prop where
  pointer : p.pointer? = none
  content : p.content = []
  mapped : ∃ base r, Returns (Device.map (head.padded settings).start base (head.padded settings).size false true)
    s.activation.link r s'.activation.link
  queue : s'.activation.queue = s.activation.queue
  host : s'.host = s.host
  arguments : s.arguments.SameFrames s'.arguments

theorem entered_head (list : s.arguments.StructMembers head) (ran : Returns (mapArgument settings 0) s u s') :
    ∃ p, placementsAt settings 0 s = [p] ∧ EnteredHead settings head p s s' := by
  obtain ⟨base, here⟩ := list.exists_head
  have frames := (along_mapArgument.returns ran).arguments
  have plain := list.plain
  have nested : ({ head with base } : Argument).mapType.has .nested = false := plain.nested
  have mappedHead : ({ head with base } : Argument).isMapped = true := plain.isMapped
  rcases returns_mapArgument ran here nested with ⟨unmapped, -⟩ | ⟨-, base?, s₁, l, mapped, rfl, -⟩
  · rw [mappedHead] at unmapped
    cases unmapped
  rw [isPadded_head list] at mapped
  obtain ⟨p, s₂, placed, shipped, -⟩ := returns_mapRegion_place mapped mappedHead
  have padded : Returns (place settings false (({ head with base } : Argument).padded settings)) s p s₂ := placed
  have noPointer : (({ head with base } : Argument).padded settings).mapType.has .pointerAndObject = false :=
    plain.pointer
  have noContent : (({ head with base } : Argument).padded settings).mapType.has .toDevice = false :=
    list.toDevice
  obtain ⟨mapped?, l, content, took, decided, rfl, rfl⟩ := returns_place_section noPointer padded
  have empty : content = [] := by
    cases mapped? with
    | none => exact (returns_pure.1 decided).1
    | some m =>
        rw [contentIn, noContent] at decided
        exact (returns_pure.1 decided).1
  rw [show (({ head with base } : Argument).padded settings).mapType.has .implicit = false from plain.explicit,
    show (({ head with base } : Argument).padded settings).mapType.isMember = false from plain.member] at took
  have after := shipped.activation_of_silent rfl empty
  refine ⟨⟨(head.padded settings).start, (head.padded settings).size, base, none, mapped?.map (·.addr),
    content⟩, ?_, ⟨rfl, empty, ⟨base, mapped?, ?_⟩, ?_, shipped.host, frames⟩⟩
  · rw [placementsAt, ArgumentList.get_eq_ok.2 here, plans_of_get here nested]
    dsimp only [placementsOf, RegionPlan.resolve]
    rw [if_pos mappedHead, isPadded_head list, placement?, if_pos mappedHead, placed]
    rfl
  · rw [show ({ s₁ with arguments := _ } : RegionState).activation = s₁.activation from rfl, after]
    exact took
  · rw [show ({ s₁ with arguments := _ } : RegionState).activation = s₁.activation from rfl, after]
    rfl

/-- What mapping the members at some positions does: each of them is placed, and nothing else changes unless
bytes move. -/
structure EnteredMembers (settings : Settings) (head : Argument) (indices : List Nat) (s s' : RegionState) :
    Prop where
  sources : ∀ p ∈ placementsOn settings indices s, ∃ i ∈ indices, ∃ a, s.arguments.arguments[i]? = some a ∧
    p.OfMember s.activation.link.device.mappings s.host a
      (s.activation.link.device.mappings.soleOwner head.start)
  reached : ∀ i ∈ indices, ∀ a, s.arguments.arguments[i]? = some a → ∃ p ∈ placementsOn settings indices s,
    p.OfMember s.activation.link.device.mappings s.host a
      (s.activation.link.device.mappings.soleOwner head.start)
  host : s'.host = s.host
  arguments : s.arguments.SameFrames s'.arguments
  footprint : s'.activation.link.footprint = s.activation.link.footprint
  still : (∀ i a, s.arguments.arguments[i + 1]? = some a →
      a.moves .toDevice (s.activation.link.device.mappings.soleOwner head.start) = false) →
    s.activation.link.SameEntries s'.activation.link ∧ s'.activation.queue = s.activation.queue

theorem entered_members {indices : List Nat} (list : s.arguments.StructMembers head) (distinct : indices.Nodup)
    (within : indices ⊆ s.arguments.followers) (found : ∀ i a, s.arguments.arguments[i + 1]? = some a →
      a.size = 0 ∨ (s.activation.link.device.mappings.lookup a.start a.size).isFound = true)
    (ran : Returns (indices.forM (mapArgument settings)) s u s') :
    EnteredMembers settings head indices s s' := by
  induction indices generalizing s with
  | nil =>
      obtain ⟨-, rfl⟩ := returns_pure.1 ran
      exact ⟨List.forall_mem_nil _, List.forall_mem_nil _, rfl, .refl _, rfl, fun _ => ⟨.refl _, rfl⟩⟩
  | cons index rest ih =>
      obtain ⟨other, distinct'⟩ := List.nodup_cons.1 distinct
      obtain ⟨here, others⟩ := List.cons_subset.1 within
      obtain ⟨i, a, rfl, ha⟩ := ArgumentList.exists_of_mem_followers here
      obtain ⟨s₁, first, later⟩ := returns_forM_cons.1 ran
      obtain ⟨base, there⟩ := list.exists_head
      obtain ⟨⟨p, placed, of⟩, host, frames, footprint, still⟩ :=
        returns_mapArgument_member (list.member i a ha) there (found i a ha) ha first
      have after : (exec (mapArgument settings (i + 1)) s).2 = s₁ := congrArg Prod.snd first
      have kept : ∀ j ≠ i + 1, s₁.arguments.arguments[j]? = s.arguments.arguments[j]? :=
        (along_mapArgument.returns first).others
      have entries := (Link.footprint_eq_iff.1 footprint).2.1
      have found' : ∀ j b, s₁.arguments.arguments[j + 1]? = some b → b.size = 0 ∨
          (s₁.activation.link.device.mappings.lookup b.start b.size).isFound = true := by
        intro j b hb
        obtain ⟨c, hc, start, size, -⟩ := frames.exists_of_getElem? hb
        rw [MappingTable.lookup_congr entries, ← start, ← size]
        exact found j c hc
      have ends := ih (list.congr frames) distinct' (by rwa [ArgumentList.followers_congr frames]) found' later
      have sole : s₁.activation.link.device.mappings.soleOwner head.start =
          s.activation.link.device.mappings.soleOwner head.start := MappingTable.soleOwner_congr entries
      have kept' : ∀ j ∈ rest, s₁.arguments.arguments[j]? = s.arguments.arguments[j]? := fun j hj =>
        kept j fun same => other (same ▸ hj)
      refine ⟨?_, ?_, ends.host.trans host, frames.trans ends.arguments, ends.footprint.trans footprint,
        fun stays => ?_⟩
      · rw [placementsOn, placed, after]
        refine List.forall_mem_cons.2 ⟨⟨i + 1, List.mem_cons_self .., a, ha, of⟩, fun q hq => ?_⟩
        obtain ⟨j, hj, b, hb, ofb⟩ := ends.sources q hq
        rw [host, sole] at ofb
        exact ⟨j, List.mem_cons_of_mem _ hj, b, (kept' j hj).symm.trans hb, ofb.congr_entries entries⟩
      · rw [placementsOn, placed, after]
        refine List.forall_mem_cons.2 ⟨fun b hb => ?_, fun j hj b hb => ?_⟩
        · cases ha.symm.trans hb
          exact ⟨p, List.mem_cons_self .., of⟩
        · obtain ⟨q, hq, ofb⟩ := ends.reached j hj b ((kept' j hj).trans hb)
          rw [host, sole] at ofb
          exact ⟨q, List.mem_cons_of_mem _ hq, ofb.congr_entries entries⟩
      · obtain ⟨same, queue⟩ := still (stays i a ha)
        obtain ⟨same', queue'⟩ := ends.still fun j b hb => by
          obtain ⟨c, hc, -, -, mapType⟩ := frames.exists_of_getElem? hb
          rw [sole, Argument.moves, ← mapType]
          exact stays j c hc
        exact ⟨same.trans same', queue'.trans queue⟩

/-- Entering maps the struct, then its members, and sends what waits then. -/
theorem entered_of_enter (list : s.arguments.StructMembers head) (entered : Returns (enter settings) s u s') :
    ∃ p s₁ s₂ n, EnteredHead settings head p s s₁ ∧
      placements settings s = p :: placementsOn settings s₁.arguments.followers s₁ ∧
      Returns (s₁.arguments.followers.forM (mapArgument settings)) s₁ () s₂ ∧
      Returns settings.strategy.flush s₂.activation n s'.activation := by
  obtain ⟨s₂, n, mapped, flushed⟩ := returns_enter entered
  rw [list.range_size] at mapped
  obtain ⟨s₁, first, later⟩ := returns_forM_cons.1 mapped
  obtain ⟨p, placed, head⟩ := entered_head list first
  have after : (exec (mapArgument settings 0) s).2 = s₁ := congrArg Prod.snd first
  rw [← ArgumentList.followers_congr head.arguments] at later
  refine ⟨p, s₁, s₂, n, head, ?_, later, flushed⟩
  rw [placements, list.range_size, placementsOn, placed, after, ArgumentList.followers_congr head.arguments]
  rfl

/-! ## Leaving -/

/-- What releasing the members at some positions does: their bytes come back if they move, and nothing else
changes. The bytes of a host address are at `source` on the device. -/
structure LeftMembers (head : Argument) (source : Nat → Nat) (indices : List Nat) (t t' : RegionState) :
    Prop where
  link : t.activation.link.Counted t'.activation.link
  arguments : t'.arguments = t.arguments
  moved : ∀ addr, t.arguments.MovesAt indices .fromDevice
      (t.activation.link.device.mappings.soleOwner head.start) addr →
    t.activation.link.byte? (source addr) = some (t'.host.byte addr)
  stayed : ∀ addr, ¬ t.arguments.MovesAt indices .fromDevice
      (t.activation.link.device.mappings.soleOwner head.start) addr →
    t'.host.byte addr = t.host.byte addr

section followers

variable {indices : List Nat} (list : t.arguments.StructMembers head) (within : indices ⊆ t.arguments.followers)

include list within

theorem left_members {source : Nat → Nat} (wf : t.activation.link.accelerator.WellFormed)
    (placed : ∀ i a, t.arguments.arguments[i + 1]? = some a → ∀ m,
      (t.activation.link.device.mappings.lookup a.start a.size).mapping? = some m →
      ∀ j < a.size, m.translate a.start + j = source (a.start + j))
    (forgotten : ∀ i a, t.arguments.arguments[i + 1]? = some a →
      ∀ x ∈ t.activation.link.device.shadows, ¬ a.hostSection.Holds x.hostSlot)
    (ran : Returns (indices.forM (unmapArgument settings)) t u t') :
    LeftMembers head source indices t t' := by
  induction indices generalizing t with
  | nil =>
      obtain ⟨-, rfl⟩ := returns_pure.1 ran
      refine ⟨.refl _, rfl, fun _ moves => ?_, fun _ _ => rfl⟩
      obtain ⟨_, absent, _⟩ := moves
      exact absurd absent List.not_mem_nil
  | cons index rest ih =>
      obtain ⟨here, others⟩ := List.cons_subset.1 within
      obtain ⟨i, a, rfl, ha⟩ := ArgumentList.exists_of_mem_followers here
      obtain ⟨t₁, first, later⟩ := returns_forM_cons.1 ran
      obtain ⟨base, there⟩ := list.exists_head
      have member := list.member i a ha
      rw [Returns, exec_unmapArgument_member member ha] at first
      obtain ⟨counted, arguments⟩ := counted_unmapRegion_member member there first
      have taken := bytes_unmapRegion_member member there wf (placed i a ha) (forgotten i a ha) first
      have ends := ih (t := t₁) (by rwa [arguments]) (by rwa [arguments]) (counted.wellFormed wf)
        (by rwa [arguments, counted.mappings]) (by rwa [arguments, counted.shadows]) later
      obtain ⟨counted', arguments', moved, stayed⟩ := ends
      rw [arguments, counted.mappings] at moved stayed
      rw [counted.byte?] at moved
      refine ⟨counted.trans counted', arguments'.trans arguments, fun addr moves => ?_, fun addr none => ?_⟩
      · by_cases again : t.arguments.MovesAt rest .fromDevice
            (t.activation.link.device.mappings.soleOwner head.start) addr
        · exact moved addr again
        · obtain ⟨j, hj, b, hb, moving, holds⟩ := moves
          rcases List.mem_cons.1 hj with rfl | hj
          · cases ha.symm.trans hb
            have mine := taken addr
            rw [if_pos ⟨moving, holds⟩] at mine
            rw [stayed addr again, mine]
          · exact absurd ⟨j, hj, b, hb, moving, holds⟩ again
      · have mine := taken addr
        rw [if_neg fun moves => none ⟨i + 1, List.mem_cons_self .., a, ha, moves⟩] at mine
        rw [← mine]
        refine stayed addr fun moves => ?_
        obtain ⟨j, hj, moves⟩ := moves
        exact none ⟨j, List.mem_cons_of_mem _ hj, moves⟩

variable (found : ∀ i a, t.arguments.arguments[i + 1]? = some a → a.size = 0 ∨
  (t.activation.link.device.mappings.lookup a.start a.size).isFound = true)

include found

/-- All members can be released if the bytes can be read that move. -/
theorem exists_left_members (reliable : t.activation.link.accelerator.Reliable)
    (reads : ∀ i a, t.arguments.arguments[i + 1]? = some a → ∀ m,
      (t.activation.link.device.mappings.lookup a.start a.size).mapping? = some m →
      ∀ k, t.activation.link.Counted k → k.accelerator.Reliable →
        ∃ content k', Returns (Device.retrieve (m.translate a.start) a.size) k content k') :
    ∃ t', Returns (indices.forM (unmapArgument settings)) t () t' := by
  induction indices generalizing t with
  | nil => exact ⟨t, rfl⟩
  | cons index rest ih =>
      obtain ⟨here, others⟩ := List.cons_subset.1 within
      obtain ⟨i, a, rfl, ha⟩ := ArgumentList.exists_of_mem_followers here
      obtain ⟨base, there⟩ := list.exists_head
      have member := list.member i a ha
      obtain ⟨t₁, first⟩ : ∃ t₁, Returns (unmapRegion settings false a) t () t₁ :=
        exists_unmapRegion_member member there (found i a ha)
          fun m some _ => reads i a ha m some _ (.refl _) reliable
      obtain ⟨counted, arguments⟩ := counted_unmapRegion_member member there first
      have service := admits_sameService.toLeaves.unmapRegion.returns first
      obtain ⟨t', later⟩ := ih (t := t₁) (by rwa [arguments]) (by rwa [arguments])
        (by rwa [arguments, counted.mappings]) (Link.SameService.reliable service reliable)
        (by
          rw [arguments, counted.mappings]
          exact fun i a ha m some k same => reads i a ha m some k (counted.trans same))
      rw [Returns, ← exec_unmapArgument_member member ha] at first
      exact ⟨t', returns_forM_cons.2 ⟨t₁, first, later⟩⟩

/-- Releasing members that do not move does nothing. -/
theorem returns_left_members (stays : ∀ i a, t.arguments.arguments[i + 1]? = some a →
      a.moves .fromDevice (t.activation.link.device.mappings.soleOwner head.start) = false) :
    Returns (indices.forM (unmapArgument settings)) t () t := by
  induction indices with
  | nil => rfl
  | cons index rest ih =>
      obtain ⟨here, others⟩ := List.cons_subset.1 within
      obtain ⟨i, a, rfl, ha⟩ := ArgumentList.exists_of_mem_followers here
      obtain ⟨base, there⟩ := list.exists_head
      have member := list.member i a ha
      have still := stays i a ha
      obtain ⟨t₁, first⟩ : ∃ t₁, Returns (unmapRegion settings false a) t () t₁ :=
        exists_unmapRegion_member member there (found i a ha) fun m _ moves => by
          rw [show ({ head with base } : Argument).start = head.start from rfl, still] at moves
          cases moves
      have same : t₁ = t := by
        rcases returns_unmapRegion_member member there first with ⟨-, same⟩ | ⟨_, -, ⟨-, same⟩ | ⟨moves, -⟩⟩
        · exact same
        · exact same
        · rw [show ({ head with base } : Argument).start = head.start from rfl, still] at moves
          cases moves
      rw [same, Returns, ← exec_unmapArgument_member member ha] at first
      exact returns_forM_cons.2 ⟨t, first, ih others⟩

end followers

/-- Leaving releases the members, the last one first, and then the padded section of the struct. -/
theorem returns_leave_members (list : t.arguments.StructMembers head) :
    Returns (leave settings) t u t' ↔
      ∃ t₁, Returns (t.arguments.followers.reverse.forM (unmapArgument settings)) t () t₁ ∧
        Returns (releaseSection settings false (head.padded settings)) t₁ u t' := by
  have last : ∀ t₁, Returns (t.arguments.followers.reverse.forM (unmapArgument settings)) t () t₁ →
      exec (unmapArgument settings 0) t₁ = exec (releaseSection settings false (head.padded settings)) t₁ := by
    intro t₁ ran
    have plain : (head.padded settings).Plain := list.plain_padded
    rw [← unmapRegion_plain plain]
    have arguments := ((Along.forM (fun _ => along_unmapArgument) _).returns ran).arguments
    rw [← arguments] at list
    obtain ⟨base, here⟩ := list.exists_head
    rw [exec_unmapArgument_of_get here list.plain.nested list.plain.isMapped, isPadded_head list]
    refine congrArg (exec · t₁) (unmapRegion_rebase fun owns => ?_)
    rw [Argument.ownsSlot, list.plain.pointer, Bool.and_false, Bool.false_and] at owns
    cases owns
  rw [leave, returns_get_bind, list.range_size, List.reverse_cons, returns_forM_append]
  refine exists_congr fun t₁ => and_congr_right fun ran => ?_
  rw [returns_forM_cons, Returns, ← last t₁ ran]
  constructor
  · rintro ⟨t₂, first, done⟩
    rw [(returns_pure.1 done).2]
    exact first
  · exact fun first => ⟨t', first, rfl⟩

end Region

end Offloading
