import Offloading.Proofs.MemberLists
import Offloading.Proofs.Recording
/-!
# Structs that nobody else holds

If the padded section of a struct was not mapped before, then entering makes a mapping for it whose only
reference is the struct's own until the struct is released. So the members that go to the device do go there, the
members that come from the device do come back, and the mapping is removed in the end.
-/

namespace Offloading

/-! ## A section with one reference -/

namespace Link

variable {s : HostSection} {p : Mapping} {l k k' : Link} {addr i : Nat}

/-- Since `l`, a section was mapped for the first time: `p` is its mapping, which has a block of its own and one
reference, and no pointer in the section is remembered. -/
structure SoleHeld (s : HostSection) (p : Mapping) (l k : Link) : Prop where
  outstanding : l.Outstanding [p] [s] k
  own : p.IsOf s
  space : p.InSpace
  forgotten : ∀ x ∈ k.device.shadows, ¬ s.Holds x.hostSlot

namespace SoleHeld

/-- What neither mappings nor blocks nor remembered pointers show does not matter. -/
theorem congr (h : SoleHeld s p l k) (sound : k'.Sound) (footprint : k'.footprint = k.footprint)
    (shadows : ∀ x ∈ k'.device.shadows, x ∈ k.device.shadows) : SoleHeld s p l k' := by
  obtain ⟨occupied, fit, lodged, few⟩ := h.outstanding
  exact ⟨⟨occupied.still sound footprint, fit, lodged, few⟩, h.own, h.space,
    fun x hx => h.forgotten x (shadows x hx)⟩

theorem counted (h : SoleHeld s p l k) (counted : k.Counted k') : SoleHeld s p l k' :=
  h.congr (counted.sound h.outstanding.sound) counted.footprint fun _ hx => counted.shadows ▸ hx

theorem transferred (h : SoleHeld s p l k) (transferred : k.Transferred k') : SoleHeld s p l k' :=
  h.congr (transferred.still.sound h.outstanding.sound) transferred.still.footprint
    fun _ hx => transferred.extended.shadows ▸ hx

variable (h : SoleHeld s p l k)

include h

theorem contains_iff : p.contains addr = true ↔ s.Holds addr := by
  rw [Mapping.contains_iff, h.own.first, h.own.stop]
  rfl

theorem nonempty : 0 < s.size := by
  have pos := h.outstanding.fit.nonempty p (List.mem_singleton_self p)
  rw [h.own.first, h.own.stop, HostSection.stop] at pos
  omega

theorem holds_first : s.Holds s.first := ⟨Nat.le_refl _, Nat.lt_add_of_pos_right h.nonempty⟩

theorem touches : p.touches [s] = 1 := Mapping.touches_one (h.contains_iff.2 h.holds_first)

/-- The mapping is found at all addresses of the section. -/
theorem containing? (holds : s.Holds addr) : k.device.mappings.containing? addr = some (p.counted 1) := by
  have found := h.outstanding.containing?_place h.outstanding.fit (List.mem_singleton_self p)
    (by rw [h.touches]; exact Nat.one_pos) (h.contains_iff.2 holds)
  rwa [h.touches] at found

theorem lookup {size : Nat} (holds : s.Holds addr) :
    (k.device.mappings.lookup addr size).mapping? = some (p.counted 1) := by
  rw [MappingTable.lookup_of_containing? (h.containing? holds)]

theorem soleOwner (holds : s.Holds addr) : k.device.mappings.soleOwner addr = true := by
  rw [MappingTable.soleOwner, MappingTable.refCountAt?, h.containing? holds]
  rfl

theorem translate (holds : s.Holds addr) : p.translate addr = p.deviceBegin + (addr - s.first) := by
  rw [Mapping.translate_eq h.space (h.contains_iff.2 holds), h.own.first]

theorem translate? : k.device.translate? s.first s.size = some p.deviceBegin := by
  rw [Device.translate?, h.lookup h.holds_first, Option.map_some]
  change some (p.translate s.first) = _
  rw [h.translate h.holds_first, Nat.sub_self, Nat.add_zero]

theorem holds : k.device.mappings.Holds s.first s.size := by
  have found : (k.device.mappings.lookup s.first 0).mapping? = some (p.counted 1) := h.lookup h.holds_first
  refine ⟨p.counted 1, MappingTable.mem_of_lookup found, ?_, ?_⟩
  · exact Nat.le_of_eq h.own.first
  · exact Nat.le_of_eq h.own.stop.symm

theorem byte?_isSome (hi : i < s.size) : (k.byte? (p.deviceBegin + i)).isSome := by
  have mem : p.counted 1 ∈ k.device.mappings.among [p] :=
    (h.outstanding.mem_among h.outstanding.fit).2
      ⟨p, List.mem_singleton_self p, by rw [h.touches]; exact Nat.one_pos, by rw [h.touches]⟩
  have length : (p.counted 1).length = s.size := h.own.length
  exact (h.outstanding.backed h.outstanding.fit).byte?_isSome h.outstanding.sound_among mem (length ▸ hi)

theorem byte?_fresh (sound : l.Sound) : l.byte? (p.deviceBegin + i) = none :=
  h.outstanding.byte?_fresh h.outstanding.fit sound (List.mem_singleton_self p)
    (by rw [h.touches]; exact Nat.one_pos) (Nat.le_add_right _ _)

/-- Any part of the section can be read from the device. -/
theorem exists_retrieve {size : Nat} (holds : s.Holds addr) (upper : addr + size ≤ s.stop)
    (reliable : k.accelerator.Reliable) :
    ∃ content k', Returns (Device.retrieve (p.translate addr) size) k content k' :=
  h.outstanding.returns_retrieve (s := ⟨addr, size⟩) h.outstanding.fit (List.mem_singleton_self p)
    (h.contains_iff.2 holds) (by rw [h.touches]; exact Nat.one_pos) h.space (h.own.stop ▸ upper) reliable

end SoleHeld

/-- A section that nothing touches is mapped for the first time. -/
theorem exists_soleHeld {base : Nat} {r : Option MappedSection} (sound : l.Sound) (clear : l.Clear [s])
    (pos : 0 < s.size) (word : s.stop ≤ Word.greatest)
    (mapped : Returns (Device.map s.first base s.size false true) l r k)
    (space : ∀ m ∈ k.device.mappings, m.InSpace) : ∃ p, SoleHeld s p l k := by
  have untouched := clear.untouched s (List.mem_singleton_self s)
  obtain ⟨new, n, taken, adds⟩ := (Taken.start sound (n := fun _ => 0)).take (s := s)
    (show 0 < _ by decide) untouched word mapped
  rw [List.append_nil] at taken
  have own : ∀ p ∈ new, p.IsOf s := fun p hp => by
    obtain ⟨e, he, own⟩ := adds.own p hp
    rwa [List.mem_singleton.1 he] at own
  have anchored : HostSection.Anchored [] [s] := ⟨fun empty _ => by omega, trivial⟩
  have outstanding : l.Outstanding new [s] k := by
    refine ⟨taken.toOccupied.congr fun p hp => (adds.exact anchored p hp).symm, taken.fit, fun e he => ?_, ?_⟩
    · rw [List.mem_singleton.1 he]
      exact ⟨untouched, taken.lodged s (List.mem_singleton_self s)⟩
    · exact show 1 ≤ ReferenceCount.infinite.value / 2 by decide
  obtain ⟨p, hp, -⟩ := taken.lodged s (List.mem_singleton_self s) pos
  -- every place is the section itself, so there is but one
  have first : ∀ q ∈ new, q.contains s.first = true := fun q hq => by
    rw [Mapping.contains_iff, (own q hq).first, (own q hq).stop, HostSection.stop]
    omega
  have single : new = [p] := by
    refine List.perm_singleton.1 ((List.perm_ext_iff_of_nodup taken.fit.nodup (List.nodup_singleton p)).2 ?_)
    refine fun q => ⟨fun hq => ?_, fun hq => List.mem_singleton.1 hq ▸ hp⟩
    exact List.mem_singleton.2 (taken.fit.eq_of_contains hq hp (first q hq) (first p hp))
  subst single
  refine ⟨p, outstanding, own p hp, ?_, fun x hx => ?_⟩
  · have there := space _ (taken.mem hp (taken.held p hp))
    exact ⟨there.host, there.device⟩
  · rw [(Device.along_map.returns mapped).shadows] at hx
    exact clear.forgotten s (List.mem_singleton_self s) x hx

end Link

/-! ## Copies of members -/

namespace Link

variable {args args' : ArgumentList} {e : HostSection} {target : Nat} {l : Link} {m m' : HostMemory}

/-- The copy of a section at `target` holds the host's bytes of the arguments that go to the device, and zeros
elsewhere. -/
def CopiedIn (args : ArgumentList) (e : HostSection) (target : Nat) (m : HostMemory) (l : Link) : Prop :=
  ∀ i < e.size, l.byte? (target + i) =
    some (if args.Moves .toDevice (e.first + i) then m.byte (e.first + i) else 0)

/-- The host memory `m'` is `m` with the bytes of the arguments that come from the device, where the copy of a
section is at `target`. -/
def CopiedOut (args : ArgumentList) (e : HostSection) (target : Nat) (l : Link) (m m' : HostMemory) : Prop :=
  ∀ addr, if args.Moves .fromDevice addr then l.byte? (target + (addr - e.first)) = some (m'.byte addr)
    else m'.byte addr = m.byte addr

theorem CopiedOut.congr (h : CopiedOut args' e target l m m') (same : args.SameFrames args') :
    CopiedOut args e target l m m' := by
  intro addr
  have here := h addr
  by_cases moves : args.Moves .fromDevice addr
  · rw [if_pos (by rwa [ArgumentList.moves_congr same])] at here
    rwa [if_pos moves]
  · rw [if_neg (by rwa [ArgumentList.moves_congr same])] at here
    rwa [if_neg moves]

end Link

/-! ## Entering -/

namespace Argument

variable {a : Argument} {f : MapFlag}

theorem moves_sole : a.moves f true = a.mapType.has f := by
  rw [moves, Bool.or_true, Bool.and_true]

end Argument

namespace ArgumentList.StructMembers

variable {args : ArgumentList} {head : Argument} {settings : Settings} {i addr : Nat} {a : Argument}
  {f : MapFlag}

variable (h : args.StructMembers head)

include h

/-- The members lie in the padded section. -/
theorem holds_padded (ha : args.arguments[i + 1]? = some a) (holds : a.hostSection.Holds addr) :
    (head.padded settings).hostSection.Holds addr := by
  obtain ⟨lower, upper⟩ := holds
  obtain ⟨first, last⟩ := h.inside i a ha
  have stop : (head.padded settings).hostSection.stop = head.start + head.size := Argument.padded_stop
  refine ⟨Nat.le_trans Argument.padded_start_le (Nat.le_trans first lower), ?_⟩
  rw [stop]
  exact Nat.lt_of_lt_of_le upper last

theorem head_holds_padded : (head.padded settings).hostSection.Holds head.start := by
  have stop : (head.padded settings).hostSection.stop = head.start + head.size := Argument.padded_stop
  refine ⟨Argument.padded_start_le, ?_⟩
  rw [stop]
  exact Nat.lt_add_of_pos_right h.nonempty

/-- If nobody else holds the struct, all members move that have the flag. -/
theorem movesAt_followers (silent : head.mapType.has f = false) :
    args.MovesAt args.followers.reverse f true addr ↔ args.Moves f addr := by
  rw [h.mem_iff silent]
  constructor
  · rintro ⟨j, hj, a, ha, moves, holds⟩
    obtain ⟨i, -, rfl, -⟩ := ArgumentList.exists_of_mem_followers (List.mem_reverse.1 hj)
    rw [Argument.moves_sole] at moves
    exact ⟨i, a, ha, moves, holds⟩
  · rintro ⟨i, a, ha, flag, holds⟩
    exact ⟨i + 1, List.mem_reverse.2 (ArgumentList.mem_followers ha), a, ha, by rwa [Argument.moves_sole], holds⟩

end ArgumentList.StructMembers

/-- The bytes of a chunk that host memory is read for. -/
theorem Chunk.byte?_read {host : HostMemory} {target first size x : Nat} {v : UInt8} :
    Chunk.byte? ⟨target, host.read first size⟩ x = some v ↔
      ∃ j < size, x = target + j ∧ v = host.byte (first + j) := by
  rw [Chunk.byte?_eq_some_iff]
  constructor
  · rintro ⟨lower, found⟩
    obtain ⟨inside, -⟩ := List.getElem?_eq_some_iff.1 found
    dsimp only at lower found inside
    rw [HostMemory.length_read] at inside
    rw [HostMemory.getElem?_read inside, Option.some.injEq] at found
    exact ⟨x - target, inside, (Nat.add_sub_cancel' lower).symm, found.symm⟩
  · rintro ⟨j, hj, rfl, rfl⟩
    refine ⟨Nat.le_add_right _ _, ?_⟩
    dsimp only
    rw [Nat.add_sub_cancel_left, HostMemory.getElem?_read hj]

/-- What is sent for a member of a struct that nobody else holds are its host bytes, if it goes to the device. -/
theorem Placement.OfMember.byte?_sole {e : HostSection} {p : Mapping} {l k : Link} {host : HostMemory}
    {a : Argument} {q : Placement} {target x : Nat} {v : UInt8} (held : Link.SoleHeld e p l k)
    (of : q.OfMember k.device.mappings host a true) (inside : ∀ addr, a.hostSection.Holds addr → e.Holds addr)
    (ht : q.target? = some target) : Chunk.byte? ⟨target, q.content⟩ x = some v ↔
      a.mapType.has .toDevice = true ∧ ∃ addr, a.hostSection.Holds addr ∧
        x = p.deviceBegin + (addr - e.first) ∧ v = host.byte addr := by
  have content := of.content
  rw [ht, Option.isSome_some, Bool.true_and, Argument.moves_sole] at content
  rw [content]
  cases a.mapType.has .toDevice with
  | false => exact ⟨fun h => absurd (Chunk.bounds_of_byte? h).2 (Nat.not_lt.2 (Chunk.bounds_of_byte? h).1), nofun⟩
  | true =>
      rw [if_pos rfl, Chunk.byte?_read]
      have place : ∀ j < a.size, a.hostSection.Holds (a.start + j) ∧
          target + j = p.deviceBegin + (a.start + j - e.first) := by
        intro j hj
        have first := inside a.start ⟨Nat.le_refl _, Nat.lt_add_of_pos_right (Nat.zero_lt_of_lt hj)⟩
        have found := of.target
        rw [held.lookup first, ht] at found
        have same : target = p.translate a.start := Option.some.inj found
        rw [held.translate first] at same
        refine ⟨⟨Nat.le_add_right _ _, Nat.add_lt_add_left hj _⟩, ?_⟩
        have lower := first.1
        omega
      constructor
      · rintro ⟨j, hj, rfl, rfl⟩
        exact ⟨rfl, a.start + j, (place j hj).1, (place j hj).2, rfl⟩
      · rintro ⟨-, addr, ⟨lower, upper⟩, rfl, rfl⟩
        obtain ⟨j, rfl⟩ := Nat.exists_eq_add_of_le (show a.start ≤ addr from lower)
        have hj : j < a.size := Nat.lt_of_add_lt_add_left upper
        exact ⟨j, hj, (place j hj).2.symm, rfl⟩

namespace Region

open RegionM

variable {settings : Settings} {head : Argument} {s s₁ s₂ s' : RegionState} {u : Unit} {x : Nat} {v : UInt8}
  {p : Mapping} {l : Link}

/-- What is sent for the members are the host's bytes of those that go to the device. -/
theorem shows_members (list : s₁.arguments.StructMembers head)
    (held : l.SoleHeld (head.padded settings).hostSection p s₁.activation.link)
    (members : EnteredMembers settings head s₁.arguments.followers s₁ s₂) :
    Chunk.Shows (Parcel.copies ((placementsOn settings s₁.arguments.followers s₁).flatMap
        (Placement.parcels settings))) x v ↔
      ∃ addr, s₁.arguments.Moves .toDevice addr ∧ x = p.deviceBegin + (addr - (head.padded settings).start) ∧
        v = s₁.host.byte addr := by
  have sources := members.sources
  have reached := members.reached
  rw [held.soleOwner list.head_holds_padded] at sources reached
  constructor
  · rintro ⟨c, hc, shown⟩
    obtain ⟨q, hq, sent⟩ := List.mem_flatMap.1 (Parcel.mem_copies.1 hc).1
    obtain ⟨target, ht, rfl⟩ := Placement.mem_parcels_copy sent
    obtain ⟨j, hj, a, ha, of⟩ := sources q hq
    obtain ⟨i, -, rfl, -⟩ := ArgumentList.exists_of_mem_followers hj
    obtain ⟨flag, addr, holds, at', value⟩ := (of.byte?_sole held (fun _ => list.holds_padded ha) ht).1 shown
    exact ⟨addr, (list.mem_iff list.toDevice).2 ⟨i, a, ha, flag, holds⟩, at', value⟩
  · rintro ⟨addr, moves, at', value⟩
    obtain ⟨i, a, ha, flag, holds⟩ := (list.mem_iff list.toDevice).1 moves
    obtain ⟨q, hq, of⟩ := reached (i + 1) (ArgumentList.mem_followers ha) a ha
    have first : (head.padded settings).hostSection.Holds a.start := list.holds_padded ha
      ⟨Nat.le_refl _, Nat.lt_of_le_of_lt holds.1 holds.2⟩
    have ht : q.target? = some (p.translate a.start) := by
      rw [of.target, held.lookup first]
      rfl
    have shown := (of.byte?_sole held (fun _ => list.holds_padded ha) ht).2 ⟨flag, addr, holds, at', value⟩
    refine ⟨⟨p.translate a.start, q.content⟩, Parcel.mem_copies.2 ⟨List.mem_flatMap.2 ⟨q, hq,
      List.mem_append_left _ ?_⟩, fun none => ?_⟩, shown⟩
    · rw [ht]
      exact List.mem_cons_self ..
    · obtain ⟨lower, upper⟩ := Chunk.bounds_of_byte? shown
      dsimp only at none lower upper
      rw [none, List.length_nil] at upper
      omega

section entered

variable (sound : s.activation.link.Sound) (idle : s.activation.queue = {})
  (list : s.arguments.StructMembers head)
  (clear : s.activation.link.Clear [(head.padded settings).hostSection])
  (entered : Returns (enter settings) s u s')
  (space : ∀ m ∈ s'.activation.link.device.mappings, m.InSpace)

include sound idle list clear entered space

/-- The padded section is mapped for the first time. No pointers are sent, and the copies that are sent carry
the host's bytes of the members that go to the device. -/
theorem soleHeld_enter : ∃ p, Link.SoleHeld (head.padded settings).hostSection p s.activation.link
      s'.activation.link ∧
    (∀ q ∈ placements settings s, q.pointer? = none) ∧
    ∀ x v, Chunk.Shows (Parcel.copies ((placements settings s).flatMap (Placement.parcels settings))) x v ↔
      ∃ addr, s.arguments.Moves .toDevice addr ∧ x = p.deviceBegin + (addr - (head.padded settings).start) ∧
        v = s.host.byte addr := by
  obtain ⟨q₀, s₁, s₂, n, first, placed, later, flushed⟩ := entered_of_enter list entered
  obtain ⟨base, r, took⟩ := first.mapped
  have flush := (Strategy.along_flush settings.strategy).returns flushed
  have grown₁ := Device.along_map.returns took
  have space₁ : ∀ m ∈ s₁.activation.link.device.mappings, m.InSpace := by
    intro m hm
    have wf := (grown₁.toGrown.sound sound).mappings
    obtain ⟨n, hn, same⟩ := ((along_mapArguments _).returns later).link.mappings.sections wf m hm
    have there := space n (flush.mappings ▸ hn)
    exact ⟨same.hostEnd ▸ there.host, same.deviceBegin ▸ same.length ▸ there.device⟩
  have list₁ := list.congr first.arguments
  have word : (head.padded settings).hostSection.stop ≤ Word.greatest :=
    Nat.le_trans (Nat.le_of_eq Argument.padded_stop) list.word
  obtain ⟨p, held⟩ := Link.exists_soleHeld sound clear (Nat.add_pos_left list.nonempty _) word took space₁
  have members := entered_members list₁ ArgumentList.nodup_followers (List.Subset.refl _)
    (fun i a ha => list₁.found_member held.outstanding.sound.mappings held.holds ha) later
  have pointerless : ∀ q ∈ placements settings s, q.pointer? = none := by
    rw [placed]
    refine List.forall_mem_cons.2 ⟨first.pointer, fun q hq => ?_⟩
    obtain ⟨_, -, a, -, of⟩ := members.sources q hq
    exact of.pointer
  refine ⟨p, held.congr ?_ (flush.footprint.trans members.footprint) fun x hx => ?_, pointerless, fun x v => ?_⟩
  · exact ((along_enter settings).returns entered).link.sound sound
  · have records := (records_enter settings idle).shadows x
    rw [entered] at records
    rw [grown₁.shadows]
    rcases records hx with old | ⟨q, hq, slot, some, -⟩
    · exact old
    · rw [pointerless q hq] at some
      cases some
  · have shows := shows_members (x := x) (v := v) list₁ held members
    have silent : Parcel.copies (q₀.parcels settings) = [] := by
      refine List.eq_nil_iff_forall_not_mem.2 fun c hc => ?_
      obtain ⟨sent, some⟩ := Parcel.mem_copies.1 hc
      obtain ⟨_, -, rfl⟩ := Placement.mem_parcels_copy sent
      exact some first.content
    rw [ArgumentList.moves_congr first.arguments, first.host] at shows
    rw [placed, List.flatMap_cons, Parcel.copies_append, silent, List.nil_append]
    exact shows

/-- The copy of the struct holds the host's bytes of the members that go to the device, and zeros elsewhere. -/
theorem byte_enter_sole : ∃ p, Link.SoleHeld (head.padded settings).hostSection p s.activation.link
      s'.activation.link ∧
    Link.CopiedIn s.arguments (head.padded settings).hostSection p.deviceBegin s.host s'.activation.link := by
  obtain ⟨p, held, pointerless, shows⟩ := soleHeld_enter sound idle list clear entered space
  refine ⟨p, held, fun i hi => ?_⟩
  have inside : ∀ addr, s.arguments.Moves .toDevice addr → (head.padded settings).start ≤ addr := by
    intro addr moves
    obtain ⟨j, a, ha, -, holds⟩ := (list.mem_iff list.toDevice).1 moves
    exact (list.holds_padded ha holds).1
  -- different host addresses have different places
  have place : ∀ addr, s.arguments.Moves .toDevice addr →
      p.deviceBegin + i = p.deviceBegin + (addr - (head.padded settings).start) →
      addr = (head.padded settings).start + i := by
    intro addr moves same
    have lower := inside addr moves
    omega
  have consistent : Chunk.Consistent
      (Parcel.copies ((placements settings s).flatMap (Placement.parcels settings))) := by
    intro x v w hv hw
    obtain ⟨addr, moves, rfl, rfl⟩ := (shows _ _).1 hv
    obtain ⟨addr', moves', same, rfl⟩ := (shows _ _).1 hw
    have lower := inside addr moves
    have lower' := inside addr' moves'
    rw [show addr = addr' by omega]
  have unpatched : ∀ q ∈ placements settings s, q.patch? settings = none := fun q hq => by
    rw [Placement.patch?, pointerless q hq]
    exact ite_self none
  rw [byte_enter_consistent unpatched sound idle entered consistent]
  split
  · rename_i moves
    rw [consistent.written_eq_some_iff.2 ((shows _ _).2 ⟨_, moves,
      congrArg (p.deviceBegin + ·) (Nat.add_sub_cancel_left ..).symm, rfl⟩), Option.some_or]
  · rename_i stays
    have unwritten : Chunk.written (Parcel.copies ((placements settings s).flatMap (Placement.parcels settings)))
        (p.deviceBegin + i) = none := by
      refine Option.eq_none_iff_forall_ne_some.2 fun w hw => ?_
      obtain ⟨addr, moves, same, -⟩ := (shows _ _).1 (Chunk.shows_of_written hw)
      exact stays (place addr moves same ▸ moves)
    obtain ⟨v, hv⟩ := Option.isSome_iff_exists.1 (held.byte?_isSome hi)
    rw [unwritten, Option.none_or, Link.blank, held.byte?_fresh sound, Option.none_or, hv, Option.map_some]

end entered

/-! ## Leaving -/

section left

variable {t t' : RegionState} (list : t.arguments.StructMembers head)
  (held : l.SoleHeld (head.padded settings).hostSection p t.activation.link)

include list held

/-- A member that is not empty is found in the mapping of the struct. -/
theorem found_sole {i : Nat} {a : Argument} {m : Mapping} (ha : t.arguments.arguments[i + 1]? = some a)
    (pos : 0 < a.size)
    (found : (t.activation.link.device.mappings.lookup a.start a.size).mapping? = some m) :
    (head.padded settings).hostSection.Holds a.start ∧ m = p.counted 1 := by
  have first : (head.padded settings).hostSection.Holds a.start :=
    list.holds_padded ha ⟨Nat.le_refl _, Nat.lt_add_of_pos_right pos⟩
  rw [held.lookup first, Option.some.injEq] at found
  exact ⟨first, found.symm⟩

/-- The bytes of the members are found at their place in the copy of the struct. -/
theorem left_members_sole {t₁ : RegionState}
    (released : Returns (t.arguments.followers.reverse.forM (unmapArgument settings)) t () t₁) :
    LeftMembers head (fun addr => p.deviceBegin + (addr - (head.padded settings).start))
      t.arguments.followers.reverse t t₁ := by
  refine left_members list (List.reverse_subset.2 (List.Subset.refl _)) held.outstanding.sound.accelerator
    (fun i a ha m found j hj => ?_)
    (fun i a ha x hx holds => held.forgotten x hx (list.holds_padded ha holds)) released
  obtain ⟨first, rfl⟩ := found_sole list held ha (Nat.zero_lt_of_lt hj) found
  have lower := first.1
  change p.translate a.start + j = _
  rw [held.translate first]
  change (head.padded settings).start ≤ _ at lower
  change p.deviceBegin + (a.start - (head.padded settings).start) + j = _
  omega

omit held in
theorem gentle_padded : Gentle [p] [] (head.padded settings) := by
  have plain : (head.padded settings).Plain := list.plain_padded
  refine ⟨plain.member, fun delete => ?_⟩
  rw [plain.delete] at delete
  cases delete

/-- Leaving copies back the members that come from the device, and the mapping is removed. -/
theorem returns_leave_sole (ran : Returns (leave settings) t u t') :
    t'.activation.link.footprint = l.footprint ∧
      t.activation.link.CopiedOut t.arguments (head.padded settings).hostSection p.deviceBegin t.host
        t'.host := by
  obtain ⟨t₁, released, last⟩ := (returns_leave_members list).1 ran
  have left := left_members_sole list held released
  obtain ⟨outstanding, cases⟩ :=
    released_of_releaseSection (gentle_padded list) (held.counted left.link).outstanding last
  -- the section of the struct itself does not come back
  have host : t'.host = t₁.host := by
    rcases cases with ⟨-, -, rfl⟩ | ⟨_, -, -, vacated⟩
    · rfl
    · refine vacated.kept ?_
      rw [comesBack, show (head.padded settings).mapType.has .fromDevice = false from list.fromDevice,
        Bool.false_and]
  refine ⟨outstanding.footprint, fun addr => ?_⟩
  have moved := left.moved addr
  have stayed := left.stayed addr
  rw [held.soleOwner list.head_holds_padded, list.movesAt_followers list.fromDevice, ← host] at moved stayed
  split
  · rename_i moves
    exact moved moves
  · rename_i stays
    exact stayed stays

/-- It can be left if the device does its calls. -/
theorem exists_leave_sole (reliable : t.activation.link.accelerator.Reliable) :
    ∃ t', Returns (leave settings) t () t' := by
  have sound := held.outstanding.sound
  obtain ⟨t₁, released⟩ : ∃ t₁, Returns (t.arguments.followers.reverse.forM (unmapArgument settings)) t () t₁ := by
    refine exists_left_members list (List.reverse_subset.2 (List.Subset.refl _))
      (fun i a ha => list.found_member sound.mappings held.holds ha) reliable fun i a ha m found k same serves => ?_
    by_cases empty : a.size = 0
    · rw [empty]
      exact ⟨[], k, rfl⟩
    · obtain ⟨first, rfl⟩ := found_sole list held ha (Nat.pos_of_ne_zero empty) found
      have stop : (head.padded settings).hostSection.stop = head.start + head.size := Argument.padded_stop
      exact (held.counted same).exists_retrieve first (stop ▸ (list.inside i a ha).2) serves
  have service := (Along.forM (fun _ => admits_sameService.toLeaves.unmapArgument) _).returns released
  obtain ⟨t', last⟩ := exists_releaseSection (fun q hq => List.mem_singleton.1 hq ▸ held.space)
    (Link.SameService.reliable service reliable) (gentle_padded list)
    (held.counted (left_members_sole list held released).link).outstanding
  exact ⟨t', (returns_leave_members list).2 ⟨t₁, released, last⟩⟩

end left

end Region

end Offloading
