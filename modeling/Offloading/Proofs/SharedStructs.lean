import Offloading.Proofs.SoleStructs
/-!
# Structs that somebody else holds

If the padded section of a struct lies in a mapping already, then entering takes one more reference on it. Until
the struct is released, more than one reference holds the mapping, so that no member moves unless it always does.
Leaving gives the reference back.
-/

namespace Offloading

namespace Link

variable {e : HostSection} {m : Mapping} {l k k' : Link} {addr size : Nat}

/-- Since `l`, one more reference was taken on a mapping `m` that covers the section. -/
structure SharedHeld (e : HostSection) (m : Mapping) (l k : Link) : Prop where
  wellFormed : l.device.mappings.WellFormed
  mem : m ∈ l.device.mappings
  lower : m.hostBegin ≤ e.first
  upper : e.stop ≤ m.hostEnd
  word : e.stop ≤ Word.greatest
  entries : k.device.mappings.entries = (l.device.mappings.setCount m m.refCount.increment).entries

namespace SharedHeld

theorem congr (h : SharedHeld e m l k) (same : k'.device.mappings.entries = k.device.mappings.entries) :
    SharedHeld e m l k' :=
  ⟨h.wellFormed, h.mem, h.lower, h.upper, h.word, same.trans h.entries⟩

variable (h : SharedHeld e m l k)

include h

theorem count_pos : 0 < m.refCount.value := h.wellFormed.held m h.mem

theorem wellFormed' : k.device.mappings.WellFormed :=
  MappingTable.wellFormed_of_entries h.entries
    (h.wellFormed.setCount h.mem (ReferenceCount.increment_pos h.count_pos))

theorem mem' : { m with refCount := m.refCount.increment } ∈ k.device.mappings :=
  (MappingTable.mem_congr h.entries).2 (MappingTable.mem_setCount.2 (.inl rfl))

theorem holds : k.device.mappings.Holds e.first e.size := ⟨_, h.mem', h.lower, h.upper⟩

theorem containing? (holds : e.Holds addr) :
    k.device.mappings.containing? addr = some { m with refCount := m.refCount.increment } := by
  obtain ⟨lower, upper⟩ := holds
  refine h.wellFormed'.containing?_eq h.mem' (Mapping.contains_iff.2 ⟨Nat.le_trans h.lower lower, ?_⟩) ?_
  · exact Nat.lt_of_lt_of_le upper h.upper
  · exact Nat.lt_of_lt_of_le upper h.word

theorem lookup (holds : e.Holds addr) : (k.device.mappings.lookup addr size).mapping? =
    some { m with refCount := m.refCount.increment } := by
  rw [MappingTable.lookup_of_containing? (h.containing? holds)]

/-- Nobody is the only owner of the mapping. -/
theorem soleOwner (holds : e.Holds addr) : k.device.mappings.soleOwner addr = false := by
  rw [MappingTable.soleOwner, MappingTable.refCountAt?, h.containing? holds]
  exact beq_false_of_ne (ReferenceCount.increment_ne_one h.count_pos)

/-- The reference can be given back, which leaves the mappings as they were. -/
theorem returns_hold (holds : e.Holds e.first)
    (finite : m.refCount.increment.isInfinite = true → m.refCount.isInfinite = true) :
    ∃ k', Returns (Device.hold e.first e.size true) k (some ⟨m.translate e.first, false⟩) k' ∧
      k' = k.withMappings k'.device.mappings ∧ k'.device.mappings.entries = l.device.mappings.entries := by
  refine ⟨k.withMappings (k.device.mappings.setCount { m with refCount := m.refCount.increment }
    m.refCount.increment.decrement), ?_, rfl, ?_⟩
  · rw [Device.hold, DeviceM.returns_device_bind, h.lookup holds]
    dsimp only
    rw [ReferenceCount.isLast_increment h.count_pos, Bool.not_false, Bool.and_true, if_pos rfl]
    exact returns_bind.2 ⟨(), _, DeviceM.returns_modifyMappings.2 rfl, returns_pure.2 ⟨rfl, rfl⟩⟩
  · change k.device.mappings.entries.insert _ = _
    rw [h.entries, ReferenceCount.decrement_increment finite]
    exact MappingTable.setCount_setCount.trans (congrArg MappingTable.entries (MappingTable.setCount_self h.mem))

end SharedHeld

/-- A section that a mapping covers is mapped once more. -/
theorem sharedHeld_of_map {base : Nat} {r : Option MappedSection} (wf : l.device.mappings.WellFormed)
    (mem : m ∈ l.device.mappings) (lower : m.hostBegin ≤ e.first) (upper : e.stop ≤ m.hostEnd)
    (word : e.stop ≤ Word.greatest) (pos : 0 < e.size)
    (mapped : Returns (Device.map e.first base e.size false true) l r k) :
    SharedHeld e m l k ∧ k = l.withMappings k.device.mappings := by
  rw [HostSection.stop] at upper word
  have covered := MappingTable.lookup_covered wf mem lower upper pos (by omega)
  rcases Device.returns_map mapped with ⟨m', found, -, -, rfl⟩ | ⟨none, -⟩ | ⟨none, -⟩
  · cases covered.symm.trans found
    exact ⟨⟨wf, mem, lower, upper, word, rfl⟩, rfl⟩
  · cases covered.symm.trans none
  · cases covered.symm.trans none

end Link

namespace ArgumentList

/-- No argument behind the first one always moves. -/
def Unforced (args : ArgumentList) : Prop :=
  ∀ i a, args.arguments[i + 1]? = some a → a.mapType.has .always = false

theorem Unforced.congr {args args' : ArgumentList} (h : args.Unforced) (same : args.SameFrames args') :
    args'.Unforced := by
  intro i b hb
  obtain ⟨a, ha, -, -, mapType⟩ := same.exists_of_getElem? hb
  rw [← mapType]
  exact h i a ha

/-- Such arguments stay where they are if the struct that they are members of has several owners. -/
theorem Unforced.stays {args : ArgumentList} (h : args.Unforced) {i : Nat} {a : Argument} {f : MapFlag}
    (ha : args.arguments[i + 1]? = some a) : a.moves f false = false := by
  rw [Argument.moves, h i a ha, Bool.or_false, Bool.and_false]

end ArgumentList

namespace Region

open RegionM

variable {settings : Settings} {head : Argument} {s s' t : RegionState} {u : Unit} {m : Mapping} {l : Link}

/-- Nothing waits that could be sent. -/
theorem link_flush_idle {strategy : Strategy} {a a' : Activation} {n : Nat} (idle : a.queue = {})
    (flushed : Returns strategy.flush a n a') : a'.link = a.link := by
  cases strategy with
  | immediate => rw [(returns_pure.1 flushed).2]
  | bulk =>
      obtain ⟨_, l₁, copied, patched⟩ := Strategy.returns_flush flushed
      rw [idle] at copied patched
      rw [(returns_pure.1 patched).2, (returns_pure.1 copied).2]

/-- Entering takes a reference on the mapping that covers the struct, and no byte moves. -/
theorem sharedHeld_enter (sound : s.activation.link.Sound) (idle : s.activation.queue = {})
    (list : s.arguments.StructMembers head) (mem : m ∈ s.activation.link.device.mappings)
    (lower : m.hostBegin ≤ (head.padded settings).start)
    (upper : (head.padded settings).hostSection.stop ≤ m.hostEnd)
    (unforced : s.arguments.Unforced)
    (entered : Returns (enter settings) s u s') :
    Link.SharedHeld (head.padded settings).hostSection m s.activation.link s'.activation.link ∧
      s'.activation.link = s.activation.link.withMappings s'.activation.link.device.mappings ∧
      s'.host = s.host := by
  obtain ⟨q, s₁, s₂, n, first, -, later, flushed⟩ := entered_of_enter list entered
  obtain ⟨base, r, took⟩ := first.mapped
  have list₁ := list.congr first.arguments
  have word : (head.padded settings).hostSection.stop ≤ Word.greatest :=
    Nat.le_trans (Nat.le_of_eq Argument.padded_stop) list.word
  obtain ⟨held, rest⟩ := Link.sharedHeld_of_map (e := (head.padded settings).hostSection) sound.mappings mem lower
    upper word (Nat.add_pos_left list.nonempty _) took
  have members := entered_members list₁ ArgumentList.nodup_followers (List.Subset.refl _)
    (fun i a ha => list₁.found_member held.wellFormed' held.holds ha) later
  obtain ⟨same, queue⟩ := members.still fun i a ha => by
    rw [held.soleOwner list.head_holds_padded]
    exact (unforced.congr first.arguments).stays ha
  have sent : s'.activation.link = s₂.activation.link :=
    link_flush_idle (queue.trans (first.queue.trans idle)) flushed
  refine ⟨held.congr ?_, ?_, ((along_enter _).returns entered).host⟩
  · rw [sent]
    exact same.entries
  · rw [sent, same.rest, rest]
    rfl

/-- Leaving gives the reference back, and no byte moves. -/
theorem leave_shared (list : t.arguments.StructMembers head)
    (held : Link.SharedHeld (head.padded settings).hostSection m l t.activation.link)
    (finite : m.refCount.increment.isInfinite = true → m.refCount.isInfinite = true)
    (unforced : t.arguments.Unforced) :
    ∃ t', Returns (leave settings) t () t' ∧
      t'.activation.link = t.activation.link.withMappings t'.activation.link.device.mappings ∧
      t'.activation.link.device.mappings.entries = l.device.mappings.entries ∧ t'.host = t.host := by
  have within : t.arguments.followers.reverse ⊆ t.arguments.followers :=
    List.reverse_subset.2 (List.Subset.refl _)
  have released : Returns (t.arguments.followers.reverse.forM (unmapArgument settings)) t () t :=
    returns_left_members list within (fun i a ha => list.found_member held.wellFormed' held.holds ha)
      fun i a ha => by
        rw [held.soleOwner list.head_holds_padded]
        exact unforced.stays ha
  have first : (head.padded settings).hostSection.Holds (head.padded settings).start :=
    ⟨Nat.le_refl _, Nat.lt_add_of_pos_right (Nat.add_pos_left list.nonempty _)⟩
  obtain ⟨k, holding, rest, entries⟩ := held.returns_hold first finite
  have plain : (head.padded settings).Plain := list.plain_padded
  have whole : isPlainMember (head.padded settings) = false := by
    rw [isPlainMember, plain.member, Bool.false_and]
  have kept : isRemoved (head.padded settings) ⟨m.translate (head.padded settings).start, false⟩ = false := by
    rw [isRemoved, plain.delete, Bool.or_false, Bool.false_and]
  have copying : Returns (copyBack (head.padded settings) (head.padded settings).start (head.padded settings).size
      (m.translate (head.padded settings).start) false) (t.withLink k) false (t.withLink k) := by
    rw [copyBack]
    dsimp only
    rw [show (head.padded settings).mapType.has .fromDevice = false from list.fromDevice,
      if_neg Bool.false_ne_true]
    exact returns_pure.2 ⟨rfl, rfl⟩
  have held' : Returns (Device.hold (head.padded settings).start (head.padded settings).size
      (!isPlainMember (head.padded settings))) t.activation.link
      (some ⟨m.translate (head.padded settings).start, false⟩) k := by
    rw [whole]
    exact holding
  have last : Returns (releaseSection settings false (head.padded settings)) t () (t.withLink k) :=
    releases_held rfl held' (by rwa [kept]) (by rw [kept]; rfl) (by rw [kept]; rfl)
  exact ⟨t.withLink k, (returns_leave_members list).2 ⟨t, released, last⟩, rest, entries, rfl⟩

end Region

end Offloading
