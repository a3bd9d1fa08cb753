import Offloading.Proofs.Settlement
/-!
# Agreement of strategies

Two runs that enter a region under different strategies take the same decisions: they leave the same
mappings, the same blocks and the same arguments. If nothing gets in the way of anything else they leave
the same bytes and the same shadows as well.
-/

namespace Offloading

/-- The settings with another strategy. -/
def Settings.withStrategy (settings : Settings) (strategy : Strategy) : Settings :=
  { config := { settings.config with transferMode := strategy.name }, strategy }

/-! ## Devices -/

namespace DeviceMemory

variable {m n m' n' : DeviceMemory} {size addr addr' : Nat}

/-- Where the next block goes depends on the layout alone, and so does the layout afterwards. -/
theorem allocate_alike (hm : m.WellFormed) (hn : n.WellFormed) (same : n.layout = m.layout)
    (first : m.allocate size = (some addr, m')) (second : n.allocate size = (some addr', n')) :
    addr' = addr ∧ n'.layout = m'.layout := by
  have extents := hm.extents_allocate first
  have extents' := hn.extents_allocate second
  obtain ⟨rfl, after⟩ := allocate_eq_some first
  obtain ⟨rfl, after'⟩ := allocate_eq_some second
  simp only [layout, Prod.mk.injEq] at same ⊢
  obtain ⟨next, capacity, used, ext⟩ := same
  refine ⟨next, ?_, ?_, ?_, ?_⟩
  · rw [after, after', next]
  · rw [after, after']
    exact capacity
  · rw [after, after', used]
  · rw [extents, extents', next, ext]

/-- Whether a block holds an address depends on the layout alone. -/
theorem byte?_isSome_alike (hm : m.WellFormed) (hn : n.WellFormed) (same : n.layout = m.layout)
    (addr : Nat) :
    (n.byte? addr).isSome = (m.byte? addr).isSome := by
  have extents : n.extents = m.extents := congrArg (fun l => l.2.2.2) same
  have inBlock : ∀ {k : DeviceMemory}, k.WellFormed → ((k.byte? addr).isSome ↔
      ∃ p ∈ k.extents, p.1 ≤ addr ∧ addr < p.1 + p.2) := by
    intro k hk
    rw [hk.byte?_isSome_iff]
    constructor
    · rintro ⟨b, hb, inside⟩
      exact ⟨_, mem_extents.2 ⟨b, hb, rfl⟩, inside⟩
    · rintro ⟨p, hp, inside⟩
      obtain ⟨b, hb, rfl⟩ := mem_extents.1 hp
      exact ⟨b, hb, inside⟩
  rw [Bool.eq_iff_iff, inBlock hm, inBlock hn, extents]

end DeviceMemory

namespace Link

variable {l k l' k' : Link} {m m' n n' : DeviceMemory}

/-- The links have the same mappings and the same blocks. -/
structure Alike (l k : Link) : Prop where
  sound : l.Sound
  sound' : k.Sound
  unit : k.device.unit = l.device.unit
  mappings : k.device.mappings = l.device.mappings
  layouts : k.accelerator.layouts = l.accelerator.layouts

theorem Alike.refl (h : l.Sound) : l.Alike l := ⟨h, h, rfl, rfl, rfl⟩

theorem Alike.memory? (h : l.Alike k) (hm : l.memory? = some m) :
    ∃ n, k.memory? = some n ∧ n.layout = m.layout := by
  rw [Link.memory?, h.unit]
  exact Accelerator.memory?_of_layouts h.layouts.symm hm

theorem Alike.symm (h : l.Alike k) : k.Alike l :=
  ⟨h.sound', h.sound, h.unit.symm, h.mappings.symm, h.layouts.symm⟩

theorem Alike.still (h : l.Alike k) (hl : l.Still l') (hk : k.Still k') : l'.Alike k' := by
  refine ⟨hl.sound h.sound, hk.sound h.sound', ?_, ?_, ?_⟩
  · rw [hl.unit, hk.unit, h.unit]
  · rw [hl.mappings, hk.mappings, h.mappings]
  · rw [hl.layouts, hk.layouts, h.layouts]

/-- Devices on which the same was settled hold the same bytes. -/
theorem Alike.memory?_eq {start : Link} {parcels : List Parcel} (h : l.Alike k)
    (hl : Settled start parcels l) (hk : Settled start parcels k) : k.memory? = l.memory? := by
  cases hm : l.memory? with
  | none =>
      cases hn : k.memory? with
      | none => rfl
      | some n =>
          obtain ⟨m, found, -⟩ := h.symm.memory? hn
          rw [hm] at found
          cases found
  | some m =>
      obtain ⟨n, hn, same⟩ := h.memory? hm
      have wf := hl.wellFormed.memory hm
      have wf' := hk.wellFormed.memory hn
      rw [hn, Option.some.injEq]
      refine wf'.eq_of_byte? wf same fun addr => ?_
      have bytes := hl.bytes addr
      have bytes' := hk.bytes addr
      have blank : start.blank k addr = start.blank l addr := by
        have some := DeviceMemory.byte?_isSome_alike wf wf' same addr
        rw [Link.blank, Link.blank, byte?_of_memory? hm, byte?_of_memory? hn]
        cases hb : m.byte? addr with
        | none =>
            rw [hb, Option.isSome_none, Option.isSome_eq_false_iff, Option.isNone_iff_eq_none] at some
            rw [some]
        | some v =>
            rw [hb, Option.isSome_some] at some
            obtain ⟨w, hw⟩ := Option.isSome_iff_exists.1 some
            rw [hw, Option.map_some, Option.map_some]
      rw [byte?_of_memory? hn, blank] at bytes'
      rw [byte?_of_memory? hm] at bytes
      rw [bytes, bytes']

theorem Wrote.layouts (h : l.Wrote l' m') :
    l'.accelerator.layouts = l.accelerator.layouts.set l.device.unit.toNat m'.layout := by
  rw [Accelerator.layouts, h.memories, Accelerator.withMemory, List.map_set, Accelerator.layouts]

end Link

namespace Device

variable {l k l' k' : Link} {first base size : Nat} {implicit updateRef : Bool}
  {r q : Option MappedSection}

/-- Mapping a section is decided by the mappings and the blocks. -/
theorem map_alike (h : l.Alike k) (hl : Returns (map first base size implicit updateRef) l r l')
    (hk : Returns (map first base size implicit updateRef) k q k') : q = r ∧ l'.Alike k' := by
  have sound := (along_map.returns hl).sound h.sound
  have sound' := (along_map.returns hk).sound h.sound'
  have lookup : k.device.mappings.lookup first size = l.device.mappings.lookup first size := by
    rw [h.mappings]
  rcases returns_map hl with ⟨m, hm, -, rfl, rfl⟩ | ⟨hm, hs, rfl, rfl⟩ | ⟨hm, hs, addr, l₁, ha, rfl, hi⟩
  · rcases returns_map hk with ⟨n, hn, -, rfl, rfl⟩ | ⟨hn, -⟩ | ⟨hn, -⟩
    · rw [lookup, hm, Option.some.injEq] at hn
      subst hn
      refine ⟨rfl, sound, sound', h.unit, ?_, h.layouts⟩
      change (k.device.mappings.setCount m _).recordReuse = _
      rw [h.mappings]
      rfl
    · rw [lookup, hm] at hn
      cases hn
    · rw [lookup, hm] at hn
      cases hn
  · rcases returns_map hk with ⟨n, hn, -⟩ | ⟨-, -, rfl, rfl⟩ | ⟨-, hs', -⟩
    · rw [lookup, hm] at hn
      cases hn
    · exact ⟨rfl, h⟩
    · omega
  · rcases returns_map hk with ⟨n, hn, -⟩ | ⟨-, hs', -⟩ | ⟨-, -, addr', k₁, ha', rfl, hi'⟩
    · rw [lookup, hm] at hn
      cases hn
    · omega
    · obtain ⟨m, m', found, allocated, wrote⟩ := returns_allocate ha
      obtain ⟨n, n', found', allocated', wrote'⟩ := returns_allocate ha'
      obtain ⟨n₀, hn₀, same⟩ := h.memory? found
      rw [found', Option.some.injEq] at hn₀
      subst hn₀
      obtain ⟨rfl, layout⟩ := DeviceMemory.allocate_alike (h.sound.accelerator.memory found)
        (h.sound'.accelerator.memory found') same allocated allocated'
      obtain ⟨-, rfl⟩ := returns_insertMapping hi
      obtain ⟨-, rfl⟩ := returns_insertMapping hi'
      refine ⟨rfl, sound, sound', ?_, ?_, ?_⟩
      · change k₁.device.unit = l₁.device.unit
        rw [wrote.unit, wrote'.unit, h.unit]
      · change (k₁.device.mappings.insert _).2 = (l₁.device.mappings.insert _).2
        rw [wrote.mappings, wrote'.mappings, h.mappings]
      · change k₁.accelerator.layouts = l₁.accelerator.layouts
        rw [wrote.layouts, wrote'.layouts, h.layouts, h.unit, layout]

end Device

/-! ## Regions -/

/-- Two runs are at states where the same decisions are taken. -/
structure Alike (s t : RegionState) : Prop where
  link : s.activation.link.Alike t.activation.link
  host : t.host = s.host
  arguments : t.arguments = s.arguments

theorem Alike.sent {s t s' t' : RegionState} (h : Alike s t) (hs : Sent s s') (ht : Sent t t') :
    Alike s' t' := by
  refine ⟨h.link.still hs.link ht.link, ?_, ?_⟩
  · rw [hs.host, ht.host, h.host]
  · rw [hs.arguments, ht.arguments, h.arguments]

theorem Alike.withLink {s t : RegionState} {l k : Link} (h : Alike s t) (hl : l.Alike k) :
    Alike (s.withLink l) (t.withLink k) :=
  ⟨hl, h.host, h.arguments⟩

namespace Region

open RegionM

variable {σ τ : Settings} {x y : Strategy} {padded : Bool} {region : Argument}
  {s t s' t' : RegionState} {u v : Unit} {first size : Nat}

theorem mapPointer_alike {p q : Option MappedPointer} (h : Alike s t)
    (hs : Returns (mapPointer region) s p s') (ht : Returns (mapPointer region) t q t') :
    q = p ∧ Alike s' t' := by
  rcases returns_mapPointer hs with ⟨none, rfl, rfl⟩ | ⟨some, m, l, hl, rfl, rfl⟩
  · rcases returns_mapPointer ht with ⟨-, rfl, rfl⟩ | ⟨some, -⟩
    · exact ⟨rfl, h⟩
    · rw [none] at some
      cases some
  · rcases returns_mapPointer ht with ⟨none, -⟩ | ⟨-, n, k, hk, rfl, rfl⟩
    · rw [some] at none
      cases none
    · obtain ⟨same, alike⟩ := Device.map_alike h.link hl hk
      cases same
      exact ⟨rfl, h.withLink alike⟩

private theorem parentIsSoleOwner_alike {a b : Bool} (h : Alike s t)
    (hs : Returns (parentIsSoleOwner region) s a s')
    (ht : Returns (parentIsSoleOwner region) t b t') : b = a := by
  unfold parentIsSoleOwner at hs ht
  cases hm : region.mapType.memberOf? with
  | none =>
      rw [hm] at hs ht
      rw [(returns_pure.1 hs).1, (returns_pure.1 ht).1]
  | some parent =>
      rw [hm] at hs ht
      obtain ⟨p, s₁, asked, rest⟩ := returns_bind.1 hs
      obtain ⟨q, t₁, asked', rest'⟩ := returns_bind.1 ht
      obtain ⟨found, rfl⟩ := returns_arguments.1 asked
      obtain ⟨found', rfl⟩ := returns_arguments.1 asked'
      rw [h.arguments, found, Except.ok.injEq] at found'
      subst found'
      rw [returns_device_bind] at rest rest'
      rw [h.link.mappings] at rest'
      cases hc : s₁.activation.link.device.mappings.refCountAt? p.start with
      | none =>
          rw [hc] at rest rest'
          rw [(returns_pure.1 rest).1, (returns_pure.1 rest').1]
      | some count =>
          rw [hc] at rest rest'
          rw [(returns_pure.1 rest).1, (returns_pure.1 rest').1]

theorem contentIn_alike {mapped? : Option MappedSection} {a b : List UInt8} (h : Alike s t)
    (hs : Returns (contentIn region first size mapped?) s a s')
    (ht : Returns (contentIn region first size mapped?) t b t') : b = a := by
  cases mapped? with
  | none => rw [(returns_pure.1 hs).1, (returns_pure.1 ht).1]
  | some mapped =>
      rw [contentIn] at hs ht
      cases inbound : region.mapType.has .toDevice with
      | false =>
          rw [inbound] at hs ht
          rw [(returns_pure.1 hs).1, (returns_pure.1 ht).1]
      | true =>
          rw [inbound, if_pos rfl] at hs ht
          obtain ⟨c, s₁, hc, rest⟩ := returns_bind.1 hs
          obtain ⟨d, t₁, hd, rest'⟩ := returns_bind.1 ht
          have same : d = c := by
            unfold copiesIn at hc hd
            split at hc
            · rename_i always
              rw [if_pos always] at hd
              rw [(returns_pure.1 hc).1, (returns_pure.1 hd).1]
            · rename_i not_always
              rw [if_neg not_always] at hd
              split at hc
              · rename_i member
                rw [if_pos member] at hd
                exact parentIsSoleOwner_alike h hc hd
              · rename_i plain
                rw [if_neg plain] at hd
                rw [(returns_pure.1 hc).1, (returns_pure.1 hd).1]
          subst same
          have kept := reads_copiesIn.returns hc
          have kept' := reads_copiesIn.returns hd
          subst kept kept'
          cases d with
          | false =>
              rw [if_neg Bool.false_ne_true] at rest rest'
              rw [(returns_pure.1 rest).1, (returns_pure.1 rest').1]
          | true =>
              rw [if_pos rfl] at rest rest'
              obtain ⟨rfl, -⟩ := returns_pure.1 rest
              obtain ⟨rfl, -⟩ := returns_pure.1 rest'
              rw [h.host]

/-- Placing a region is decided alike. -/
theorem place_alike {p q : Placement} (h : Alike s t)
    (hs : Returns (place (σ.withStrategy x) padded region) s p s')
    (ht : Returns (place (σ.withStrategy y) padded region) t q t') : q = p ∧ Alike s' t' := by
  obtain ⟨pointer?, s₁, mapped?, l, content, first, size, base, sec, hp, rfl, hm, hc, rfl⟩ :=
    returns_place.1 hs
  obtain ⟨pointer?', t₁, mapped?', k, content', first', size', base', sec', hp', rfl, hm', hc', rfl⟩ :=
    returns_place.1 ht
  change mappedSection σ padded region = _ at sec sec'
  rw [sec, Prod.mk.injEq] at sec'
  obtain ⟨rfl, rfl⟩ := sec'
  obtain ⟨rfl, alike⟩ := mapPointer_alike h hp hp'
  rw [alike.host] at hm' ⊢
  obtain ⟨rfl, alike'⟩ := Device.map_alike alike.link hm hm'
  have both := alike.withLink alike'
  obtain rfl := contentIn_alike both hc hc'
  obtain ⟨rfl, -⟩ := returns_contentIn hc
  obtain ⟨rfl, -⟩ := returns_contentIn hc'
  exact ⟨rfl, both⟩

theorem mapRegion_alike {r q : Option Nat} (h : Alike s t)
    (hs : Returns (mapRegion (σ.withStrategy x) padded region) s r s')
    (ht : Returns (mapRegion (σ.withStrategy y) padded region) t q t') :
    q = r ∧ Alike s' t' ∧ placement? (σ.withStrategy y) padded region t =
      placement? (σ.withStrategy x) padded region s := by
  cases hm : region.isMapped with
  | false =>
      rw [mapRegion, hm] at hs ht
      obtain ⟨rfl, rfl⟩ := returns_pure.1 hs
      obtain ⟨rfl, rfl⟩ := returns_pure.1 ht
      rw [placement?, placement?, hm]
      exact ⟨rfl, h, rfl⟩
  | true =>
      obtain ⟨p, s₁, placed, shipped, rfl⟩ := returns_mapRegion_place hs hm
      obtain ⟨p', t₁, placed', shipped', rfl⟩ := returns_mapRegion_place ht hm
      obtain ⟨rfl, alike⟩ := place_alike h placed placed'
      refine ⟨rfl, alike.sent shipped.sent shipped'.sent, ?_⟩
      rw [placement?, placement?, placed, placed']

theorem mapPlans_alike {plans : List RegionPlan} {returned r q : Option Nat} (h : Alike s t)
    (hs : Returns (mapPlans (σ.withStrategy x) padded plans returned) s r s')
    (ht : Returns (mapPlans (σ.withStrategy y) padded plans returned) t q t') :
    q = r ∧ Alike s' t' ∧ placementsOf (σ.withStrategy y) padded plans t =
      placementsOf (σ.withStrategy x) padded plans s := by
  induction plans generalizing s t returned with
  | nil =>
      obtain ⟨rfl, rfl⟩ := returns_pure.1 hs
      obtain ⟨rfl, rfl⟩ := returns_pure.1 ht
      exact ⟨rfl, h, rfl⟩
  | cons plan rest ih =>
      rw [mapPlans, returns_get_bind] at hs ht
      rw [placementsOf, placementsOf]
      rw [h.host] at ht ⊢
      cases hp : plan.resolve s.host with
      | none =>
          rw [hp] at hs ht
          exact ih h hs ht
      | some region =>
          rw [hp] at hs ht
          obtain ⟨base, s₁, first, others⟩ := returns_bind.1 hs
          obtain ⟨base', t₁, first', others'⟩ := returns_bind.1 ht
          obtain ⟨rfl, alike, same⟩ := mapRegion_alike h first first'
          obtain ⟨rfl, alike', same'⟩ := ih alike others others'
          refine ⟨rfl, alike', ?_⟩
          have after : (exec (mapRegion (σ.withStrategy x) padded region) s).2 = s₁ :=
            congrArg Prod.snd first
          have after' : (exec (mapRegion (σ.withStrategy y) padded region) t).2 = t₁ :=
            congrArg Prod.snd first'
          dsimp only
          rw [after, after', same, same']

theorem mapArgument_alike {index : Nat} (h : Alike s t)
    (hs : Returns (mapArgument (σ.withStrategy x) index) s u s')
    (ht : Returns (mapArgument (σ.withStrategy y) index) t v t') :
    Alike s' t' ∧ placementsAt (σ.withStrategy y) index t =
      placementsAt (σ.withStrategy x) index s := by
  unfold mapArgument at hs ht
  obtain ⟨a, s₁, hg, rest⟩ := returns_bind.1 hs
  obtain ⟨a', t₁, hg', rest'⟩ := returns_bind.1 ht
  obtain ⟨got, rfl⟩ := returns_arguments.1 hg
  obtain ⟨got', rfl⟩ := returns_arguments.1 hg'
  rw [placementsAt, placementsAt]
  rw [h.arguments] at got' ⊢
  rw [got, Except.ok.injEq] at got'
  subst got'
  rw [got]
  cases hm : a.isMapped with
  | false =>
      rw [hm] at rest rest'
      obtain ⟨-, rfl⟩ := returns_pure.1 rest
      obtain ⟨-, rfl⟩ := returns_pure.1 rest'
      refine ⟨h, ?_⟩
      cases s'.arguments.plans index with
      | error e => rfl
      | ok plans =>
          dsimp only
          rw [hm, if_neg Bool.false_ne_true, if_neg Bool.false_ne_true]
  | true =>
      rw [hm, Bool.not_true, if_neg Bool.false_ne_true, returns_get_bind] at rest rest'
      obtain ⟨plans, s₂, hp, regions⟩ := returns_bind.1 rest
      obtain ⟨plans', t₂, hp', regions'⟩ := returns_bind.1 rest'
      obtain ⟨found, rfl⟩ := returns_arguments.1 hp
      obtain ⟨found', rfl⟩ := returns_arguments.1 hp'
      rw [h.arguments, found, Except.ok.injEq] at found'
      subst found'
      rw [found]
      dsimp only
      rw [hm, if_pos rfl, if_pos rfl]
      rw [h.arguments] at regions'
      obtain ⟨base?, s₃, hb, written⟩ := returns_bind.1 regions
      obtain ⟨base?', t₃, hb', written'⟩ := returns_bind.1 regions'
      obtain ⟨rfl, alike, same⟩ := mapPlans_alike h hb hb'
      refine ⟨?_, same⟩
      cases base?' with
      | none =>
          obtain ⟨-, rfl⟩ := returns_pure.1 written
          obtain ⟨-, rfl⟩ := returns_pure.1 written'
          exact alike
      | some base =>
          obtain ⟨l, s₄, hl, hset⟩ := returns_bind.1 written
          obtain ⟨l', t₄, hl', hset'⟩ := returns_bind.1 written'
          obtain ⟨set, rfl⟩ := returns_arguments.1 hl
          obtain ⟨set', rfl⟩ := returns_arguments.1 hl'
          rw [alike.arguments, set, Except.ok.injEq] at set'
          subst set'
          have := returns_modify.1 hset
          subst this
          have := returns_modify.1 hset'
          subst this
          exact ⟨alike.link, alike.host, rfl⟩

theorem mapArguments_alike {indices : List Nat} (h : Alike s t)
    (hs : Returns (indices.forM (mapArgument (σ.withStrategy x))) s u s')
    (ht : Returns (indices.forM (mapArgument (σ.withStrategy y))) t v t') :
    Alike s' t' ∧ placementsOn (σ.withStrategy y) indices t =
      placementsOn (σ.withStrategy x) indices s := by
  induction indices generalizing s t with
  | nil =>
      obtain ⟨-, rfl⟩ := returns_pure.1 hs
      obtain ⟨-, rfl⟩ := returns_pure.1 ht
      exact ⟨h, rfl⟩
  | cons index rest ih =>
      obtain ⟨s₁, first, others⟩ := returns_forM_cons.1 hs
      obtain ⟨t₁, first', others'⟩ := returns_forM_cons.1 ht
      obtain ⟨alike, same⟩ := mapArgument_alike h first first'
      obtain ⟨alike', same'⟩ := ih alike others others'
      refine ⟨alike', ?_⟩
      have after : (exec (mapArgument (σ.withStrategy x) index) s).2 = s₁ := congrArg Prod.snd first
      have after' : (exec (mapArgument (σ.withStrategy y) index) t).2 = t₁ :=
        congrArg Prod.snd first'
      rw [placementsOn, placementsOn, after, after', same, same']

/-- Entering a region leaves the same mappings, blocks and arguments under every strategy, and places
its regions alike. -/
theorem enter_alike (h : Alike s t) (hs : Returns (enter (σ.withStrategy x)) s u s')
    (ht : Returns (enter (σ.withStrategy y)) t v t') :
    Alike s' t' ∧ placements (σ.withStrategy y) t = placements (σ.withStrategy x) s := by
  rw [enter, returns_get_bind] at hs ht
  obtain ⟨_, s₁, mapped, flushed⟩ := returns_bind.1 hs
  obtain ⟨_, t₁, mapped', flushed'⟩ := returns_bind.1 ht
  rw [placements, placements]
  rw [h.arguments] at mapped' ⊢
  obtain ⟨alike, same⟩ := mapArguments_alike h mapped mapped'
  exact ⟨alike.sent (along_flush.returns flushed) (along_flush.returns flushed'), same⟩

/-- If nothing gets in the way of anything else, entering a region also leaves the same bytes and
shadows under every strategy. -/
theorem enter_memories (h : s.activation.link.Sound) (idle : s.activation.queue = {})
    (hs : Returns (enter (σ.withStrategy x)) s u s') (ht : Returns (enter (σ.withStrategy y)) s v t')
    (undisturbed : Undisturbed (σ.withStrategy x) s'.activation.link.device.mappings
      (placements (σ.withStrategy x) s)) :
    t'.activation.link.accelerator.memories = s'.activation.link.accelerator.memories ∧
      t'.activation.link.device.shadows = s'.activation.link.device.shadows := by
  obtain ⟨alike, same⟩ := enter_alike ⟨.refl h, rfl, rfl⟩ hs ht
  have settled := settled_enter h idle hs undisturbed
  have undisturbed' : Undisturbed (σ.withStrategy y) t'.activation.link.device.mappings
      (placements (σ.withStrategy y) s) := by
    rw [alike.link.mappings, same]
    exact ⟨undisturbed.space, undisturbed.sections, undisturbed.slots, undisturbed.pointees,
      undisturbed.spared, undisturbed.unaliased⟩
  have settled' := settled_enter h idle ht undisturbed'
  rw [same] at settled'
  -- the parcels do not depend on the strategy
  change Settled s.activation.link
    ((placements (σ.withStrategy x) s).flatMap (Placement.parcels (σ.withStrategy x)))
    t'.activation.link at settled'
  exact ⟨settled'.confined.unique settled.confined (alike.link.memory?_eq settled settled'),
    settled'.shadows.trans settled.shadows.symm⟩

end Region

end Offloading
