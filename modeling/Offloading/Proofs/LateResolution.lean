import Offloading.Proofs.Arrival
import Offloading.Proofs.StrategyAgreement
/-!
# Late resolution

A strategy that patches at once gives a pointer the place that its section had when it was mapped. One
that patches later looks the pointer and its section up again, the section as if it were empty. Both
remember the same pointers with the same host values, and they remember the same device values if and only
if what is looked up in the end is what was found at first. Of several patches of one pointer only the last
one matters.
-/

namespace Offloading

/-! ## The last one counts -/

/-- The element comes in the list, and no later one has its key. -/
def IsLast {α : Type} (key : α → Nat) (xs : List α) (a : α) : Prop :=
  ∃ earlier later, xs = earlier ++ a :: later ∧ ∀ b ∈ later, key b ≠ key a

theorem isLast_cons {α : Type} {key : α → Nat} {xs : List α} {a b : α} :
    IsLast key (b :: xs) a ↔ IsLast key xs a ∨ (a = b ∧ ∀ c ∈ xs, key c ≠ key b) := by
  constructor
  · rintro ⟨earlier, later, split, others⟩
    cases earlier with
    | nil =>
        obtain ⟨rfl, rfl⟩ := List.cons.inj split
        exact .inr ⟨rfl, others⟩
    | cons c rest =>
        obtain ⟨rfl, rfl⟩ := List.cons.inj split
        exact .inl ⟨rest, later, rfl, others⟩
  · rintro (⟨earlier, later, rfl, others⟩ | ⟨rfl, others⟩)
    · exact ⟨b :: earlier, later, rfl, others⟩
    · exact ⟨[], xs, rfl, others⟩

namespace AddressMap

variable {α β γ : Type} [Addressed β] {m n : AddressMap β} {b c x : β} {k : α → Nat} {f g : α → β}
  {v : β → γ}

/-- Where items go depends on what shows their addresses. -/
private theorem map_place {items items' : List β}
    (located : ∀ {x y : β}, v x = v y → address x = address y)
    (same : items.map v = items'.map v) (added : v b = v c) :
    (place b items).map v = (place c items').map v := by
  induction items generalizing items' with
  | nil =>
      rw [List.map_nil, eq_comm, List.map_eq_nil_iff] at same
      subst same
      exact congrArg (fun v => [v]) added
  | cons d rest ih =>
      cases items' with
      | nil => cases same
      | cons e rest' =>
          obtain ⟨first, others⟩ := List.cons.inj same
          have here := located first
          have there := located added
          rw [place, place, here, there]
          split
          · rw [List.map_cons, List.map_cons, List.map_cons, List.map_cons, added, first, others]
          · split
            · rw [List.map_cons, List.map_cons, added, others]
            · rw [List.map_cons, List.map_cons, first, ih others]

/-- What is seen of items that are added one after the other depends on what is seen of each. -/
theorem map_items_foldl_insert (located : ∀ {x y : β}, v x = v y → address x = address y)
    {xs : List α} (same : m.items.map v = n.items.map v) (each : ∀ a, v (f a) = v (g a)) :
    ((xs.map f).foldl insert m).items.map v = ((xs.map g).foldl insert n).items.map v := by
  induction xs generalizing m n with
  | nil => exact same
  | cons a rest ih => exact ih (m := m.insert (f a)) (n := n.insert (g a)) (map_place located same (each a))

/-- Of the items that are added at an address the last one stays. -/
theorem mem_foldl_insert_iff {xs : List α} (keyed : ∀ a, address (f a) = k a) :
    x ∈ (xs.map f).foldl insert m ↔
      (∃ a, IsLast k xs a ∧ x = f a) ∨ (x ∈ m ∧ ∀ a ∈ xs, k a ≠ address x) := by
  induction xs generalizing m with
  | nil =>
      constructor
      · intro hx
        exact .inr ⟨hx, fun _ ha => (nomatch ha)⟩
      · rintro (⟨a, ⟨earlier, later, split, -⟩, -⟩ | ⟨hx, -⟩)
        · exact absurd split.symm (by simp)
        · exact hx
  | cons b rest ih =>
      rw [List.map_cons, List.foldl_cons, ih, mem_insert, keyed]
      constructor
      · rintro (⟨a, last, rfl⟩ | ⟨rfl | ⟨hx, other⟩, others⟩)
        · exact .inl ⟨a, isLast_cons.2 (.inl last), rfl⟩
        · rw [keyed] at others
          exact .inl ⟨b, isLast_cons.2 (.inr ⟨rfl, others⟩), rfl⟩
        · exact .inr ⟨hx, List.forall_mem_cons.2 ⟨fun same => other same.symm, others⟩⟩
      · rintro (⟨a, last, rfl⟩ | ⟨hx, others⟩)
        · rcases isLast_cons.1 last with last | ⟨rfl, others⟩
          · exact .inl ⟨a, last, rfl⟩
          · rw [keyed]
            exact .inr ⟨.inl rfl, others⟩
        · obtain ⟨here, others⟩ := List.forall_mem_cons.1 others
          exact .inr ⟨.inr ⟨hx, fun same => here same.symm⟩, others⟩

/-- Adding other items at the same addresses gives the same map exactly if those that stay are the
same. -/
theorem foldl_insert_eq_iff {xs : List α} (keyed : ∀ a, address (f a) = k a)
    (keyed' : ∀ a, address (g a) = k a) :
    (xs.map f).foldl insert m = (xs.map g).foldl insert m ↔ ∀ a, IsLast k xs a → f a = g a := by
  constructor
  · intro same a last
    have hf : f a ∈ (xs.map f).foldl insert m := (mem_foldl_insert_iff keyed).2 (.inl ⟨a, last, rfl⟩)
    have hg : g a ∈ (xs.map g).foldl insert m := (mem_foldl_insert_iff keyed').2 (.inl ⟨a, last, rfl⟩)
    rw [same] at hf
    exact eq_of_address_eq hf hg ((keyed a).trans (keyed' a).symm)
  · intro same
    apply ext_mem
    intro x
    rw [mem_foldl_insert_iff keyed, mem_foldl_insert_iff keyed']
    refine or_congr_left (exists_congr fun a => and_congr_right fun last => ?_)
    rw [same a last]

end AddressMap

/-! ## Patches -/

namespace PointerPatch

variable {p : PointerPatch} {d d' : Device}

/-- A pointer and its section, looked up on the device, are where the patch has them. -/
def Holds (d : Device) (p : PointerPatch) : Prop := d.resolve? p.pending = some p.shadow

theorem holds_congr (h : d'.mappings = d.mappings) : p.Holds d' ↔ p.Holds d := by
  rw [Holds, Holds, resolve?_pending, resolve?_pending, resolved?_congr h]

/-- The shadow that the patch leaves if it is made late. -/
def lateShadow (d : Device) (p : PointerPatch) : ShadowPointer :=
  ⟨p.hostSlot, p.hostValue, ((p.resolved? d).getD p).deviceSlot, ((p.resolved? d).getD p).deviceValue⟩

theorem lateShadow_eq (h : (p.resolved? d).isSome) : ((p.resolved? d).map shadow) = some (p.lateShadow d) := by
  obtain ⟨r, hr⟩ := Option.isSome_iff_exists.1 h
  obtain ⟨slot, -, rfl⟩ := resolved?_eq_some_iff.1 hr
  rw [lateShadow, hr]
  rfl

theorem lateShadow_eq_shadow_iff (h : (p.resolved? d).isSome) :
    p.lateShadow d = p.shadow ↔ p.Holds d := by
  rw [Holds, resolve?_pending, lateShadow_eq h, Option.some.injEq]

theorem filterMap_resolved? {patches : List PointerPatch}
    (all : ∀ p ∈ patches, (p.resolved? d).isSome) :
    (patches.filterMap (·.resolved? d)).map shadow = patches.map (lateShadow d) := by
  induction patches with
  | nil => rfl
  | cons p rest ih =>
      obtain ⟨here, others⟩ := List.forall_mem_cons.1 all
      obtain ⟨r, hr⟩ := Option.isSome_iff_exists.1 here
      have late := lateShadow_eq here
      rw [hr, Option.map_some, Option.some.injEq] at late
      rw [List.filterMap_cons_some hr, List.map_cons, List.map_cons, late, ih others]

end PointerPatch

/-- What the host knows of patched pointers: where each of them is and what it holds. -/
def ShadowTable.hostSide (t : ShadowTable) : List (Nat × Nat) :=
  t.toList.map fun x => (x.hostSlot, x.hostValue)

/-! ## Entering a region -/

namespace Region

open RegionM

variable {settings : Settings} {x y : Strategy} {s s' t' : RegionState} {u v : Unit}

/-- The patches that entering a region makes, in order. -/
def patches (settings : Settings) (s : RegionState) : List PointerPatch :=
  Parcel.patches ((placements settings s).flatMap (Placement.parcels settings))

theorem patches_withStrategy
    (same : placements (settings.withStrategy y) s = placements (settings.withStrategy x) s) :
    patches (settings.withStrategy y) s = patches (settings.withStrategy x) s := by
  rw [patches, patches, same]
  rfl

/-- A strategy that sends at once remembers each patch as it was made. -/
theorem shadows_enter_immediate (hs : s.activation.link.Sound) (idle : s.activation.queue = {})
    (strategy : settings.strategy = .immediate) (entered : Returns (enter settings) s u s') :
    s'.activation.link.device.shadows =
      ((patches settings s).map PointerPatch.shadow).foldl AddressMap.insert
        s.activation.link.device.shadows := by
  obtain ⟨s₁, n, mapped, flushed⟩ := returns_enter entered
  have carried := carried_mapArguments (carried_nil settings.strategy hs.accelerator idle) mapped
  have delivered := carried.handled
  rw [strategy] at flushed delivered
  rw [(returns_pure.1 flushed).2]
  exact delivered.shadows

/-- A strategy that sends later can look up all pointers in the end, and remembers what it found. -/
theorem shadows_enter_bulk (hs : s.activation.link.Sound) (idle : s.activation.queue = {})
    (strategy : settings.strategy = .bulk) (entered : Returns (enter settings) s u s') :
    (∀ p ∈ patches settings s, (p.resolved? s'.activation.link.device).isSome) ∧
      s'.activation.link.device.shadows =
        ((patches settings s).map (PointerPatch.lateShadow s'.activation.link.device)).foldl
          AddressMap.insert s.activation.link.device.shadows := by
  obtain ⟨s₁, n, mapped, flushed⟩ := returns_enter entered
  have carried := carried_mapArguments (carried_nil settings.strategy hs.accelerator idle) mapped
  have still := (Strategy.along_flush settings.strategy).returns flushed
  have queued := carried.handled
  rw [strategy] at flushed queued
  obtain ⟨all, arrived⟩ := Queued.arrived queued carried.wellFormed carried.confined flushed
  -- flushing does not move anything
  have late : PointerPatch.resolved? s₁.activation.link.device =
      PointerPatch.resolved? s'.activation.link.device :=
    funext fun p => PointerPatch.resolved?_congr still.mappings.symm
  rw [late] at all arrived
  refine ⟨all, ?_⟩
  rw [arrived.shadows, Parcel.shadows, patches_of_copies]
  exact congrArg (fun shadows => List.foldl AddressMap.insert s.activation.link.device.shadows shadows)
    (PointerPatch.filterMap_resolved? all)

/-- Entering a region remembers the same pointers with the same host values under both strategies. It
remembers the same shadows exactly if each patch that is the last one of its pointer holds in the end. -/
theorem enter_shadows_eq_iff (hs : s.activation.link.Sound) (idle : s.activation.queue = {})
    (immediate : Returns (enter (settings.withStrategy .immediate)) s u s')
    (bulk : Returns (enter (settings.withStrategy .bulk)) s v t') :
    t'.activation.link.device.shadows.hostSide = s'.activation.link.device.shadows.hostSide ∧
      (t'.activation.link.device.shadows = s'.activation.link.device.shadows ↔
        ∀ p, IsLast PointerPatch.hostSlot (patches (settings.withStrategy .immediate) s) p →
          p.Holds s'.activation.link.device) := by
  obtain ⟨alike, same⟩ := enter_alike ⟨.refl hs, rfl, rfl⟩ immediate bulk
  have eager := shadows_enter_immediate hs idle rfl immediate
  obtain ⟨all, late⟩ := shadows_enter_bulk hs idle rfl bulk
  rw [patches_withStrategy same] at all late
  rw [eager, late]
  refine ⟨AddressMap.map_items_foldl_insert (v := fun x : ShadowPointer => (x.hostSlot, x.hostValue))
    (fun h => congrArg Prod.fst h) rfl fun _ => rfl, ?_⟩
  rw [AddressMap.foldl_insert_eq_iff (k := PointerPatch.hostSlot) (fun _ => rfl) fun _ => rfl]
  refine forall_congr' fun p => forall_congr' fun last => ?_
  obtain ⟨earlier, later, split, -⟩ := last
  have listed : p ∈ patches (settings.withStrategy .immediate) s := by
    rw [split]
    exact List.mem_append_right _ List.mem_cons_self
  rw [PointerPatch.lateShadow_eq_shadow_iff (all p listed),
    PointerPatch.holds_congr alike.link.mappings]

end Region

/-! ## Beginning a region -/

namespace Platform

variable {pl : Platform} {id : Int} {arguments : ArgumentList}

/-- Each patch that a region makes when it begins, if it is the last one of its pointer, holds on the
platform `after`, the one on which it has begun. -/
def PatchesHold (pl : Platform) (id : Int) (arguments : ArgumentList) (after : Platform) : Prop :=
  ∀ dev pl' l l', Returns (ready id) pl dev pl' → pl'.link? dev = some l →
    after.link? dev = some l' →
    ∀ p, IsLast PointerPatch.hostSlot
      (Region.patches pl'.settings (CallState.region { platform := pl', arguments } l)) p →
      p.Holds l'.device

/-- Where a call has put a device back, its shadows are what it left there. -/
private theorem shadowTables_setLink {dev : Nat} {l : Link} (hl : pl.link? dev = some l) :
    ∃ tables : List ShadowTable, dev < tables.length ∧
      ∀ k : Link, (pl.setLink dev k).shadowTables = tables.set dev k.device.shadows := by
  obtain ⟨slot, found, -, -⟩ := link?_eq_some_iff.1 hl
  obtain ⟨inside, -⟩ := List.getElem?_eq_some_iff.1 found
  refine ⟨pl.shadowTables, by rw [shadowTables, List.length_map]; exact inside, fun k => ?_⟩
  exact devices_map_setLink hl k

private theorem set_eq_iff {α : Type} {xs : List α} {i : Nat} {x y : α} (h : i < xs.length) :
    xs.set i x = xs.set i y ↔ x = y := by
  constructor
  · intro same
    have here := congrArg (·[i]?) same
    simpa [h] using here
  · rintro rfl
    rfl

/-- Beginning a region under both strategies remembers the same pointers with the same host values. It
leaves the same shadows exactly if each patch that is the last one of its pointer holds in the end. -/
theorem dataBegin_shadows_eq_iff {s t : CallState} {u v : Unit} (reachable : pl.Reachable)
    (immediate : Returns (dataBegin id) { platform := pl.withStrategy .immediate, arguments } u s)
    (bulk : Returns (dataBegin id) { platform := pl.withStrategy .bulk, arguments } v t) :
    t.platform.shadowTables.map ShadowTable.hostSide = s.platform.shadowTables.map ShadowTable.hostSide ∧
      (t.platform.shadowTables = s.platform.shadowTables ↔
        (pl.withStrategy .immediate).PatchesHold id arguments s.platform) := by
  obtain ⟨dev, _, l, r, metrics, ready₁, hl, entered, -, after⟩ := returns_phase immediate
  obtain ⟨dev', _, l', r', metrics', ready₂, hl', entered', -, after'⟩ := returns_phase bulk
  -- both calls find the same device in the same state
  obtain ⟨q, found, rfl⟩ := blind_ready.returns_iff.1 ready₁
  obtain ⟨q', found', rfl⟩ := blind_ready.returns_iff.1 ready₂
  obtain ⟨rfl, rfl⟩ := found.unique found'
  replace hl : q'.link? dev' = some l := hl
  replace hl' : q'.link? dev' = some l' := hl'
  rw [hl, Option.some.injEq] at hl'
  subst hl'
  have sound := (((orderly_ready id).returns found).sound reachable.sound).link hl
  obtain ⟨host, same⟩ := Region.enter_shadows_eq_iff sound rfl entered entered'
  obtain ⟨tables, inside, set⟩ := shadowTables_setLink hl
  have left : s.platform.shadowTables = tables.set dev' r.activation.link.device.shadows := by
    rw [after, setLink_withStrategy]
    exact set r.activation.link
  have left' : t.platform.shadowTables = tables.set dev' r'.activation.link.device.shadows := by
    rw [after', setLink_withStrategy]
    exact set r'.activation.link
  rw [left, left', List.map_set, List.map_set, host, set_eq_iff inside, same]
  refine ⟨rfl, fun holds => ?_, fun holds => ?_⟩
  · intro dev₀ q₀ l₀ l₁ ready₀ hl₀ hl₁
    obtain ⟨rfl, rfl⟩ := ready₁.unique ready₀
    replace hl₀ : q'.link? dev₀ = some l₀ := hl₀
    rw [hl, Option.some.injEq] at hl₀
    subst hl₀
    have here : s.platform.link? dev₀ = some r.activation.link := by
      rw [after, setLink_withStrategy]
      exact link?_setLink hl
    rw [here, Option.some.injEq] at hl₁
    subst hl₁
    exact holds
  · refine holds dev' _ l _ ready₁ hl ?_
    rw [after, setLink_withStrategy]
    exact link?_setLink hl

/-- Sixteen bytes at 136, and a pointer at 64 to a section that is mapped implicitly: it begins at 128
and meets the mapping of those bytes. -/
def earlyPointee : ArgumentList :=
  { arguments := [⟨136, 136, 16, .ofFlags [.toDevice]⟩,
      ⟨64, 128, 16, .ofFlags [.toDevice, .pointerAndObject, .implicit]⟩] }

/-- The state in which a region with `earlyPointee` begins on the platform with one device. -/
def beforeEarlyPointee (strategy : Strategy) : CallState :=
  { platform := oneDevice.withStrategy strategy, arguments := earlyPointee }

/-- The shadows after a region with `earlyPointee` has begun. -/
def shadowsOfEarlyPointee (strategy : Strategy) : List ShadowTable :=
  (exec (dataBegin 0) (beforeEarlyPointee strategy)).2.platform.shadowTables

/-- The pointer to the section that begins in front of its mapping is resolved at once, but not later. -/
theorem dataBegin_shadows_eq_iff_earlyPointee :
    ∃ s t, Returns (dataBegin 0) (beforeEarlyPointee .immediate) () s ∧
      Returns (dataBegin 0) (beforeEarlyPointee .bulk) () t ∧
      t.platform.shadowTables.map ShadowTable.hostSide =
        s.platform.shadowTables.map ShadowTable.hostSide ∧
      t.platform.shadowTables ≠ s.platform.shadowTables ∧
      ¬ (oneDevice.withStrategy .immediate).PatchesHold 0 earlyPointee s.platform := by
  have immediate : Returns (dataBegin 0) (beforeEarlyPointee .immediate) () _ :=
    returns_of_ok (by cbv)
  have bulk : Returns (dataBegin 0) (beforeEarlyPointee .bulk) () _ := returns_of_ok (by cbv)
  obtain ⟨host, same⟩ := dataBegin_shadows_eq_iff (.fresh fresh_oneDevice) immediate bulk
  have values : (shadowsOfEarlyPointee .immediate).map (fun t => t.items.map (·.deviceValue)) =
      [[0xcfffffffff78]] := by cbv
  have values' : (shadowsOfEarlyPointee .bulk).map (fun t => t.items.map (·.deviceValue)) = [[0]] := by
    cbv
  have differ : shadowsOfEarlyPointee .bulk ≠ shadowsOfEarlyPointee .immediate := by
    intro equal
    rw [equal, values] at values'
    exact absurd values' (by decide)
  exact ⟨_, _, immediate, bulk, host, differ, fun holds => differ (same.2 holds)⟩

end Platform

end Offloading
