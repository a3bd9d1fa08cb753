import Offloading.Proofs.EnteredBytes
import Offloading.Proofs.OutstandingSections
/-!
# Members of a struct

A member of a struct that is no pointer takes no reference when it is mapped, and it gives none back. Its bytes
move, to the device or back from there, if exactly one reference holds the struct then or if they always move.
-/

namespace Offloading

/-! ## Links and tables -/

namespace Link

variable {l l' l'' : Link}

/-- Nothing differs but what the table of mappings has counted of its own work. -/
structure SameEntries (l l' : Link) : Prop where
  entries : l'.device.mappings.entries = l.device.mappings.entries
  rest : l' = l.withMappings l'.device.mappings

namespace SameEntries

theorem refl (l : Link) : l.SameEntries l := ⟨rfl, rfl⟩

theorem trans (h : l.SameEntries l') (h' : l'.SameEntries l'') : l.SameEntries l'' := by
  refine ⟨h'.entries.trans h.entries, ?_⟩
  rw [h'.rest, h.rest]
  rfl

theorem of_withMappings {t : MappingTable} (h : t.entries = l.device.mappings.entries) :
    l.SameEntries (l.withMappings t) := ⟨h, rfl⟩

theorem footprint (h : l.SameEntries l') : l'.footprint = l.footprint := by
  refine footprint_eq_iff.2 ⟨?_, h.entries, ?_⟩
  · rw [h.rest]
    rfl
  · rw [h.rest]
    rfl

end SameEntries

end Link

namespace Link.Counted

variable {l l' l'' : Link} (h : l.Counted l')

include h

theorem trans (h' : l'.Counted l'') : l.Counted l'' := by
  obtain ⟨_, _, device⟩ := h.device
  obtain ⟨transfers, tripCount, device'⟩ := h'.device
  exact ⟨⟨transfers, tripCount, by rw [device', device]⟩, h'.memories.trans h.memories⟩

theorem mappings : l'.device.mappings = l.device.mappings := by
  obtain ⟨_, _, device⟩ := h.device
  rw [device]

theorem shadows : l'.device.shadows = l.device.shadows := by
  obtain ⟨_, _, device⟩ := h.device
  rw [device]

theorem byte? : l'.byte? = l.byte? := by
  funext addr
  rw [Link.byte?, Link.byte?, h.memory?]

theorem wellFormed (hl : l.accelerator.WellFormed) : l'.accelerator.WellFormed := by
  intro m hm
  rw [h.memories] at hm
  exact hl m hm

theorem sound (hl : l.Sound) : l'.Sound := ⟨h.mappings ▸ hl.mappings, h.wellFormed hl.accelerator⟩

theorem footprint : l'.footprint = l.footprint := by
  obtain ⟨_, _, device⟩ := h.device
  refine Link.footprint_eq_iff.2 ⟨by rw [device], by rw [device], ?_⟩
  rw [Accelerator.footprint, Accelerator.footprint, h.memories]

end Link.Counted

namespace MappingTable

variable {t : MappingTable} {m : Mapping} {first size : Nat}

/-- A section that is not empty is found in the mapping that covers it. -/
theorem lookup_covered (wf : t.WellFormed) (hm : m ∈ t) (lower : m.hostBegin ≤ first)
    (upper : first + size ≤ m.hostEnd) (pos : 0 < size) (word : first < Word.greatest) :
    (t.lookup first size).mapping? = some m := by
  have inside : m.contains first = true := Mapping.contains_iff.2 ⟨lower, by omega⟩
  rw [lookup_of_containing? (wf.containing?_eq hm inside word)]

/-- Whether exactly one reference holds the mapping at an address. -/
def soleOwner (t : MappingTable) (addr : Nat) : Bool := (t.refCountAt? addr).any fun c => c.value == 1

theorem soleOwner_congr {u : MappingTable} {addr : Nat} (h : u.entries = t.entries) :
    u.soleOwner addr = t.soleOwner addr := by
  rw [soleOwner, soleOwner, refCountAt?, refCountAt?, containing?_congr h]

end MappingTable

namespace Device

variable {l l' : Link} {first base size : Nat} {implicit : Bool} {r : Option MappedSection}

/-- What is mapped without a reference is found in the table, if it is not empty. -/
theorem sameEntries_map (found : size = 0 ∨ (l.device.mappings.lookup first size).isFound = true)
    (mapped : Returns (map first base size implicit false) l r l') :
    l.SameEntries l' ∧
      r = (l.device.mappings.lookup first size).mapping?.map fun m => ⟨m.translate first, false⟩ := by
  rcases returns_map mapped with ⟨m, hm, -, rfl, rfl⟩ | ⟨none, -, rfl, rfl⟩ | ⟨none, pos, -⟩
  · refine ⟨.of_withMappings ?_, by rw [hm]; rfl⟩
    change (l.device.mappings.setCount m _).entries = _
    rw [if_neg Bool.false_ne_true, MappingTable.setCount_self (MappingTable.mem_of_lookup hm)]
  · exact ⟨.refl l', by rw [none]; rfl⟩
  · rcases found with empty | found
    · omega
    · rw [Coverage.isFound, none] at found
      cases found

/-- Holding a section without a reference changes nothing. -/
theorem hold_unreferenced : Returns (hold first size false) l
    ((l.device.mappings.lookup first size).mapping?.map fun m => ⟨m.translate first, m.refCount.isLast⟩) l := by
  rw [hold, DeviceM.returns_device_bind]
  cases (l.device.mappings.lookup first size).mapping? with
  | none => exact returns_pure.2 ⟨rfl, rfl⟩
  | some m => exact returns_pure.2 ⟨rfl, rfl⟩

end Device

/-! ## Members -/

namespace Argument

variable {a b : Argument} {parent : Nat} {f : MapFlag} {sole : Bool}

/-- The argument is a plain section that is a member of the struct at a position. -/
structure Member (a : Argument) (parent : Nat) : Prop where
  kind : a.kind = .plain
  nested : a.mapType.has .nested = false
  parent : a.mapType.memberOf? = some parent

instance : Decidable (a.Member parent) :=
  decidable_of_iff (a.kind = .plain ∧ a.mapType.has .nested = false ∧ a.mapType.memberOf? = some parent)
    ⟨fun ⟨kind, nested, parent⟩ => ⟨kind, nested, parent⟩, fun ⟨kind, nested, parent⟩ => ⟨kind, nested, parent⟩⟩

/-- Whether the bytes of a member move in the direction of a flag when it is mapped or released. -/
def moves (a : Argument) (f : MapFlag) (sole : Bool) : Bool := a.mapType.has f && (a.mapType.has .always || sole)

namespace Member

variable (h : a.Member parent)

include h

theorem isMapped : a.isMapped = true := isMapped_of_kind h.kind

theorem pointer : a.mapType.has .pointerAndObject = false := pointer_of_kind h.kind

theorem isMember : a.mapType.isMember = true := by rw [MapType.isMember, h.parent]; rfl

theorem isPlainMember : Region.isPlainMember a = true := by
  rw [Region.isPlainMember, h.isMember, h.pointer]
  rfl

/-- What an argument is does not depend on its base. -/
theorem of_mapType (same : b.mapType = a.mapType) : b.Member parent := by
  refine ⟨?_, ?_, ?_⟩
  · rw [Argument.kind, same]
    exact h.kind
  · rw [same]
    exact h.nested
  · rw [same]
    exact h.parent

end Member

end Argument

namespace Region

open RegionM

variable {settings : Settings} {a head : Argument} {parent : Nat} {s s' t t' : RegionState} {u : Unit}

section member

variable (member : a.Member parent) (there : s.arguments.arguments[parent]? = some head)

include member there

theorem returns_parentIsSoleOwner :
    Returns (parentIsSoleOwner a) s (s.activation.link.device.mappings.soleOwner head.start) s := by
  have got : Returns (arguments (·.get parent)) s head s :=
    returns_arguments.2 ⟨ArgumentList.get_eq_ok.2 there, rfl⟩
  rw [parentIsSoleOwner, member.parent]
  refine returns_bind.2 ⟨head, s, got, ?_⟩
  rw [MappingTable.soleOwner, returns_device_bind]
  cases s.activation.link.device.mappings.refCountAt? head.start with
  | none => exact returns_pure.2 ⟨rfl, rfl⟩
  | some c => exact returns_pure.2 ⟨rfl, rfl⟩

/-! ## Mapping a member -/

/-- The bytes of a member that is mapped go to the device if they move. -/
theorem contentIn_member {first size : Nat} {mapped? : Option MappedSection} {content : List UInt8}
    (old : ∀ m, mapped? = some m → m.isNew = false)
    (decided : Returns (contentIn a first size mapped?) s content s') :
    content = if mapped?.isSome && a.moves .toDevice (s.activation.link.device.mappings.soleOwner head.start)
      then s.host.read first size else [] := by
  cases mapped? with
  | none => exact (returns_pure.1 decided).1
  | some m =>
      rw [contentIn] at decided
      rw [Option.isSome_some, Bool.true_and, Argument.moves]
      cases inbound : a.mapType.has .toDevice with
      | false =>
          rw [inbound] at decided
          exact (returns_pure.1 decided).1
      | true =>
          rw [inbound, if_pos rfl, copiesIn, old m rfl, member.isMember, Bool.false_or, if_pos rfl] at decided
          obtain ⟨copies, s₁, asked, read⟩ := returns_bind.1 decided
          have settled : Returns (if a.mapType.has .always = true then pure true else parentIsSoleOwner a) s
              (a.mapType.has .always || s.activation.link.device.mappings.soleOwner head.start) s := by
            cases a.mapType.has .always with
            | true => exact returns_pure.2 ⟨rfl, rfl⟩
            | false => exact returns_parentIsSoleOwner member there
          obtain ⟨rfl, rfl⟩ := settled.unique asked
          rw [Bool.true_and]
          split at read
          · rename_i copied
            rw [if_pos copied]
            exact (returns_pure.1 read).1
          · rename_i stays
            rw [if_neg stays]
            exact (returns_pure.1 read).1

end member

end Region

/-- The placement of a member where `t` is the table of mappings: it lies where its section is found, and its
bytes are sent if they move. -/
structure Placement.OfMember (t : MappingTable) (host : HostMemory) (a : Argument) (sole : Bool)
    (p : Placement) : Prop where
  first : p.first = a.start
  size : p.size = a.size
  pointer : p.pointer? = none
  target : p.target? = (t.lookup a.start a.size).mapping?.map (·.translate a.start)
  content : p.content =
    if p.target?.isSome && a.moves .toDevice sole then host.read a.start a.size else []

/-- Only the entries of the table matter. -/
theorem Placement.OfMember.congr_entries {t t' : MappingTable} {host : HostMemory} {a : Argument} {sole : Bool}
    {p : Placement} (h : p.OfMember t host a sole) (same : t.entries = t'.entries) :
    p.OfMember t' host a sole :=
  ⟨h.first, h.size, h.pointer, by rw [h.target, MappingTable.lookup_congr same], h.content⟩

/-- Nothing is sent for a placement without bytes and without a pointer. -/
theorem Shipped.activation_of_silent {settings : Settings} {p : Placement} {s s' : RegionState}
    (shipped : Shipped settings p s s') (pointer : p.pointer? = none) (content : p.content = []) :
    s'.activation = s.activation := by
  have silent : p.patch? settings = none := by
    rw [Placement.patch?, pointer]
    exact ite_self none
  have sent := shipped.activation
  rw [Placement.parcels, silent, content, Option.map_none, Option.toList_none, List.append_nil] at sent
  cases target : p.target? with
  | none =>
      rw [target] at sent
      exact (returns_pure.1 sent).2
  | some addr =>
      rw [target] at sent
      obtain ⟨a, sent, done⟩ := returns_forM_cons.1 sent
      have none : Returns (settings.strategy.submit addr []) s.activation () s.activation :=
        Region.returns_submit_nil
      obtain ⟨-, rfl⟩ := none.unique sent
      exact (returns_pure.1 done).2

namespace Region

open RegionM

variable {settings : Settings} {a head : Argument} {parent index : Nat} {s s₁ s' t t' : RegionState} {u : Unit}
  {p : Placement}

/-- A region without a pointer is placed by mapping its section. -/
theorem returns_place_section {r : Argument} (pointer : r.mapType.has .pointerAndObject = false)
    (placed : Returns (place settings false r) s p s₁) :
    ∃ mapped? l content,
      Returns (Device.map r.start r.base r.size (r.mapType.has .implicit) (!r.mapType.isMember))
        s.activation.link mapped? l ∧
      Returns (contentIn r r.start r.size mapped?) (s.withLink l) content (s.withLink l) ∧
      s₁ = s.withLink l ∧ p = ⟨r.start, r.size, r.base, none, mapped?.map (·.addr), content⟩ := by
  obtain ⟨pointer?, s₂, mapped?, l, content, first, bytes, base, sec, slot, rfl, mapped, decided, rfl⟩ :=
    returns_place.1 placed
  obtain ⟨rfl, rfl⟩ := Prod.mk.inj sec
  rcases returns_mapPointer slot with ⟨-, rfl, rfl⟩ | ⟨owns, -⟩
  · obtain ⟨rfl, -⟩ := returns_contentIn decided
    exact ⟨mapped?, l, content, mapped, decided, rfl, rfl⟩
  · rw [pointer] at owns
    cases owns

section member

variable (member : a.Member parent) (there : s.arguments.arguments[parent]? = some head)
  (found : a.size = 0 ∨ (s.activation.link.device.mappings.lookup a.start a.size).isFound = true)

include member there found

/-- Placing a member changes nothing. -/
theorem returns_place_member (placed : Returns (place settings false a) s p s₁) :
    s₁ = s.withLink s₁.activation.link ∧ s.activation.link.SameEntries s₁.activation.link ∧
      p.OfMember s.activation.link.device.mappings s.host a
        (s.activation.link.device.mappings.soleOwner head.start) := by
  obtain ⟨mapped?, l, content, mapped, decided, rfl, rfl⟩ := returns_place_section member.pointer placed
  rw [member.isMember, Bool.not_true] at mapped
  obtain ⟨same, rfl⟩ := Device.sameEntries_map found mapped
  have read := contentIn_member member (s := s.withLink l) there (fun m hm => by
    obtain ⟨_, -, rfl⟩ := Option.map_eq_some_iff.1 hm
    rfl) decided
  refine ⟨rfl, same, rfl, rfl, rfl, ?_, ?_⟩
  · rw [Option.map_map]
    rfl
  · rw [read, Option.isSome_map, Option.isSome_map, Option.isSome_map]
    rw [show (s.withLink l).activation.link.device.mappings.soleOwner head.start =
      s.activation.link.device.mappings.soleOwner head.start from MappingTable.soleOwner_congr same.entries]
    rfl

/-- Mapping a member places it, and nothing is sent unless its bytes move. -/
theorem returns_mapArgument_member (here : s.arguments.arguments[index]? = some a)
    (ran : Returns (mapArgument settings index) s u s') :
    (∃ p, placementsAt settings index s = [p] ∧ p.OfMember s.activation.link.device.mappings s.host a
      (s.activation.link.device.mappings.soleOwner head.start)) ∧
    s'.host = s.host ∧ s.arguments.SameFrames s'.arguments ∧
    s'.activation.link.footprint = s.activation.link.footprint ∧
    (a.moves .toDevice (s.activation.link.device.mappings.soleOwner head.start) = false →
      s.activation.link.SameEntries s'.activation.link ∧ s'.activation.queue = s.activation.queue) := by
  have frames := ((along_mapArgument).returns ran).arguments
  have padded := isPadded_isMember here member.isMember
  rcases returns_mapArgument ran here member.nested with ⟨unmapped, -⟩ | ⟨-, base?, s₁, l, mapped, rfl, -⟩
  · rw [member.isMapped] at unmapped
    cases unmapped
  rw [padded] at mapped
  obtain ⟨p, s₂, placed, shipped, -⟩ := returns_mapRegion_place mapped member.isMapped
  obtain ⟨rest, same, of⟩ := returns_place_member member there found placed
  refine ⟨⟨p, ?_, of⟩, ?_, frames, ?_, fun stays => ?_⟩
  · rw [placementsAt, ArgumentList.get_eq_ok.2 here, plans_of_get here member.nested]
    dsimp only [placementsOf, RegionPlan.resolve]
    rw [if_pos member.isMapped, padded, placement?, if_pos member.isMapped, placed]
    rfl
  · rw [show ({ s₁ with arguments := l } : RegionState).host = s₁.host from rfl, shipped.host, rest]
    rfl
  · exact shipped.sent.link.footprint.trans same.footprint
  · have content : p.content = [] := by rw [of.content, stays, Bool.and_false, if_neg Bool.false_ne_true]
    have still := shipped.activation_of_silent of.pointer content
    refine ⟨?_, ?_⟩
    · rw [show ({ s₁ with arguments := l } : RegionState).activation = s₁.activation from rfl, still]
      exact same
    · rw [show ({ s₁ with arguments := l } : RegionState).activation = s₁.activation from rfl, still, rest]
      rfl

end member

/-! ## Releasing a member -/

/-- An argument that stands for itself is released as one region. -/
theorem exec_unmapArgument_of_get (here : t.arguments.arguments[index]? = some a)
    (nested : a.mapType.has .nested = false) (mapped : a.isMapped = true) :
    exec (unmapArgument settings index) t =
      exec (unmapRegion settings (isPadded t.arguments index a) a) t := by
  have got : Returns (arguments (·.get index)) t a t :=
    returns_arguments.2 ⟨ArgumentList.get_eq_ok.2 here, rfl⟩
  have found : Returns (arguments (·.plans index)) t [.known a] t :=
    returns_arguments.2 ⟨plans_of_get here nested, rfl⟩
  rw [unmapArgument, exec_bind_ok got, mapped, Bool.not_true, if_neg Bool.false_ne_true, exec_get_bind,
    exec_bind_ok found, forRegions_known]
  exact congrArg (exec · t) bind_pure_unit

theorem exec_unmapArgument_member (member : a.Member parent) (here : t.arguments.arguments[index]? = some a) :
    exec (unmapArgument settings index) t = exec (unmapRegion settings false a) t := by
  rw [exec_unmapArgument_of_get here member.nested member.isMapped, isPadded_isMember here member.isMember]

section member

variable (member : a.Member parent) (there : t.arguments.arguments[parent]? = some head)

include member there

/-- The bytes of a member that is released come back if they move. -/
theorem exec_copyBack_member {first size source : Nat} : exec (copyBack a first size source false) t =
    exec (if a.moves .fromDevice (t.activation.link.device.mappings.soleOwner head.start) then do
      writeHost first (← onDevice (Device.retrieve source size))
      return true
    else return false) t := by
  rw [copyBack]
  dsimp only
  rw [member.isMember, member.pointer, Bool.not_false, Bool.and_true, if_pos rfl, Argument.moves]
  cases a.mapType.has .fromDevice with
  | false => rfl
  | true =>
      rw [if_pos rfl, exec_bind_ok (returns_parentIsSoleOwner member there), Bool.false_or, Bool.true_and]

/-- A member that is released is copied back if its bytes move, and nothing else happens. -/
theorem returns_unmapRegion_member (ran : Returns (unmapRegion settings false a) t u t') :
    (a.size = 0 ∧ t' = t) ∨ ∃ m, (t.activation.link.device.mappings.lookup a.start a.size).mapping? = some m ∧
      ((a.moves .fromDevice (t.activation.link.device.mappings.soleOwner head.start) = false ∧ t' = t) ∨
        (a.moves .fromDevice (t.activation.link.device.mappings.soleOwner head.start) = true ∧
          t.activation.link.Counted t'.activation.link ∧ t'.arguments = t.arguments ∧
          (t.activation.link.accelerator.WellFormed → TakesBack settings a (m.translate a.start)
            t.activation.link t.host t'.host))) := by
  obtain ⟨t₁, released, ⟨-, rfl⟩ | ⟨owner, -⟩⟩ := returns_unmapRegion ran member.isMapped
  · obtain ⟨held?, k, first, size, sec, holding, rest⟩ := returns_releaseSection released
    cases sec
    rw [member.isPlainMember, Bool.not_true] at holding
    rcases Device.returns_hold holding with ⟨-, rfl, rfl⟩ | ⟨m, found, rfl, same⟩
    · rcases rest with ⟨-, empty, rfl⟩ | ⟨_, _, _, _, none, -⟩
      · exact .inl ⟨empty, rfl⟩
      · cases none
    · rw [Bool.false_and, if_neg Bool.false_ne_true] at same
      subst same
      rcases rest with ⟨none, -⟩ | ⟨held, copied, t₂, t₃, some, copying, restoring, last⟩
      · cases none
      cases some
      have kept : isRemoved a ⟨m.translate a.start, m.refCount.isLast⟩ = false := by
        rw [isRemoved, member.isPlainMember, Bool.not_true, Bool.and_false]
      rw [kept] at copying restoring last
      rcases last with ⟨-, rfl⟩ | ⟨removed, -⟩
      · refine .inr ⟨m, found, ?_⟩
        rw [Returns, exec_copyBack_member member (t := t.withLink t.activation.link) there] at copying
        rw [Returns, exec_restoreShadows, Prod.mk.injEq] at restoring
        obtain ⟨-, rfl⟩ := restoring
        change exec (if a.moves .fromDevice (t.activation.link.device.mappings.soleOwner head.start) then _
          else _) t = _ at copying
        cases moves : a.moves .fromDevice (t.activation.link.device.mappings.soleOwner head.start) with
        | false =>
            rw [moves] at copying
            obtain ⟨rfl, rfl⟩ := returns_pure.1 copying
            exact .inl ⟨rfl, rfl⟩
        | true =>
            rw [moves, if_pos rfl] at copying
            obtain ⟨content, t₃, fetched, wrote⟩ := returns_bind.1 copying
            obtain ⟨k, got, rfl⟩ := lifts_onDevice.returns.1 fetched
            obtain ⟨_, t₄, stored, done⟩ := returns_bind.1 wrote
            obtain rfl := returns_modify.1 stored
            obtain ⟨rfl, rfl⟩ := returns_pure.1 done
            have counted := (Device.returns_retrieve got).2
            refine .inr ⟨rfl, counted, rfl, fun wf => ?_⟩
            obtain ⟨length, bytes⟩ := Device.bytes_retrieve wf got
            obtain ⟨_, _, device⟩ := counted.device
            have shadows : k.device.shadows = t.activation.link.device.shadows := by rw [device]
            refine ⟨content, length, bytes, ?_⟩
            rw [← shadows]
            cases settings.config.translatesOnDevice with
            | true => rfl
            | false => rfl
      · cases removed
  · rw [member.pointer, Bool.false_and] at owner
    cases owner

theorem counted_unmapRegion_member (ran : Returns (unmapRegion settings false a) t u t') :
    t.activation.link.Counted t'.activation.link ∧ t'.arguments = t.arguments := by
  rcases returns_unmapRegion_member member there ran with ⟨-, rfl⟩ | ⟨_, -, ⟨-, rfl⟩ | ⟨-, counted, arguments, -⟩⟩
  · exact ⟨.refl _, rfl⟩
  · exact ⟨.refl _, rfl⟩
  · exact ⟨counted, arguments⟩

/-- The bytes of a member that is released come back if they move, and no other bytes change. The bytes of a
host address are at `source` on the device. -/
theorem bytes_unmapRegion_member {source : Nat → Nat} (wf : t.activation.link.accelerator.WellFormed)
    (placed : ∀ m, (t.activation.link.device.mappings.lookup a.start a.size).mapping? = some m →
      ∀ j < a.size, m.translate a.start + j = source (a.start + j))
    (forgotten : ∀ x ∈ t.activation.link.device.shadows, ¬ a.hostSection.Holds x.hostSlot)
    (ran : Returns (unmapRegion settings false a) t u t') (addr : Nat) :
    if a.moves .fromDevice (t.activation.link.device.mappings.soleOwner head.start) = true ∧
        a.hostSection.Holds addr then t.activation.link.byte? (source addr) = some (t'.host.byte addr)
      else t'.host.byte addr = t.host.byte addr := by
  rcases returns_unmapRegion_member member there ran with ⟨empty, rfl⟩ |
    ⟨m, found, ⟨stays, rfl⟩ | ⟨moves, -, -, taken⟩⟩
  · rw [if_neg]
    rintro ⟨-, lower, upper⟩
    change a.start ≤ addr at lower
    change addr < a.start + a.size at upper
    omega
  · rw [if_neg fun holds => by rw [stays] at holds; cases holds.1]
  · obtain ⟨inside, outside⟩ := (taken wf).byte_unremembered forgotten
    split
    · rename_i there
      obtain ⟨-, lower, upper⟩ := there
      change a.start ≤ addr at lower
      change addr < a.start + a.size at upper
      obtain ⟨j, rfl⟩ := Nat.exists_eq_add_of_le lower
      rw [← placed m found j (Nat.lt_of_add_lt_add_left upper)]
      exact inside j (Nat.lt_of_add_lt_add_left upper)
    · rename_i elsewhere
      exact outside addr fun holds => elsewhere ⟨moves, holds⟩

/-- A member can be released if it is empty or its section is found, and if its bytes can be read when they
move. -/
theorem exists_unmapRegion_member
    (found : a.size = 0 ∨ (t.activation.link.device.mappings.lookup a.start a.size).isFound = true)
    (reads : ∀ m, (t.activation.link.device.mappings.lookup a.start a.size).mapping? = some m →
      a.moves .fromDevice (t.activation.link.device.mappings.soleOwner head.start) = true →
      ∃ content k, Returns (Device.retrieve (m.translate a.start) a.size) t.activation.link content k) :
    ∃ t', Returns (unmapRegion settings false a) t () t' := by
  have holding : Returns (Device.hold a.start a.size (!isPlainMember a)) t.activation.link
      ((t.activation.link.device.mappings.lookup a.start a.size).mapping?.map fun m =>
        ⟨m.translate a.start, m.refCount.isLast⟩) t.activation.link := by
    rw [member.isPlainMember]
    exact Device.hold_unreferenced
  obtain ⟨t', released⟩ : ∃ t', Returns (releaseSection settings false a) t () t' := by
    cases here : (t.activation.link.device.mappings.lookup a.start a.size).mapping? with
    | none =>
        rw [here, Option.map_none] at holding
        rw [Coverage.isFound, here, Option.isSome_none, eq_false Bool.false_ne_true, or_false] at found
        refine ⟨t, ?_⟩
        unfold releaseSection
        rw [show mappedSection settings false a = (a.start, a.size) from rfl]
        refine returns_bind.2 ⟨none, t, lifts_onDevice.returns.2 ⟨t.activation.link, holding, rfl⟩, ?_⟩
        dsimp only
        rw [if_pos found]
        exact returns_pure.2 ⟨rfl, rfl⟩
    | some m =>
        rw [here, Option.map_some] at holding
        have kept : isRemoved a ⟨m.translate a.start, m.refCount.isLast⟩ = false := by
          rw [isRemoved, member.isPlainMember, Bool.not_true, Bool.and_false]
        obtain ⟨copied, t₁, copying⟩ : ∃ copied t₁, Returns (copyBack a a.start a.size (m.translate a.start) false)
            (t.withLink t.activation.link) copied t₁ := by
          unfold Returns
          rw [exec_copyBack_member member (t := t.withLink t.activation.link) there]
          change ∃ copied t₁, exec (if a.moves .fromDevice
            (t.activation.link.device.mappings.soleOwner head.start) then _ else _) t = _
          cases moves : a.moves .fromDevice (t.activation.link.device.mappings.soleOwner head.start) with
          | false => exact ⟨false, t, rfl⟩
          | true =>
              obtain ⟨content, k, read⟩ := reads m here moves
              refine ⟨true, { t.withLink k with host := t.host.write a.start content }, ?_⟩
              rw [if_pos rfl]
              exact returns_bind.2 ⟨content, t.withLink k, lifts_onDevice.returns.2 ⟨k, read, rfl⟩, rfl⟩
        obtain ⟨t₂, restoring, -⟩ := returns_restoreShadows settings a.start a.size copied false t₁
        refine ⟨t₂, releases_held rfl holding (by rwa [kept]) (by rwa [kept]) ?_⟩
        rw [kept, if_neg Bool.false_ne_true]
        exact returns_pure.2 ⟨rfl, rfl⟩
  refine ⟨t', ?_⟩
  rw [unmapRegion, member.isMapped, Bool.not_true, if_neg Bool.false_ne_true]
  refine returns_bind.2 ⟨(), t', released, ?_⟩
  rw [member.pointer, Bool.false_and, if_neg Bool.false_ne_true]
  exact returns_pure.2 ⟨rfl, rfl⟩

end member

end Region

end Offloading
