import Offloading.Proofs.AddressTable
import Offloading.Proofs.Backing
import Offloading.Proofs.Deeds
import Offloading.Proofs.WriteBack
/-!
# Kernel arguments

What a kernel sees for the arguments of its region: the value of a literal, the copy that was made for
a private argument, the device address of a pointer slot, and the device base of a mapped section. The
addresses of the tables follow.
-/

namespace Offloading

theorem Argument.displace_baseOffset {a : Argument} {target : Nat} :
    Word.displace target a.baseOffset = Word.add target (Word.sub a.base a.start) :=
  Word.displace_toInt _ _

namespace Link

variable {l₀ l l' : Link}

/-- A section is mapped to memory that the device has never handed out, as one that was associated can be. -/
def Foreign (l : Link) (e : Mapping) : Prop :=
  e ∈ l.device.mappings ∧ ∃ m, l.memory? = some m ∧ m.next < e.deviceBegin + e.length

/-- The copies of all sections lie where the device has handed out memory already, but for those that were
foreign at first. -/
def Grants (l₀ l : Link) : Prop :=
  ∀ m, l.memory? = some m → ∀ e ∈ l.device.mappings,
    e.deviceBegin + e.length ≤ m.next ∨ ∃ e₀, l₀.Foreign e₀ ∧ e₀.SamePlace e

theorem Still.grants (h : l.Still l') (grants : l₀.Grants l) : l₀.Grants l' := by
  intro m' hm' e he
  obtain ⟨m, hm, same⟩ := Still.memory?_eq_some h hm'
  rw [h.mappings] at he
  have next : m.next = m'.next := congrArg (fun l => l.1) same
  rw [← next]
  exact grants m hm e he

/-- The blocks are live and meet neither what was live before nor each other. -/
structure Spares (l : Link) (made : List Block) (l' : Link) : Prop where
  live : ∀ b ∈ made, ∃ m, l'.memory? = some m ∧ b ∈ m.blocks
  fresh : ∀ b ∈ made, ∀ addr, b.start ≤ addr → addr < b.start + b.bytes.length → l.byte? addr = none
  apart : made.Pairwise fun b c => b.start + b.bytes.length < c.start

theorem Furnished.spares {made : List Block} (h : l.Furnished made l') (wf : l.accelerator.WellFormed) :
    l.Spares made l' := by
  rcases h.memory with ⟨rfl, -⟩ | ⟨m, m', before, after, furnished⟩
  · exact ⟨nofun, nofun, .nil⟩
  · refine ⟨fun b hb => ⟨m', after, (furnished.new b hb).1⟩, fun b hb addr lower upper => ?_,
      furnished.apart⟩
    have above := (furnished.new b hb).2
    rw [byte?, before, Option.bind_some, ← Option.not_isSome_iff_eq_none]
    intro some
    have := (wf.memory before).byte?_below some
    omega

/-- Blocks that are made lie behind the copies of all mapped sections. -/
theorem Furnished.unmapped {made : List Block} (h : l.Furnished made l') (grants : l₀.Grants l) :
    ∀ b ∈ made, ∀ e ∈ l'.device.mappings,
      e.deviceBegin + e.length ≤ b.start ∨ ∃ e₀, l₀.Foreign e₀ ∧ e₀.SamePlace e := by
  intro b hb e he
  rw [h.mappings] at he
  rcases h.memory with ⟨rfl, -⟩ | ⟨m, m', before, -, furnished⟩
  · cases hb
  · exact (grants m before e he).imp_left fun inside => Nat.le_trans inside (furnished.new b hb).2

end Link

namespace Accelerator

variable {α β : Type} {e : AcceleratorError} {a : Accelerator} {unit : Int}

end Accelerator

namespace Device

variable {l₀ l l' : Link} {first base size : Nat} {implicit updateRef : Bool} {r : Option MappedSection}

end Device

namespace ArgumentList

variable {l : ArgumentList}

/-- No argument asks for its device base, and neither does a region that a descriptor lists. -/
structure Silent (l : ArgumentList) : Prop where
  arguments : ∀ a ∈ l.arguments, a.mapType.has .returnParam = false
  descriptors : ∀ list, .regions list ∈ l.descriptors → ∀ region ∈ list,
    region.mapType.has .returnParam = false

theorem Silent.at (h : l.Silent) {i : Nat} {a : Argument} (ha : l.arguments[i]? = some a) :
    l.SilentAt i a where
  argument := h.arguments a (List.mem_of_getElem? ha)
  listed _ list hd := h.descriptors list (List.mem_of_getElem? hd)

end ArgumentList

namespace Region

open RegionM

variable {settings : Settings} {s s' : RegionState} {u : Unit}

/-- The blocks of `made` were made for the launch, and nothing else changed. -/
structure Furnished (made : List Block) (s s' : RegionState) : Prop where
  link : s.activation.link.Furnished made s'.activation.link
  host : s'.host = s.host
  arguments : s'.arguments = s.arguments
  scratch : s'.scratch = s.scratch ++ made.map Block.start

variable {made made' : List Block} {s₁ : RegionState}

theorem Furnished.trans (h : Furnished made s s₁) (h' : Furnished made' s₁ s') :
    Furnished (made ++ made') s s' where
  link := h.link.trans h'.link
  host := h'.host.trans h.host
  arguments := h'.arguments.trans h.arguments
  scratch := by rw [h'.scratch, h.scratch, List.map_append, List.append_assoc]

theorem Furnished.wellFormed (h : Furnished made s s') (wf : s.activation.link.accelerator.WellFormed) :
    s'.activation.link.accelerator.WellFormed :=
  h.link.moved.wellFormed wf

/-- The bytes of the block that is made for a private argument: what is copied from the host, or zeros. -/
def privateBytes (host : HostMemory) (a : Argument) (copied : Bool) : List UInt8 :=
  (if copied then host.read a.start a.size else []).rightpad (max a.size 1) 0

/-- The block is as long as the section, and has one byte at least. -/
theorem length_privateBytes (host : HostMemory) (a : Argument) (copied : Bool) :
    (privateBytes host a copied).length = max a.size 1 := by
  cases copied with
  | true => simp [privateBytes, HostMemory.length_read]
  | false => simp [privateBytes]

/-- The kernel sees `value` for an argument, for which the block `block?` was made, if any. -/
def Delivers (host : HostMemory) (d : Device) (a : Argument) (block? : Option Block) (value : Nat) : Prop :=
  match a.kind with
  | .literal => block? = none ∧ value = a.base % Word.modulus
  | .privateCopy copied => ∃ start, block? = some ⟨start, privateBytes host a copied⟩ ∧
      value = Word.add start (Word.sub a.base a.start)
  | .pointerAndObject => block? = none ∧ d.translate? a.base Word.bytes = some value
  | .plain | .lambdaCapture _ => block? = none ∧ ∃ target,
      (d.translate? a.start a.size = some target ∨
        d.translate? a.start a.size = none ∧ a.size = 0 ∧ target = 0) ∧
      value = Word.add target (Word.sub a.base a.start)

variable {a : Argument} {argument : Nat} {offset : Int}

/-- An argument that is not copied is passed as the address of its section, displaced to its base. -/
theorem returns_kernelArgument_plain (hk : a.kind = .plain ∨ ∃ parent?, a.kind = .lambdaCapture parent?)
    (h : Returns (kernelArgument a) s (argument, offset) s') :
    s' = s ∧ ∃ target, (s.activation.link.device.translate? a.start a.size = some target ∨
        s.activation.link.device.translate? a.start a.size = none ∧ a.size = 0 ∧ target = 0) ∧
      Word.displace argument offset = Word.add target (Word.sub a.base a.start) := by
  obtain hk | ⟨_, hk⟩ := hk
  all_goals
    rw [kernelArgument, hk] at h
    dsimp only at h
    rw [returns_device_bind] at h
    cases found : s.activation.link.device.translate? a.start a.size with
    | some target =>
        rw [found] at h
        obtain ⟨⟨⟩, rfl⟩ := returns_pure.1 h
        exact ⟨rfl, argument, .inl rfl, Argument.displace_baseOffset⟩
    | none =>
        rw [found] at h
        by_cases empty : a.size = 0
        · simp only [if_pos empty] at h
          obtain ⟨⟨⟩, rfl⟩ := returns_pure.1 h
          exact ⟨rfl, 0, .inr ⟨rfl, empty, rfl⟩, Argument.displace_baseOffset⟩
        · simp only [if_neg empty] at h
          exact absurd h not_returns_unmapped

/-- What the kernel sees of what is staged. -/
def Staged.values (staged : Staged) : List Nat := List.zipWith Word.displace staged.arguments staged.offsets

/-- The staged arguments have one offset each. -/
def Staged.Even (staged : Staged) : Prop := staged.offsets.length = staged.arguments.length

variable {staged staged' : Staged} {index : Nat} {args : List Argument}

theorem Staged.even_push (even : staged.Even) (argument : Nat) (offset : Int) :
    (staged.push argument offset).Even := by
  simpa [Even, push] using even

/-- More kernel arguments that stand for no arguments of the region. -/
def Staged.append (staged : Staged) (numbers : List Nat) : Staged :=
  { staged with
    arguments := staged.arguments ++ numbers
    offsets := staged.offsets ++ numbers.map fun _ => 0 }

/-- The bytes of the address table, if kernels get one. -/
def tableBytes? (settings : Settings) (d : Device) : Option (List UInt8) :=
  if settings.config.addressTable then some d.addressTable.encode else none

/-- The bytes of the offset list, if kernels get one. -/
def listBytes? (settings : Settings) (d : Device) : Option (List UInt8) :=
  settings.config.addressOffset.bind fun w =>
    (OffsetList.ofMappings (.ofNat w.mask) (.ofNat w.shift) d.mappings.toList).toOption.map (·.encode)

/-- The kernel arguments behind those of the region, when the tables are in the given blocks. -/
def tableArguments (settings : Settings) (d : Device) (table? list? : Option Block) : List Nat :=
  (table?.elim [] fun table => table.start :: d.addressTable.size :: settings.config.addressMask.toList) ++
    list?.elim [] fun list => [list.start]

/-- How many kernel arguments there are behind those of the region: the place and the number of sections of
the address table, the mask, and the place of the offset list. -/
def numTableArguments (settings : Settings) : Nat :=
  (if settings.config.addressTable then 2 + (if settings.config.addressMask.isSome then 1 else 0) else 0)
    + if settings.config.addressOffset.isSome then 1 else 0

/-- What a plan hands to its kernel when `table?` and `list?` hold the tables and each of `own` is the block
that was made for a parameter among `args`, if any, and its value. -/
structure Hands (settings : Settings) (args : List Argument) (plan : LaunchPlan) (s : RegionState)
    (table? list? : Option Block) (own : List (Option Block × Nat)) : Prop where
  even : plan.offsets.length = plan.arguments.length
  values : List.zipWith Word.displace plan.arguments plan.offsets = own.map Prod.snd ++
    (tableArguments settings s.activation.link.device table? list?).map (· % Word.modulus)
  delivers : List.Forall₂ (fun a p => Delivers s.host s.activation.link.device a p.1 p.2)
    (args.filter (·.mapType.has .targetParam)) own
  table : table?.map Block.bytes = tableBytes? settings s.activation.link.device
  list : list?.map Block.bytes = listBytes? settings s.activation.link.device
  listed : list?.isSome = settings.config.addressOffset.isSome

variable {plan : LaunchPlan} {table? list? : Option Block} {own : List (Option Block × Nat)}

theorem Hands.length (h : Hands settings args plan s table? list? own) :
    plan.arguments.length =
      (args.filter (·.mapType.has .targetParam)).length + numTableArguments settings := by
  have values := congrArg List.length h.values
  rw [List.length_zipWith, h.even, Nat.min_self, List.length_append, List.length_map, List.length_map,
    ← h.delivers.length_eq] at values
  have table := h.table
  rw [tableBytes?] at table
  rw [values, numTableArguments, tableArguments, List.length_append, ← h.listed]
  congr 2
  · cases table? with
    | none => cases on : settings.config.addressTable <;> simp [on] at table ⊢
    | some b =>
        cases on : settings.config.addressTable with
        | false => simp [on] at table
        | true => cases settings.config.addressMask <;> simp
  · cases list? <;> rfl

end Region

end Offloading
