import Offloading.Proofs.KernelArguments
/-!
# Lambda captures

A lambda object holds pointers to what it captured. When a region is launched, the pointer in the device
copy of the object is set to the device address of the captured section, if that section is mapped, and
nothing else is written for the captured pointer.
-/

namespace Offloading

namespace Link

variable {l l' : Link} {target : Nat} {content : List UInt8}

/-- The bytes from `target` on were set to `content`, and no other byte of any device changed. -/
structure Overwrote (l : Link) (target : Nat) (content : List UInt8) (l' : Link) : Prop where
  bytes : ∀ i, i < content.length → l'.byte? (target + i) = content[i]?
  elsewhere : ∀ addr, addr < target ∨ target + content.length ≤ addr → l'.byte? addr = l.byte? addr
  others : ∀ unit, unit ≠ l.device.unit → l'.accelerator.memory? unit = l.accelerator.memory? unit

theorem Moved.mappings (h : l.Moved l') : l'.device.mappings = l.device.mappings := by
  obtain ⟨_, _, device⟩ := h.device
  rw [device]

theorem Stored.overwrote (h : l.Stored l' [⟨target, content⟩]) : l.Overwrote target content l' where
  bytes i hi := by
    have here : Chunk.byte? ⟨target, content⟩ (target + i) = content[i]? := by
      rw [Chunk.byte?, if_pos (Nat.le_add_right _ _), Nat.add_sub_cancel_left]
    rw [h.bytes, Chunk.written, Chunk.written_nil, Option.none_or, here, List.getElem?_eq_getElem hi,
      Option.some_or]
  elsewhere addr outside := by
    have apart : Chunk.byte? ⟨target, content⟩ addr = none := by
      refine Chunk.byte?_eq_none fun inside => ?_
      have := inside.1
      have := inside.2
      simp only at *
      omega
    rw [h.bytes, Chunk.written, Chunk.written_nil, apart, Option.none_or, Option.none_or]
  others _ other := h.confined.others other

end Link

namespace Word

/-- A displaced address is the address itself just if the displacement is zero. -/
theorem add_eq_self_iff {a d : Nat} (ha : a < modulus) (hd : d < modulus) : add a d = a ↔ d = 0 := by
  rw [add, modulus] at *
  omega

theorem sub_lt (a b : Nat) : sub a b < modulus := Nat.mod_lt _ (by decide)

theorem sub_eq_zero_iff {a b : Nat} : sub a b = 0 ↔ a % modulus = b % modulus := by
  rw [sub, modulus]
  omega

end Word

theorem Mapping.translate_lt (m : Mapping) (addr : Nat) : m.translate addr < Word.modulus :=
  Nat.mod_lt _ (by decide)

/-- The device base of an object, displaced as an address is from the start of the object's section: the
image of the address, displaced as the base is from that start. -/
theorem Mapping.translate_displaced {m : Mapping} {base start addr : Nat} :
    Word.add (Word.add (m.translate start) (Word.sub base start)) (Word.sub addr start) =
      Word.add (m.translate addr) (Word.sub base start) := by
  unfold translate Word.add Word.sub Word.modulus
  omega

namespace Region

open RegionM

variable {settings : Settings} {s s' before after : RegionState} {staged staged' : Staged}
  {index : Nat} {a p : Argument} {plan : LaunchPlan}

/-! ## The arguments before one -/

/-- Stages the tables and the arguments before a position. -/
def stageBefore (settings : Settings) (index : Nat) : RegionM Staged := do
  let _ ← stageAddressTable settings
  let _ ← stageOffsetList settings
  stageArguments {} 0 ((← get).arguments.arguments.take index)

/-- In a run of `stage` from `s` to `s'` the argument at a position is staged between `before` and `after`,
and `staged` is what the arguments in front of it have given. -/
structure StagesAt (settings : Settings) (index : Nat) (s s' : RegionState) (staged : Staged)
    (before after : RegionState) : Prop where
  reached : Returns (stageBefore settings index) s staged before
  passed : ∃ a staged' final, s.arguments.arguments[index]? = some a ∧
    Returns (stageArgument staged index a) before staged' after ∧
    Returns (stageArguments staged' (index + 1) (s.arguments.arguments.drop (index + 1))) after final s'

theorem returns_stageArguments_append {xs ys : List Argument} {final : Staged} :
    Returns (stageArguments staged index (xs ++ ys)) s final s' ↔
      ∃ staged₁ s₁, Returns (stageArguments staged index xs) s staged₁ s₁ ∧
        Returns (stageArguments staged₁ (index + xs.length) ys) s₁ final s' := by
  induction xs generalizing staged index s with
  | nil =>
      constructor
      · exact fun h => ⟨staged, s, returns_pure.2 ⟨rfl, rfl⟩, h⟩
      · rintro ⟨_, _, first, second⟩
        obtain ⟨rfl, rfl⟩ := returns_pure.1 first
        exact second
  | cons a rest ih =>
      have next : index + (a :: rest).length = index + 1 + rest.length := by
        rw [List.length_cons]
        omega
      rw [List.cons_append, stageArguments, stageArguments, next, returns_bind]
      constructor
      · rintro ⟨staged₀, s₀, here, later⟩
        obtain ⟨staged₁, s₁, first, second⟩ := ih.1 later
        exact ⟨staged₁, s₁, returns_bind.2 ⟨staged₀, s₀, here, first⟩, second⟩
      · rintro ⟨staged₁, s₁, first, second⟩
        obtain ⟨staged₀, s₀, here, first⟩ := returns_bind.1 first
        exact ⟨staged₀, s₀, here, ih.2 ⟨staged₁, s₁, first, second⟩⟩

/-- Staging the tables leaves the arguments and the mapped sections as they are. -/
theorem returns_stageBefore (h : Returns (stageBefore settings index) s staged before) :
    ∃ mid, Step Link.Moved Eq s mid ∧
      Returns (stageArguments {} 0 (s.arguments.arguments.take index)) mid staged before := by
  obtain ⟨table?, s₁, first, h⟩ := returns_bind.1 h
  obtain ⟨list?, mid, second, h⟩ := returns_bind.1 h
  have step : Step Link.Moved Eq s mid := Lasting.trans
    (launches_moved.stageAddressTable.returns first) (launches_moved.stageOffsetList.returns second)
  rw [returns_get_bind, step.arguments] at h
  exact ⟨mid, step, h⟩

/-- A run of `stage` reaches each argument. -/
theorem stagesAt_of_returns (ha : s.arguments.arguments[index]? = some a)
    (h : Returns (stage settings) s plan s') :
    ∃ staged before after, StagesAt settings index s s' staged before after := by
  obtain ⟨table?, s₁, first, h⟩ := returns_bind.1 h
  obtain ⟨list?, s₂, second, h⟩ := returns_bind.1 h
  obtain ⟨final, s₃, third, done⟩ := returns_bind.1 (returns_get_bind.1 h)
  obtain ⟨-, rfl⟩ := returns_pure.1 done
  have step : Step Link.Moved Eq s s₂ := Lasting.trans
    (launches_moved.stageAddressTable.returns first) (launches_moved.stageOffsetList.returns second)
  obtain ⟨bound, here⟩ := List.getElem?_eq_some_iff.1 ha
  have parts : s.arguments.arguments =
      s.arguments.arguments.take index ++ a :: s.arguments.arguments.drop (index + 1) := by
    rw [← here, List.getElem_cons_drop, List.take_append_drop]
  rw [step.arguments, parts, returns_stageArguments_append] at third
  obtain ⟨staged, before, early, third⟩ := third
  obtain ⟨staged', after, passed, rest⟩ := returns_bind.1 third
  rw [List.length_take_of_le (Nat.le_of_lt bound), Nat.zero_add] at passed rest
  refine ⟨staged, before, after, ?_, a, staged', final, ha, passed, rest⟩
  refine returns_bind.2 ⟨table?, s₁, first, returns_bind.2 ⟨list?, s₂, second, returns_get_bind.2 ?_⟩⟩
  rw [step.arguments]
  exact early

/-! ## Values of objects -/

variable {t : MappingTable} {i value argument : Nat} {offset : Int} {args : List Argument}

/-- The value is the device address of the base of a section that meets a mapping. -/
def IsBase (t : MappingTable) (p : Argument) (value : Nat) : Prop :=
  ∃ m, (t.lookup p.start p.size).mapping? = some m ∧
    value = Word.add (m.translate p.start) (Word.sub p.base p.start)

/-- What the arguments `args` have given: each has its place, and the sections among them that are passed to
the kernel and are not empty are known by their device bases. -/
structure Staged.Knows (staged : Staged) (t : MappingTable) (args : List Argument) : Prop where
  even : staged.Even
  places : staged.positions.length = args.length
  bases : ∀ (i : Nat) (p : Argument), args[i]? = some p → p.kind = .plain →
    p.mapType.has .targetParam = true → p.size ≠ 0 → ∃ value, staged.value? i = some value ∧ IsBase t p value

theorem Staged.knows_nil (t : MappingTable) : Staged.Knows {} t [] := ⟨rfl, rfl, nofun⟩

theorem Staged.value?_eq_some_iff : staged.value? i = some value ↔ ∃ position argument offset,
    staged.positions[i]? = some (some position) ∧ staged.arguments[position]? = some argument ∧
      staged.offsets[position]? = some offset ∧ Word.displace argument offset = value := by
  simp only [value?, Option.bind_eq_bind, Option.bind_eq_some_iff, Option.join_eq_some_iff,
    Option.some.injEq, Option.pure_def]
  constructor
  · rintro ⟨position, place, argument, ha, offset, ho, same⟩
    exact ⟨position, argument, offset, place, ha, ho, same⟩
  · rintro ⟨position, argument, offset, place, ha, ho, same⟩
    exact ⟨position, place, argument, ha, offset, ho, same⟩

/-- What comes later leaves the values of earlier arguments as they are. -/
theorem Staged.value?_of_prefix (positions : staged.positions <+: staged'.positions)
    (arguments : staged.arguments <+: staged'.arguments) (offsets : staged.offsets <+: staged'.offsets)
    (h : staged.value? i = some value) : staged'.value? i = some value := by
  obtain ⟨position, argument, offset, place, ha, ho, same⟩ := value?_eq_some_iff.1 h
  have later {α : Type} {xs ys : List α} {j : Nat} {x : α} (before : xs <+: ys) (hx : xs[j]? = some x) :
      ys[j]? = some x := by
    obtain ⟨more, rfl⟩ := before
    rw [List.getElem?_append_left (List.getElem?_eq_some_iff.1 hx).1, hx]
  exact value?_eq_some_iff.2
    ⟨position, argument, offset, later positions place, later arguments ha, later offsets ho, same⟩

/-- The argument that was passed last has the value that it was passed with. -/
theorem Staged.value?_pass_self (even : staged.Even) (argument : Nat) (offset : Int) :
    (staged.pass argument offset).value? staged.positions.length = some (Word.displace argument offset) := by
  refine value?_eq_some_iff.2 ⟨staged.arguments.length, argument, offset, ?_, ?_, ?_, rfl⟩
  · exact List.getElem?_concat_length
  · exact List.getElem?_concat_length
  · rw [← even]
    exact List.getElem?_concat_length

/-- One more argument is known if earlier values stay and its own one is its device base. -/
theorem Staged.Knows.extend (h : staged.Knows t args) (even : staged'.Even)
    (places : staged'.positions.length = staged.positions.length + 1)
    (old : ∀ i value, staged.value? i = some value → staged'.value? i = some value)
    (new : a.kind = .plain → a.mapType.has .targetParam = true → a.size ≠ 0 →
      ∃ value, staged'.value? staged.positions.length = some value ∧ IsBase t a value) :
    staged'.Knows t (args ++ [a]) where
  even := even
  places := by rw [places, h.places, List.length_append, List.length_singleton]
  bases i p hp plain passed filled := by
    by_cases early : i < args.length
    · rw [List.getElem?_append_left early] at hp
      obtain ⟨value, found, base⟩ := h.bases i p hp plain passed filled
      exact ⟨value, old i value found, base⟩
    · have bound := (List.getElem?_eq_some_iff.1 hp).1
      rw [List.length_append, List.length_singleton] at bound
      have last : i = args.length := by omega
      rw [last, List.getElem?_concat_length, Option.some.injEq] at hp
      subst hp
      rw [last, ← h.places]
      exact new plain passed filled

/-- An argument is known after it was staged. -/
theorem Staged.Knows.stageArgument (h : staged.Knows s.activation.link.device.mappings args)
    (staging : Returns (stageArgument staged index a) s staged' s') :
    staged'.Knows s.activation.link.device.mappings (args ++ [a]) := by
  rw [Region.stageArgument] at staging
  cases hidden : a.mapType.has .targetParam with
  | true =>
      rw [hidden, if_pos rfl] at staging
      obtain ⟨⟨argument, offset⟩, s₁, ran, done⟩ := returns_bind.1 staging
      obtain ⟨rfl, -⟩ := returns_pure.1 done
      refine h.extend (staged.even_push h.even argument offset) (List.length_append ..) ?_ ?_
      · exact fun i value => value?_of_prefix (List.prefix_append ..) (List.prefix_append ..)
          (List.prefix_append ..)
      · intro plain _ filled
        refine ⟨_, value?_pass_self h.even argument offset, ?_⟩
        obtain ⟨-, target, found | ⟨-, empty, -⟩, value⟩ := returns_kernelArgument_plain (.inl plain) ran
        · obtain ⟨m, met, rfl⟩ := Option.map_eq_some_iff.1 found
          exact ⟨m, met, value⟩
        · exact absurd empty filled
  | false =>
      rw [hidden, if_neg Bool.false_ne_true] at staging
      have skipped : staged' = staged.skip := by
        split at staging
        · obtain ⟨_, _, -, done⟩ := returns_bind.1 staging
          exact (returns_pure.1 done).1
        · exact (returns_pure.1 (returns_pure_bind.1 staging)).1
      subst skipped
      refine h.extend h.even (List.length_append ..) ?_ fun _ passed => ?_
      · exact fun i value => value?_of_prefix (List.prefix_append ..) (List.prefix_refl _)
          (List.prefix_refl _)
      · rw [hidden] at passed
        cases passed

/-- All arguments are known after they were staged. -/
theorem Staged.Knows.stageArguments {rest : List Argument}
    (h : staged.Knows s.activation.link.device.mappings args)
    (staging : Returns (stageArguments staged index rest) s staged' s') :
    staged'.Knows s.activation.link.device.mappings (args ++ rest) := by
  induction rest generalizing staged index s args with
  | nil =>
      obtain ⟨rfl, -⟩ := returns_pure.1 staging
      rwa [List.append_nil]
  | cons a rest ih =>
      obtain ⟨staged₁, s₁, here, later⟩ := returns_bind.1 staging
      have moved : Step Link.Moved Eq s s₁ := launches_moved.stageArgument.returns here
      have same := moved.link.mappings
      have known := h.stageArgument here
      rw [← same] at known ⊢
      rw [← List.singleton_append, ← List.append_assoc]
      exact ih known later

/-! ## Captured pointers -/

/-- For a captured pointer the device address of the captured section is written into the object, and nothing
is written if the section is not mapped. -/
theorem returns_patchCapture {parent object : Nat} {u : Unit}
    (wf : s.activation.link.accelerator.WellFormed) (known : staged.value? parent = some object)
    (hp : s.arguments.arguments[parent]? = some p)
    (h : Returns (patchCapture staged index a (some parent)) s u s') :
    match s.activation.link.device.translate? a.start a.size with
    | some captured => s.activation.link.Overwrote (Word.add object (Word.sub a.base p.start))
        (Word.toBytes captured) s'.activation.link
    | none => s' = s := by
  unfold patchCapture at h
  simp only [known] at h
  obtain ⟨p', s₁, asked, h⟩ := returns_bind.1 h
  obtain ⟨got, rfl⟩ := returns_arguments.1 asked
  rw [ArgumentList.get_eq_ok, hp, Option.some.injEq] at got
  subst got
  rw [returns_device_bind] at h
  split
  · rename_i captured found
    rw [found] at h
    obtain ⟨l, submitted, rfl⟩ := lifts_onDevice.returns.1 h
    exact (Device.stored_submit wf submitted).overwrote
  · rename_i unmapped
    rw [unmapped] at h
    exact (returns_pure.1 h).2

/-- Staging reaches the pointer that a lambda object captured. If the captured section is mapped, its device
address is written where the pointer's image is, displaced as the object's base is from the start of its
section, and no other byte changes; that is the pointer's image just if the object starts at its base. If
the captured section is not mapped, nothing changes. -/
theorem stage_capture (parent : Nat) (wf : s.activation.link.accelerator.WellFormed)
    (ha : s.arguments.arguments[index]? = some a) (capture : a.kind = .lambdaCapture (some parent))
    (hidden : a.mapType.has .targetParam = false) (earlier : parent < index)
    (hp : s.arguments.arguments[parent]? = some p) (plain : p.kind = .plain)
    (passed : p.mapType.has .targetParam = true) (lower : p.start ≤ a.base)
    (upper : a.base + Word.bytes ≤ p.start + p.size) (h : Returns (stage settings) s plan s') :
    ∃ staged before after m, StagesAt settings index s s' staged before after ∧
      (s.activation.link.device.mappings.lookup p.start p.size).mapping? = some m ∧
      (Word.add (m.translate a.base) (Word.sub p.base p.start) = m.translate a.base ↔
        p.base % Word.modulus = p.start % Word.modulus) ∧
      match s.activation.link.device.translate? a.start a.size with
      | some captured => before.activation.link.Overwrote
          (Word.add (m.translate a.base) (Word.sub p.base p.start)) (Word.toBytes captured)
          after.activation.link
      | none => after = before := by
  obtain ⟨staged, before, after, at_⟩ := stagesAt_of_returns ha h
  have filled : p.size ≠ 0 := by
    have : Word.bytes = 8 := rfl
    omega
  obtain ⟨mid, step, early⟩ := returns_stageBefore at_.reached
  have step' : Step Link.Moved Eq mid before := (launches_moved.stageArguments _).returns early
  have moved : Step Link.Moved Eq s before := Lasting.trans step step'
  have known := (Staged.knows_nil _).stageArguments early
  obtain ⟨object, value, m, met, rfl⟩ := known.bases parent p
    (by rw [List.nil_append, List.getElem?_take_of_lt earlier, hp]) plain passed filled
  obtain ⟨a', staged', final, ha', here, -⟩ := at_.passed
  rw [ha, Option.some.injEq] at ha'
  subst ha'
  rw [stageArgument, hidden, if_neg Bool.false_ne_true, capture] at here
  obtain ⟨_, after', patched, done⟩ := returns_bind.1 here
  obtain ⟨-, rfl⟩ := returns_pure.1 done
  have wrote := returns_patchCapture (moved.link.wellFormed wf) value (moved.arguments ▸ hp) patched
  rw [Mapping.translate_displaced, Device.translate?, moved.link.mappings] at wrote
  rw [step.link.mappings] at met
  have displaced := Word.add_eq_self_iff (m.translate_lt a.base) (Word.sub_lt p.base p.start)
  exact ⟨staged, before, after, m, at_, met, displaced.trans Word.sub_eq_zero_iff, wrote⟩

/-- An object whose section starts eight bytes behind its base, a pointer at the start of the section's second
half, and the section that the pointer captured. -/
private def capturing : RegionState where
  activation.link := { device := { id := 0, unit := 0 }, accelerator := .ofDevices 1 1024 }
  activation.queue := {}
  host := {}
  arguments := { arguments := [
    ⟨0x1000, 0x1008, 16, .ofFlags [.toDevice, .targetParam]⟩,
    ⟨0x1010, 0x2000, 8, (MapType.ofFlags [.pointerAndObject, .literal, .implicit]).withMemberOf 0⟩,
    ⟨0x2000, 0x2000, 8, .ofFlags [.toDevice]⟩] }

/-- The region is mapped and staged, and it is known where its sections are then. -/
private theorem capturing_staged : ∃ (mid : RegionState) (plan : LaunchPlan) (s' : RegionState),
    Returns (enter {}) capturing () mid ∧ Returns (stage {}) mid plan s' ∧
      mid.arguments.arguments = capturing.arguments.arguments ∧
      (mid.activation.link.device.mappings.lookup 0x1008 16).mapping? =
        some ⟨0x1000, 0x1008, 0x1018, 0xd00000000000, .one⟩ ∧
      mid.activation.link.device.translate? 0x2000 8 = some 0xd00000000080 := by
  refine ⟨(exec (enter {}) capturing).2, _, _, returns_of_ok (by cbv), returns_of_ok (by cbv), ?_, ?_, ?_⟩
  · cbv
  · cbv
  · cbv

theorem stage_capture_capturing : ∃ (mid : RegionState) (plan : LaunchPlan) (s' before after : RegionState),
    Returns (enter {}) capturing () mid ∧ Returns (stage {}) mid plan s' ∧
      (mid.activation.link.device.mappings.lookup 0x1008 16).mapping? =
        some ⟨0x1000, 0x1008, 0x1018, 0xd00000000000, .one⟩ ∧
      before.activation.link.Overwrote 0xd00000000000 (Word.toBytes 0xd00000000080)
        after.activation.link := by
  have sound : capturing.activation.link.Sound :=
    ⟨MappingTable.wellFormed_empty, Accelerator.wellFormed_ofDevices rfl⟩
  obtain ⟨mid, plan, s', entered, staged, arguments, object, captured⟩ := capturing_staged
  have wf := (((along_enter {}).returns entered).link.sound sound).accelerator
  have ha : mid.arguments.arguments[1]? = some ⟨0x1010, 0x2000, 8,
      (MapType.ofFlags [.pointerAndObject, .literal, .implicit]).withMemberOf 0⟩ := by
    rw [arguments]
    rfl
  have hp : mid.arguments.arguments[0]? = some ⟨0x1000, 0x1008, 16, .ofFlags [.toDevice, .targetParam]⟩ := by
    rw [arguments]
    rfl
  obtain ⟨_, before, after, m, -, met, -, wrote⟩ := stage_capture 0 wf ha (by decide) (by decide)
    (by decide) hp (by decide) (by decide) (by decide) (by decide) staged
  have found : m = ⟨0x1000, 0x1008, 0x1018, 0xd00000000000, .one⟩ :=
    Option.some.inj (met.symm.trans object)
  have slot : Word.add (m.translate 0x1010) (Word.sub 0x1000 0x1008) = 0xd00000000000 := by
    rw [found]
    decide
  simp only [captured, slot] at wrote
  exact ⟨mid, plan, s', before, after, entered, staged, object, wrote⟩

end Region

end Offloading
